import MateHub.Video.Sfu.Panics
import MateHub.Video.Sfu.Signals

/-!
# The filter of the loudest publishers

`forward_rtp` drops the audio of whoever is not in `top_audio_publishers`. The set is computed
on ticks only, from the audio tracks that are there at that moment, and nothing else writes it:
`MateHub.Video.Counting` runs the shard beside what every session counted on its last tick, and
the set is what `pick_top_audio` makes of it (`MateHub.Video.Counting.Kept`).

So a session of few audio tracks is heard in full by those who are there since the last tick,
if that one had not more to choose from than now (`MateHub.Video.small_session_heard_iff`). A
track that has been added since is not in the set, however few there are
(`MateHub.Video.newcomer_silenced`).
-/

namespace MateHub

namespace Video

variable {S : Str0m} {leaves : S.Rtc → S.Rtc → Prop}

/-! ### What is counted, and what is chosen -/

/-- The audio tracks of a session, as `recompute_top_audio` collects them. -/
def SfuSession.audioTracks (s : SfuSession S) : List (ℚ × TrackKey) :=
  s.participants.pairs.flatMap fun e =>
    (e.2.tracksIn.filter fun t => t.kind = .audio).map fun t => (t.audioLoudnessEma, (e.1, t.mid))

/-- The loudest `AUDIO_TOP_K`. -/
def loudest (audio : List (ℚ × TrackKey)) : List (ℚ × TrackKey) :=
  (audio.mergeSort fun a b => decide (b.1 ≤ a.1)).take audioTopK

/-- Whether `pick_top_audio` chooses a track: it is one of few, or one of the loudest. -/
def Chosen (audio : List (ℚ × TrackKey)) (k : TrackKey) : Prop :=
  if audio.length ≤ audioTopK then k ∈ audio.map Prod.snd else k ∈ (loudest audio).map Prod.snd

instance (audio : List (ℚ × TrackKey)) (k : TrackKey) : Decidable (Chosen audio k) :=
  inferInstanceAs (Decidable (ite _ _ _))

/-- A key that can be looked up is in the map. -/
theorem isSome_lookup_iff_mem {κ ν : Type*} [DecidableEq κ] {m : Dict κ ν} {k : κ} :
    (m.lookup k).isSome ↔ k ∈ m :=
  AList.lookup_isSome

/-- **The selection** has those that are chosen. -/
theorem mem_pickTopAudio (audio : List (ℚ × TrackKey)) (k : TrackKey) :
    ((pickTopAudio audio).lookup k).isSome ↔ Chosen audio k := by
  have hmem (l : List (ℚ × TrackKey)) :
      ((l.foldl (fun out e => out.insert e.2 ()) (∅ : KeySet TrackKey)).lookup k).isSome ↔
        k ∈ l.map Prod.snd := by
    rw [isSome_lookup_iff_mem, Dict.mem_foldl_insert]
    simp [eq_comm]
  rw [pickTopAudio, Chosen, audioFilterMinPublishers]
  by_cases hlen : audio.length ≤ audioTopK
  · rw [if_pos (by omega), if_pos hlen, hmem]
  · rw [if_neg (by omega), if_neg hlen, hmem, loudest]

namespace SfuShard

variable {st st' : SfuShard S} {sid : SessionId} {pid : ParticipantId}

/-- The publishers that every session lets through. -/
def tops (st : SfuShard S) (sid : SessionId) : Option (KeySet TrackKey) :=
  (st.session? sid).map SfuSession.topAudioPublishers

/-! ### What leaves the sets alone -/

/-- The selections are in the sessions. -/
theorem tops_congr (h : st'.sessions = st.sessions) : st'.tops = st.tops := by
  funext sid
  rw [tops, tops, session?, session?, h]

/-- A change of a session that leaves its selection leaves all selections. -/
theorem tops_modify (st : SfuShard S) (sid : SessionId) {f : SfuSession S → SfuSession S}
    (hf : ∀ s, (f s).topAudioPublishers = s.topAudioPublishers) :
    tops { st with sessions := st.sessions.modify sid f } = st.tops := by
  funext sid'
  have hlook : session? { st with sessions := st.sessions.modify sid f } sid' =
      if sid' = sid then (st.session? sid').map f else st.session? sid' :=
    Dict.lookup_modify st.sessions sid sid' f
  rw [tops, tops, hlook]
  split_ifs
  · rw [Option.map_map]
    congr 1
    funext s
    exact hf s
  · rfl

/-- Writing a participant leaves the selections. -/
@[simp] theorem tops_setParticipant (st : SfuShard S) (sid : SessionId) (pid : ParticipantId)
    (p : SfuParticipant S) : (st.setParticipant sid pid p).tops = st.tops :=
  tops_modify st sid fun _ => rfl

/-- Writing a session with its selection leaves the selections. -/
theorem tops_setSession {s s' : SfuSession S} (hs : st.session? sid = some s)
    (h : s'.topAudioPublishers = s.topAudioPublishers) : (st.setSession sid s').tops = st.tops := by
  funext sid'
  have hlook : (st.setSession sid s').session? sid' =
      if sid' = sid then some s' else st.session? sid' := Dict.lookup_insert_eq _ _ _ _
  rw [tops, tops, hlook]
  split_ifs with hsid
  · rw [hsid, hs, Option.map_some, Option.map_some, h]
  · rfl

/-- A message leaves the selections. -/
@[simp] theorem tops_wsTrySend (st : SfuShard S) (tx : WsTx) (msg : ServerMessage) :
    (st.wsTrySend tx msg).tops = st.tops := rfl

/-- Writing the targets of a track leaves the selections. -/
@[simp] theorem tops_setTargets (st : SfuShard S) (sid : SessionId) (key : TrackKey)
    (targets : List TrackKey) : (st.setTargets sid key targets).tops = st.tops :=
  tops_modify st sid fun _ => rfl

/-- A transport that is poisoned leaves the selections. -/
@[simp] theorem tops_poisoned (poison : S.Rtc → S.Rtc) (st : SfuShard S) (sid : SessionId)
    (pid : ParticipantId) : (st.poisoned poison sid pid).tops = st.tops := by
  unfold poisoned
  split <;> simp

/-- A request for a keyframe leaves the selection of its session. -/
theorem topAudio_requestKeyframeThrottled (s : SfuSession S) (now : Instant) (pid : ParticipantId)
    (mid : Mid) : (s.requestKeyframeThrottled now pid mid).1.topAudioPublishers =
      s.topAudioPublishers := by
  unfold SfuSession.requestKeyframeThrottled
  dsimp only
  split
  · rfl
  · split
    · rfl
    · split <;> rfl

/-! ### Turns -/

/-- The sets are left alone, whether it returns or is unwound. -/
abbrev KeepsTops (st : SfuShard S) (o : Unwinding S) : Prop :=
  o.EndsIn fun st' => st'.tops = st.tops

/-- A call into a transport keeps the selections if what follows it does. -/
theorem keepsTops_atCall {poison : S.Rtc → S.Rtc} {panicAt : Option ℕ} {st st₀ : SfuShard S}
    {next : Option ℕ → Unwinding S} (h : st.tops = st₀.tops)
    (hnext : ∀ m, KeepsTops st₀ (next m)) :
    KeepsTops st₀ (atCall poison panicAt st sid pid next) :=
  endsIn_atCall (by rw [tops_poisoned, h]) hnext

/-- A packet to a target keeps the selections, wherever it panics. -/
theorem keepsTops_forwardTo (poison : S.Rtc → S.Rtc) (sid : SessionId) (pkt : RtpPacket)
    (kind : MediaKind) (pp : S.PayloadParams) (panicAt : Option ℕ) (st : SfuShard S)
    (target : TrackKey) :
    KeepsTops st (forwardToPanics poison sid pkt kind pp panicAt st target) := by
  unfold forwardToPanics
  split
  · exact rfl
  · refine keepsTops_atCall rfl fun m => ?_
    split
    · exact rfl
    · split
      · exact rfl
      · refine keepsTops_atCall (tops_setParticipant _ _ _ _) fun m => ?_
        split
        · exact tops_setParticipant _ _ _ _
        · exact (tops_congr rfl).trans (tops_setParticipant _ _ _ _)

/-- So does a loop over targets, by induction over the list. -/
theorem keepsTops_forwardLoop {forward : Option ℕ → SfuShard S → TrackKey → Unwinding S}
    (h : ∀ m st target, KeepsTops st (forward m st target)) (targets : List TrackKey)
    (panicAt : Option ℕ) {st st₀ : SfuShard S} (hst : st.tops = st₀.tops) :
    KeepsTops st₀ (forwardLoop forward targets panicAt st) := by
  induction targets generalizing panicAt st with
  | nil => exact hst
  | cons target targets ih =>
    have hone : (forward panicAt st target).EndsIn fun st' => st'.tops = st₀.tops :=
      (h panicAt st target).imp fun st' hst' => hst'.trans hst
    exact hone.bind fun st' m hst' => ih m hst'

/-- A packet to all targets keeps the selections if each single one does. -/
theorem keepsTops_forwardToAll {forward : Option ℕ → SfuShard S → TrackKey → Unwinding S}
    (h : ∀ m st target, KeepsTops st (forward m st target)) (panicAt : Option ℕ)
    {st st₀ : SfuShard S} (hst : st.tops = st₀.tops) (sid : SessionId) (key : TrackKey) :
    KeepsTops st₀ (forwardToAllPanics panicAt st sid key forward) := by
  unfold forwardToAllPanics
  split
  · exact hst
  · have herased := tops_modify st sid
      (f := fun s => { s with forwardingMap := s.forwardingMap.erase key }) fun _ => rfl
    exact herased.trans hst
  · have hloop := keepsTops_forwardLoop h
    refine Unwinding.EndsIn.bind (hloop _ panicAt ?_) fun st' m hst' => ?_
    · exact (tops_setTargets _ _ _ _).trans hst
    · exact (tops_setTargets _ _ _ _).trans hst'

/-- **A packet** keeps the selections, wherever it panics. -/
theorem keepsTops_forwardRtp (poison : S.Rtc → S.Rtc) (panicAt : Option ℕ) (st : SfuShard S)
    (sid : SessionId) (pid : ParticipantId) (mid : Mid) (pkt : RtpPacket) :
    KeepsTops st (forwardRtpPanics poison panicAt st sid pid mid pkt) := by
  unfold forwardRtpPanics
  split
  · exact rfl
  · split
    · exact rfl
    · split
      · exact rfl
      · dsimp only
        refine keepsTops_atCall (tops_setParticipant _ _ _ _) fun m => ?_
        split
        · exact tops_setParticipant _ _ _ _
        · split_ifs
          · exact tops_setParticipant _ _ _ _
          · exact tops_setParticipant _ _ _ _
          · have hone (kind : MediaKind) (pp : S.PayloadParams) (m : Option ℕ) (st : SfuShard S)
                (target : TrackKey) :=
              keepsTops_forwardTo poison sid pkt kind pp m st target
            exact keepsTops_forwardToAll (hone _ _) m (tops_setParticipant _ _ _ _) sid _

/-- New media keeps the selections. -/
@[simp] theorem tops_mediaAdded (st : SfuShard S) (sid : SessionId) (pid : ParticipantId)
    (mid : Mid) (kind : MediaKind) : (st.mediaAdded sid pid mid kind).tops = st.tops := by
  unfold mediaAdded
  split
  · rfl
  · rename_i s hs
    exact tops_setSession hs rfl

/-- **An event of a transport** keeps the selections, wherever it panics. -/
theorem keepsTops_handleEvent (poison : S.Rtc → S.Rtc) (panicAt : Option ℕ) (st : SfuShard S)
    (now : Instant) (sid : SessionId) (pid : ParticipantId) (e : Event) :
    KeepsTops st (handleEventPanics poison panicAt st now sid pid e) := by
  cases e with
  | rtpPacket pkt =>
    dsimp only [handleEventPanics]
    split
    · exact rfl
    · refine keepsTops_atCall rfl fun m => ?_
      split
      · exact rfl
      · split
        · exact keepsTops_forwardRtp poison m st sid pid _ pkt
        · exact rfl
  | keyframeRequest mid =>
    dsimp only [handleEventPanics]
    split
    · exact rfl
    · rename_i s hs
      split
      · exact rfl
      · rename_i t _
        have hasked := tops_setSession hs
          (topAudio_requestKeyframeThrottled s now t.origin t.originMid)
        split
        · exact keepsTops_atCall rfl fun m => hasked
        · exact hasked
  | iceConnectionStateChange state =>
    dsimp only [handleEventPanics, handleEvent]
    split
    · exact rfl
    · exact tops_setParticipant _ _ _ _
  | mediaAdded mid kind => exact tops_mediaAdded st sid pid mid kind
  | egressBitrateEstimate kind =>
    dsimp only [handleEventPanics, handleEvent]
    split
    · exact tops_setParticipant _ _ _ _
    · exact tops_setParticipant _ _ _ _
    · exact rfl
  | other => exact rfl

/-- **A turn**, whether it returns or is unwound. -/
theorem tops_pollCaught (poison : S.Rtc → S.Rtc) (panicAt : Option ℕ) (now : Instant)
    (sid : SessionId) (pid : ParticipantId) (st : SfuShard S) :
    (pollCaught poison panicAt now sid pid st).tops = st.tops := by
  have hturn : KeepsTops st (pollTurnPanics poison panicAt now sid pid st) := by
    unfold pollTurnPanics
    split
    · exact rfl
    · refine keepsTops_atCall rfl fun m => ?_
      split
      · exact rfl
      · refine keepsTops_atCall rfl fun m => ?_
        split
        · exact tops_setParticipant _ _ _ _
        · exact (keepsTops_handleEvent _ _ _ _ _ _ _).imp fun st' h =>
            h.trans (tops_setParticipant _ _ _ _)
        · exact tops_setParticipant _ _ _ _
        · exact keepsTops_atCall (tops_setParticipant _ _ _ _) fun m => tops_setParticipant _ _ _ _
  unfold pollCaught
  split
  · rename_i st' m h
    rw [h] at hturn
    exact hturn
  · rename_i st' h
    rw [h] at hturn
    have hturn : st'.tops = st.tops := hturn
    rw [← hturn]
    unfold markDead
    split <;> simp

/-! ### Commands and ticks -/

/-- An offer of a client keeps the selections. -/
@[simp] theorem tops_handleClientOffer (st : SfuShard S) (sid : SessionId) (pid : ParticipantId)
    (sdpOffer : String) : (st.handleClientOffer sid pid sdpOffer).1.tops = st.tops := by
  refine handleClientOffer_cases rfl ?_ ?_ ?_ <;> simp

/-- A queued offer keeps the selections. -/
@[simp] theorem tops_drainQueuedOffer (st : SfuShard S) (sid : SessionId) (pid : ParticipantId) :
    (st.drainQueuedOffer sid pid).tops = st.tops := by
  unfold drainQueuedOffer
  split
  · rfl
  · split <;> simp

/-- Opening the tracks of an answer leaves the selection of the session. -/
theorem topAudio_openTracks (s : SfuSession S) (now : Instant) (pid : ParticipantId)
    (p : SfuParticipant S) (rtc : S.Rtc) :
    (openTracks s now pid p rtc).topAudioPublishers = s.topAudioPublishers := by
  have hfold (l : List TrackKey) (s : SfuSession S) :
      (l.foldl (fun s k => (s.requestKeyframeThrottled now k.1 k.2).1) s).topAudioPublishers =
        s.topAudioPublishers := by
    induction l generalizing s with
    | nil => rfl
    | cons k l ih => rw [List.foldl_cons, ih, topAudio_requestKeyframeThrottled]
  exact hfold _ _

/-- An answer of a client keeps the selections. -/
@[simp] theorem tops_handleAnswer (st : SfuShard S) (now : Instant) (sid : SessionId)
    (pid : ParticipantId) (sdpAnswer : String) :
    (st.handleAnswer now sid pid sdpAnswer).1.tops = st.tops := by
  unfold handleAnswer
  split
  · rfl
  · rename_i s hs
    split
    · rfl
    · split
      · rfl
      · dsimp only
        rw [tops_drainQueuedOffer]
        split
        · rfl
        · split
          · simp
          · exact tops_setSession hs (topAudio_openTracks s now pid _ _)

/-- Lines that are made inactive keep the selections. -/
@[simp] theorem tops_deactivate (sid : SessionId) (st : SfuShard S)
    (entry : ParticipantId × List Mid) : (deactivate sid st entry).tops = st.tops := by
  refine deactivate_cases rfl ?_ ?_ ?_ <;> simp

/-- A negotiation keeps the selections. -/
@[simp] theorem tops_negotiateOne (st : SfuShard S) (e : SessionId × ParticipantId) :
    (negotiateOne st e).tops = st.tops := by
  refine negotiateOne_cases rfl (fun _ => rfl) ?_ ?_ ?_ <;> simp

/-- What keeps the selections keeps them along a list. -/
theorem tops_foldl {α : Type*} {f : SfuShard S → α → SfuShard S}
    (h : ∀ st a, (f st a).tops = st.tops) (l : List α) (st : SfuShard S) :
    (l.foldl f st).tops = st.tops := by
  induction l generalizing st with
  | nil => rfl
  | cons a l ih => rw [List.foldl_cons, ih, h]

/-- A leave keeps the set of a session, or ends the session. -/
theorem tops_handleLeave (st : SfuShard S) (sid' : SessionId) (pid : ParticipantId)
    (sid : SessionId) : (st.handleLeave sid' pid).1.tops sid = st.tops sid ∨
      (st.handleLeave sid' pid).1.tops sid = none := by
  rcases handleLeave_cases st sid' pid with ⟨-, heq⟩ | ⟨s, st₁, hs, hst₁, hend⟩
  · rw [heq]
    exact .inl rfl
  · have hstart : (st.leaveStart sid' pid s).tops = st.tops := tops_setSession hs rfl
    have hloop : st₁.tops = st.tops := by
      rw [hst₁, tops_foldl (tops_deactivate sid'), hstart]
    rcases hend with ⟨s₁, -, -, heq⟩ | ⟨heq, -⟩
    · rw [heq]
      have herase : tops { st₁ with sessions := st₁.sessions.erase sid' } sid =
          if sid = sid' then none else st₁.tops sid := by
        have hlook : session? { st₁ with sessions := st₁.sessions.erase sid' } sid =
            if sid = sid' then none else st₁.session? sid := Dict.lookup_erase_eq _ _ _
        rw [tops, tops, hlook]
        split_ifs <;> rfl
      by_cases hsid : sid = sid'
      · exact .inr (herase.trans (if_pos hsid))
      · refine .inl (herase.trans ?_)
        rw [if_neg hsid, hloop]
    · rw [heq, hloop]
      exact .inl rfl

/-- A join that finds an earlier participant keeps the selections, but for a session that goes. -/
theorem tops_kickPrior (st : SfuShard S) (sid' : SessionId) (pid : ParticipantId)
    (sid : SessionId) : (st.kickPrior sid' pid).tops sid = st.tops sid ∨
      (st.kickPrior sid' pid).tops sid = none := by
  unfold kickPrior
  split
  · exact .inl rfl
  · exact tops_handleLeave _ sid' pid sid

/-- The session of an admission starts with the empty set if it is new. -/
theorem tops_addParticipant (st : SfuShard S) (sid' : SessionId) (pid : ParticipantId)
    (userId : String) (tx : WsTx) (rtc : S.Rtc) (answer : S.SdpAnswer) (creds : IceCreds)
    (now : Instant) (sid : SessionId) :
    (st.addParticipant sid' pid userId tx rtc answer creds now).tops sid =
      if sid = sid' then some ((st.tops sid).getD ∅) else st.tops sid := by
  rw [tops, session?_addParticipant, tops]
  split_ifs with hsid
  · rw [hsid, Option.map_some]
    cases st.session? sid' <;> rfl
  · rfl

/-- **A join** keeps the set of a session that outlives the prior participant. -/
theorem tops_handleJoin (st : SfuShard S) (creds : IceCreds) (now : Instant) (sid' : SessionId)
    (pid : ParticipantId) (userId sdpOffer : String) (replyTx : WsTx) (sid : SessionId)
    {top : KeySet TrackKey}
    (h : (st.handleJoin creds now sid' pid userId sdpOffer replyTx).1.tops sid = some top) :
    st.tops sid = some top ∧ ¬(sid = sid' ∧ ((st.kickPrior sid' pid).session? sid').isNone) ∨
      (sid = sid' ∧ ((st.kickPrior sid' pid).session? sid').isNone) ∧ top = ∅ := by
  have hkick := tops_kickPrior st sid' pid sid
  unfold handleJoin at h
  generalize st.kickPrior sid' pid = st₁ at hkick h ⊢
  -- what is there after the kick is what was there
  have hkept : st₁.tops sid = some top →
      st.tops sid = some top ∧ ¬(sid = sid' ∧ (st₁.session? sid').isNone) := by
    intro htop
    refine ⟨?_, ?_⟩
    · rcases hkick with hsame | hnone
      · exact hsame.symm.trans htop
      · rw [hnone] at htop
        cases htop
    · rintro ⟨rfl, hnone⟩
      rw [tops, Option.isNone_iff_eq_none.mp hnone] at htop
      cases htop
  dsimp only at h
  split at h
  · exact .inl (hkept h)
  · split at h
    · exact .inl (hkept h)
    · rw [tops_addParticipant] at h
      split_ifs at h with hsid
      · subst hsid
        rcases hst : st₁.session? sid with _ | s
        · rw [tops, hst] at h
          exact .inr ⟨⟨rfl, rfl⟩, (Option.some_inj.mp h).symm⟩
        · have htop : st₁.tops sid = some top := by
            rw [tops, hst, Option.map_some] at h ⊢
            exact h
          rw [← hst]
          exact .inl (hkept htop)
      · exact .inl (hkept h)

/-- **Timeouts** select anew in every session, and nothing else selects. -/
theorem tops_timeouts (st : SfuShard S) (now : Instant) (sid : SessionId) :
    (st.timeouts now).tops sid = (st.session? sid).map fun s => pickTopAudio s.audioTracks := by
  rw [tops, show (st.timeouts now).session? sid = _ from Dict.lookup_mapVals _ st.sessions sid,
    Option.map_map]
  rfl

/-- **A tick** computes the set of every session that it does not end. -/
theorem tops_tick (st : SfuShard S) (now : Instant) (sid : SessionId) :
    (st.tick now).tops sid = (st.session? sid).map (fun s => pickTopAudio s.audioTracks) ∨
      (st.tick now).tops sid = none := by
  rw [← tops_timeouts st now]
  unfold tick
  generalize (st.timeouts now).zombies now = l
  generalize st.timeouts now = st₁
  induction l generalizing st₁ with
  | nil => exact .inl rfl
  | cons e l ih =>
    rw [List.foldl_cons]
    rcases ih (st₁.handleLeave e.1 e.2).1 with hsame | hnone
    · rw [hsame]
      exact tops_handleLeave st₁ e.1 e.2 sid
    · exact .inr hnone

end SfuShard

/-! ### Runs -/

/-- A run of the shard with what every session counted on its last tick: nothing if there was
none since the session began. -/
structure Counting (S : Str0m) where
  shard : SfuShard S
  counted : SessionId → List (ℚ × TrackKey)

namespace Counting

open SfuShard (Piece)

/-- What is counted after a step. -/
def countedAfter (w : Counting S) (i : Piece S) (sid : SessionId) : List (ℚ × TrackKey) :=
  match i with
  | .tick _ => ((w.shard.session? sid).map SfuSession.audioTracks).getD []
  | .command (.join sid' pid _ _ _) _ _ =>
    if sid = sid' ∧ ((w.shard.kickPrior sid' pid).session? sid').isNone then [] else w.counted sid
  | _ => w.counted sid

/-- The sets are what `pick_top_audio` made of what was counted. -/
def Kept (w : Counting S) : Prop :=
  ∀ sid top, w.shard.tops sid = some top → ∀ k, (top.lookup k).isSome ↔ Chosen (w.counted sid) k

end Counting

/-- The steps of the shard, taken apart, with what the sessions have counted. -/
def counting (leaves : S.Rtc → S.Rtc → Prop) : System (Counting S) (SfuShard.Piece S) where
  init w := (SfuShard.system S).init w.shard ∧ ∀ sid, w.counted sid = []
  step w i w' := SfuShard.PieceStep leaves w.shard i w'.shard ∧ w'.counted = w.countedAfter i

namespace Counting

variable {w w' : Counting S} {i : SfuShard.Piece S}

/-- Nobody is chosen from nobody. -/
theorem not_chosen_nil (k : TrackKey) : ¬ Chosen [] k := by
  have hlen : ([] : List (ℚ × TrackKey)).length ≤ audioTopK := Nat.zero_le _
  rw [Chosen, if_pos hlen]
  exact List.not_mem_nil

/-- What a step leaves alone is kept. -/
theorem Kept.same (h : w.Kept) (hcounted : ∀ sid, w'.counted sid = w.counted sid)
    (htops : w'.shard.tops = w.shard.tops) : w'.Kept := by
  intro sid top htop
  rw [hcounted]
  exact h sid top (htops ▸ htop)

/-- **The step lemma.** -/
theorem Kept.step (h : w.Kept) (hstep : (counting leaves).step w i w') : w'.Kept := by
  obtain ⟨st, counted⟩ := w
  obtain ⟨st', counted'⟩ := w'
  obtain ⟨hpiece, hcounted⟩ := hstep
  dsimp only at hpiece hcounted
  subst hcounted
  cases hpiece with
  | rehash hr =>
    intro sid top htop k
    obtain ⟨s', hs', rfl⟩ := Option.map_eq_some_iff.mp htop
    have hrel := hr.sessions sid
    rw [show st'.session? sid = some s' from hs'] at hrel
    obtain ⟨s, hs, hreordered⟩ := hrel.some_right
    rw [AList.perm_lookup hreordered.topAudioPublishers.symm]
    exact h sid s.topAudioPublishers (by rw [SfuShard.tops, hs]; rfl) k
  | perform hi =>
    cases i with
    | command cmd creds now =>
      cases cmd with
      | join sid' pid userId sdpOffer replyTx =>
        intro sid top htop k
        dsimp only [countedAfter]
        rcases SfuShard.tops_handleJoin st creds now sid' pid userId sdpOffer replyTx sid htop with
          ⟨hsame, hold⟩ | ⟨hnew, rfl⟩
        · rw [if_neg hold]
          exact h sid top hsame k
        · -- a session that begins has counted nothing
          rw [if_pos hnew]
          exact iff_of_false nofun (not_chosen_nil k)
      | answer sid' pid sdpAnswer =>
        exact h.same (fun _ => rfl) (SfuShard.tops_handleAnswer st now sid' pid sdpAnswer)
      | iceCandidate sid' pid candidate mid =>
        refine h.same (fun _ => rfl) ?_
        dsimp only [SfuShard.perform, SfuShard.handleCommand, SfuShard.handleIceCandidate]
        split
        · rfl
        · split
          · rfl
          · exact SfuShard.tops_setParticipant _ _ _ _
      | leave sid' pid =>
        intro sid top htop
        rcases SfuShard.tops_handleLeave st sid' pid sid with hsame | hnone
        · exact h sid top (hsame.symm.trans htop)
        · exact absurd (hnone.symm.trans htop) (by simp)
      | publishTrack sid' pid source kind =>
        refine h.same (fun _ => rfl) ?_
        dsimp only [SfuShard.perform, SfuShard.handleCommand, SfuShard.handlePublishTrack]
        split
        · rfl
        · exact SfuShard.tops_setParticipant _ _ _ _
      | clientOffer sid' pid sdpOffer =>
        exact h.same (fun _ => rfl) (SfuShard.tops_handleClientOffer st sid' pid sdpOffer)
      | udpInput sid' pid source data =>
        refine h.same (fun _ => rfl) ?_
        dsimp only [SfuShard.perform, SfuShard.handleCommand, SfuShard.handleUdpInput]
        split
        · rfl
        · split
          · rfl
          · split
            · rfl
            · split <;> exact SfuShard.tops_setParticipant _ _ _ _
    | turn sid' pid now =>
      refine h.same (fun _ => rfl) ?_
      have hturn := SfuShard.tops_pollCaught id none now sid' pid st
      rwa [SfuShard.pollCaught_none] at hturn
    | panic sid' pid now calls poison =>
      exact h.same (fun _ => rfl) (SfuShard.tops_pollCaught poison (some calls) now sid' pid st)
    | tick now =>
      intro sid top htop k
      rcases SfuShard.tops_tick st now sid with hcomputed | hnone
      · obtain ⟨s, hs, rfl⟩ := Option.map_eq_some_iff.mp (hcomputed.symm.trans htop)
        dsimp only [countedAfter]
        rw [hs]
        exact mem_pickTopAudio s.audioTracks k
      · exact absurd (hnone.symm.trans htop) (by simp)
    | flush e => exact h.same (fun _ => rfl) rfl
    | negotiate =>
      refine h.same (fun _ => rfl) ?_
      exact (SfuShard.tops_foldl SfuShard.tops_negotiateOne _ _).trans rfl
    | drain tx n => exact h.same (fun _ => rfl) rfl
    | close tx => exact h.same (fun _ => rfl) rfl
    | rehash => exact h.same (fun _ => rfl) rfl

/-- To count does not hinder the shard. -/
theorem exists_counting {st : SfuShard S} (h : (SfuShard.pieces leaves).Reachable st) :
    ∃ w, (counting leaves).Reachable w ∧ w.shard = st := by
  refine h.simulate (R := fun st (w : Counting S) => w.shard = st) (fun st hinit => ?_)
    fun st i st' w hw hstep => ?_
  · exact ⟨⟨st, fun _ => []⟩, ⟨hinit, fun _ => rfl⟩, rfl⟩
  · exact ⟨i, ⟨st', w.countedAfter i⟩, ⟨hw ▸ hstep, rfl⟩, rfl⟩

/-- **The run lemma.** -/
theorem kept (hw : (counting leaves).Reachable w) : w.Kept := by
  refine hw.invariant ?_ fun w i w' h _ hstep => h.step hstep
  rintro w ⟨⟨_, _, _, hnew⟩, -⟩ sid top htop
  rw [hnew] at htop
  cases htop

end Counting

/-! ### Packets at the filter -/

namespace SfuShard

variable {st st' : SfuShard S} {sid : SessionId} {pid : ParticipantId} {mid : Mid}
  {pkt : RtpPacket}

/-- The packet that a turn of `poll_participant` brings to `forward_rtp`, and the shard then. -/
def nextPacket (st : SfuShard S) (sid : SessionId) (pid : ParticipantId) :
    Option (SfuShard S × Mid × RtpPacket) :=
  match st.participant? sid pid with
  | none => none
  | some p =>
    if !S.isAlive p.rtc then none
    else
      match S.pollOutput p.rtc with
      | (rtc, .ok (.event (.rtpPacket pkt))) =>
        match S.streamRx rtc pkt.ssrc with
        | none => none
        | some (mid, rid) =>
          if rid.all (· = "h") then some (st.setParticipant sid pid { p with rtc := rtc }, mid, pkt)
          else none
      | _ => none

/-- An audio packet of a known track that comes as far as the filter of `forward_rtp`. -/
def audioAtFilter (st : SfuShard S) (sid : SessionId) (pid : ParticipantId) (mid : Mid)
    (pkt : RtpPacket) : Bool :=
  (st.participant? sid pid).any fun p =>
    ((p.tracksIn.find? fun t => t.mid = mid).any fun t => t.kind = .audio) &&
      (S.findPayload p.rtc pkt.payloadType).any fun pp => !S.isRtx pp

/-- The filter drops the packet: its publisher is not one of the loudest. -/
def filtered (st : SfuShard S) (sid : SessionId) (pid : ParticipantId) (mid : Mid)
    (pkt : RtpPacket) : Bool :=
  st.audioAtFilter sid pid mid pkt && (st.tops sid).all fun top => (top.lookup (pid, mid)).isNone

/-- How many audio tracks are published in a session. -/
def audioCount (st : SfuShard S) (sid : SessionId) : ℕ :=
  ((st.session? sid).map fun s => s.audioTracks.length).getD 0

/-- The turn hands the packet to `forward_rtp`. -/
theorem turn_of_nextPacket (now : Instant) (h : st.nextPacket sid pid = some (st', mid, pkt)) :
    pollParticipant now sid pid 1 st = st'.forwardRtp sid pid mid pkt := by
  unfold nextPacket at h
  split at h
  · cases h
  · rename_i p hp
    split at h
    · cases h
    · rename_i halive
      split at h
      · rename_i rtc pkt' hout
        split at h
        · cases h
        · rename_i mid' rid hrx
          split at h
          · rename_i hrid
            obtain ⟨rfl, rfl, rfl⟩ : _ ∧ _ ∧ _ := by simpa using h
            have hp' : (st.setParticipant sid pid { p with rtc := rtc }).participant? sid pid =
                some { p with rtc := rtc } := by
              rw [participant?_setParticipant hp, if_pos ⟨rfl, rfl⟩]
            simp only [pollParticipant, hp, halive, hout, handleEvent, hp', Option.bind_some, hrx,
              hrid, if_true, if_false, Bool.false_eq_true]
          · cases h
      · cases h

/-- Taking a packet from a transport keeps the selections. -/
theorem tops_of_nextPacket (h : st.nextPacket sid pid = some (st', mid, pkt)) :
    st'.tops = st.tops := by
  unfold nextPacket at h
  split at h
  · cases h
  · split at h
    · cases h
    · split at h
      · split at h
        · cases h
        · split at h
          · obtain ⟨rfl, -, -⟩ : _ ∧ _ ∧ _ := by simpa using h
            exact tops_setParticipant _ _ _ _
          · cases h
      · cases h

/-- **What becomes of an audio packet at the filter**: it has been heard, and goes no further
if it is dropped. -/
theorem forwardRtp_audio (h : st.audioAtFilter sid pid mid pkt = true) : ∃ p pp,
    st.participant? sid pid = some p ∧
    st.forwardRtp sid pid mid pkt =
      if st.filtered sid pid mid pkt then st.setParticipant sid pid (hearPacket p mid pkt)
      else (st.setParticipant sid pid (hearPacket p mid pkt)).forwardToAll sid (pid, mid)
        (forwardTo sid pkt .audio pp) := by
  have hfilter := h
  obtain ⟨p, hp, h⟩ := (Option.any_eq_true _ _).mp h
  obtain ⟨htrack, hpayload⟩ := Bool.and_eq_true_iff.mp h
  obtain ⟨t, ht, hkind⟩ := (Option.any_eq_true _ _).mp htrack
  obtain ⟨pp, hpp, hrtx⟩ := (Option.any_eq_true _ _).mp hpayload
  obtain ⟨s, hs, hlook⟩ := participant?_eq_some.mp hp
  have hkind : t.kind = .audio := of_decide_eq_true hkind
  have hrtx : S.isRtx pp = false := by simpa using hrtx
  refine ⟨p, pp, hp, ?_⟩
  rw [filtered, hfilter, tops, hs, Option.map_some, Option.all_some, Bool.true_and]
  simp only [forwardRtp, hs, hlook, ht, hpp, hrtx, hkind, true_and, Bool.false_eq_true, if_false]

end SfuShard

/-- **Who is heard in a small session**: while no more than `AUDIO_TOP_K` audio tracks are
published, no packet of a track is dropped by the filter if and only if the last tick has chosen
the track – one that was there, among no more than `AUDIO_TOP_K` or among the loudest. -/
theorem small_session_heard_iff {w : Counting S} (hw : (counting leaves).Reachable w)
    {sid : SessionId} {pid : ParticipantId} {st : SfuShard S} {mid : Mid} {pkt : RtpPacket}
    (hpkt : w.shard.nextPacket sid pid = some (st, mid, pkt)) :
    (st.filtered sid pid mid pkt → audioTopK < st.audioCount sid) ↔
      (st.audioAtFilter sid pid mid pkt → st.audioCount sid ≤ audioTopK →
        Chosen (w.counted sid) (pid, mid)) := by
  have hfiltered : st.audioAtFilter sid pid mid pkt = true →
      (st.filtered sid pid mid pkt = true ↔ ¬ Chosen (w.counted sid) (pid, mid)) := by
    intro hat
    obtain ⟨p, hp, -⟩ := (Option.any_eq_true _ _).mp hat
    obtain ⟨s, hs, -⟩ := SfuShard.participant?_eq_some.mp hp
    have htop : st.tops sid = some s.topAudioPublishers := by rw [SfuShard.tops, hs]; rfl
    have hkept := Counting.kept hw sid _ (SfuShard.tops_of_nextPacket hpkt ▸ htop) (pid, mid)
    rw [SfuShard.filtered, hat, htop, Option.all_some, Bool.true_and, ← hkept]
    simp
  constructor
  · intro h hat hfew
    by_contra hnot
    have hmore := h ((hfiltered hat).mpr hnot)
    omega
  · intro h hdropped
    by_contra hfew
    obtain ⟨hat, -⟩ := Bool.and_eq_true_iff.mp hdropped
    exact (hfiltered hat).mp hdropped (h hat (by omega))

namespace Counting

/-- The state after a step that the shard performs. -/
def next (w : Counting S) (i : SfuShard.Piece S) : Counting S where
  shard := w.shard.perform i
  counted := w.countedAfter i

/-- What `next` makes is a step. -/
theorem step_next {w : Counting S} {i : SfuShard.Piece S} (hi : w.shard.Happens leaves i) :
    (counting leaves).step w i (w.next i) :=
  ⟨.perform w.shard hi, rfl⟩

/-- Participant 1 joins with a microphone, and is polled once. -/
def newcomer : Counting delivering :=
  next (next ⟨.new 0 [(1, 2)] 12000, fun _ => []⟩
    (.command (.join 7 1 "alice" "a" 11) ⟨"ua", "pa"⟩ 0)) (.turn 7 1 0)

/-- The session with a newcomer can be reached. -/
theorem reachable_newcomer : (counting (S := delivering) Eq).Reachable newcomer := by
  have hjoined : (counting (S := delivering) Eq).Reachable
      (next ⟨.new 0 [(1, 2)] 12000, fun _ => []⟩
        (.command (.join 7 1 "alice" "a" 11) ⟨"ua", "pa"⟩ 0)) :=
    .step (.start ⟨⟨0, [(1, 2)], 12000, rfl⟩, fun _ => rfl⟩) trivial (step_next trivial)
  exact .step hjoined trivial (step_next (i := .turn 7 1 0) trivial)

end Counting

open Counting in
/-- After a tick the newcomer is heard: there are fewer publishers than places. -/
theorem small_session_heard_ticked : ∃ st mid pkt,
    (newcomer.next (.tick 20)).shard.nextPacket 7 1 = some (st, mid, pkt) ∧
    st.audioAtFilter 7 1 mid pkt = true ∧
    (st.filtered 7 1 mid pkt = true → audioTopK < st.audioCount 7) := by
  have hpkt := Option.some_get
    (show ((newcomer.next (.tick 20)).shard.nextPacket 7 1).isSome from by decide +kernel)
  have hreach : (counting (S := delivering) Eq).Reachable (newcomer.next (.tick 20)) :=
    .step reachable_newcomer trivial (step_next (w := newcomer) (i := .tick 20) trivial)
  refine ⟨_, _, _, hpkt.symm, by decide +kernel, ?_⟩
  exact (small_session_heard_iff hreach hpkt.symm).mpr fun _ _ => by decide +kernel

open Counting in
/-- **A newcomer is silenced** until the next tick, and be it alone. -/
theorem newcomer_silenced : (counting (S := delivering) Eq).Reachable newcomer ∧
    ∃ st mid pkt, newcomer.shard.nextPacket 7 1 = some (st, mid, pkt) ∧
      st.filtered 7 1 mid pkt = true ∧ st.audioCount 7 = 1 := by
  have hpkt := Option.some_get
    (show (newcomer.shard.nextPacket 7 1).isSome from by decide +kernel)
  exact ⟨reachable_newcomer, _, _, _, hpkt.symm, by decide +kernel, by decide +kernel⟩

end Video

end MateHub
