import MateHub.Video.Sfu.Frame

/-!
# What a step of the shard can do

Every step of the event loop is a sequence of *moves*, each of which either leaves
the frame alone or does one of a few named things to the sessions: a participant
leaves, is admitted, announces a track, is sent an offer, has its answer accepted
or refused. `MateHub.Video.SfuShard.Move` lists them, with all they say about the
state before and after, and `MateHub.Video.SfuShard.moves_of_step` says which of
them the step under a given input may contain.

An invariant of the shard is then proved once per move instead of once per path
through the handlers.
-/

namespace MateHub

namespace Video

/-- What a move does to the sessions. -/
inductive Effect
  | framed
  | announced (sid : SessionId) (pid : ParticipantId)
  | left (sid : SessionId) (pid : ParticipantId)
  | deactivated (sid : SessionId) (pid : ParticipantId)
  | closed (sid : SessionId)
  | admitted (sid : SessionId) (pid : ParticipantId) (tx : WsTx)
  | opened (sid : SessionId) (pid : ParticipantId)
  /-- An answer is refused; the flag says whether tracks were waiting for it. -/
  | refused (sid : SessionId) (pid : ParticipantId) (stranding : Bool)
  | taken
  | offered (sid : SessionId) (pid : ParticipantId)
  /-- Media was added to a change that then gave no offer. -/
  | unsent (sid : SessionId) (pid : ParticipantId)

namespace SfuShard

variable {S : Str0m}

/-- Whether some track waits for the answer to its offer. -/
def hasNegotiating (p : SfuParticipant S) : Bool :=
  p.tracksOut.any fun t => match t.state with
    | .negotiating _ => true
    | _ => false

/-- The session loses a participant. -/
def leaveMove (st : SfuShard S) (sid : SessionId) (pid : ParticipantId) : SfuShard S :=
  { st with
    sessions := st.sessions.modify sid fun s => dropParticipant s pid
    pendingNegotiation := st.pendingNegotiation.erase (sid, pid) }

/-- **The moves of a shard.** -/
inductive Move : Effect → SfuShard S → SfuShard S → Prop
  | framed {st st' : SfuShard S} : st.Frame st' → Move .framed st st'
  | announced {st : SfuShard S} {sid : SessionId} {pid : ParticipantId} {p : SfuParticipant S}
      {rtc : S.Rtc} {mid : Mid} {kind : MediaKind} : st.participant? sid pid = some p →
      S.pollOutput p.rtc = (rtc, .ok (.event (.mediaAdded mid kind))) →
      Move (.announced sid pid) st
        ((st.setParticipant sid pid { p with rtc := rtc }).mediaAdded sid pid mid kind)
  | left (st : SfuShard S) (sid : SessionId) (pid : ParticipantId) :
      Move (.left sid pid) st (st.leaveMove sid pid)
  | deactivated {st : SfuShard S} {sid : SessionId} {pid : ParticipantId} {p : SfuParticipant S}
      {rtc : S.Rtc} (pending : S.SdpPendingOffer) : st.participant? sid pid = some p →
      p.pendingOffer = none → S.Evolves p.rtc rtc →
      Move (.deactivated sid pid) st
        (st.setParticipant sid pid { p with rtc := rtc, pendingOffer := some pending })
  | closed {st : SfuShard S} {sid : SessionId} {s : SfuSession S} : st.session? sid = some s →
      s.participants.isEmpty = true →
      Move (.closed sid) st { st with sessions := st.sessions.erase sid }
  | admitted {st : SfuShard S} {sid : SessionId} {pid : ParticipantId} (userId : String)
      (tx : WsTx) (rtc : S.Rtc) (answer : S.SdpAnswer) (creds : IceCreds) (now : Instant) :
      st.participant? sid pid = none →
      Move (.admitted sid pid tx) st (st.addParticipant sid pid userId tx rtc answer creds now)
  | opened {st : SfuShard S} {sid : SessionId} {pid : ParticipantId} {s : SfuSession S}
      {p : SfuParticipant S} {pending : S.SdpPendingOffer} {answer : S.SdpAnswer} {rtc : S.Rtc} :
      st.session? sid = some s → s.participants.lookup pid = some p →
      p.pendingOffer = some pending → S.acceptAnswer (S.sdpApi p.rtc) pending answer = (rtc, .ok ()) →
      Move (.opened sid pid) st (st.setSession sid (registerTracks s pid p rtc))
  | refused {st : SfuShard S} {sid : SessionId} {pid : ParticipantId} {p : SfuParticipant S}
      {pending : S.SdpPendingOffer} {answer : S.SdpAnswer} {rtc : S.Rtc} {e : String} :
      st.participant? sid pid = some p → p.pendingOffer = some pending →
      S.acceptAnswer (S.sdpApi p.rtc) pending answer = (rtc, .error e) →
      Move (.refused sid pid (hasNegotiating p)) st
        (st.setParticipant sid pid { p with rtc := rtc, pendingOffer := none })
  | taken (st : SfuShard S) : Move .taken st { st with pendingNegotiation := ∅ }
  | offered {st : SfuShard S} {sid : SessionId} {pid : ParticipantId} {p : SfuParticipant S}
      {rtc : S.Rtc} {offer : S.SdpOffer} {pending : S.SdpPendingOffer} :
      st.participant? sid pid = some p → p.pendingOffer = none →
      S.apply (stageTracks (S.sdpApi p.rtc) p.tracksOut).1 = (rtc, some (offer, pending)) →
      Move (.offered sid pid) st (st.setParticipant sid pid
        { p with
          rtc := rtc
          tracksOut := (stageTracks (S.sdpApi p.rtc) p.tracksOut).2
          pendingOffer := some pending })
  | unsent {st : SfuShard S} {sid : SessionId} {pid : ParticipantId} {p : SfuParticipant S}
      {rtc : S.Rtc} : st.participant? sid pid = some p → p.pendingOffer = none →
      hasToOpen p = true →
      S.apply (stageTracks (S.sdpApi p.rtc) p.tracksOut).1 = (rtc, none) →
      Move (.unsent sid pid) st (st.setParticipant sid pid
        { p with rtc := rtc, tracksOut := (stageTracks (S.sdpApi p.rtc) p.tracksOut).2 })

/-- A sequence of moves with effects in a set. -/
def Moves (E : Effect → Prop) : SfuShard S → SfuShard S → Prop :=
  Relation.ReflTransGen fun st st' => ∃ e, E e ∧ Move e st st'

namespace Moves

variable {E : Effect → Prop} {st st' : SfuShard S}

theorem refl (st : SfuShard S) : Moves E st st := Relation.ReflTransGen.refl

theorem trans {st'' : SfuShard S} (h : Moves E st st') (h' : Moves E st' st'') :
    Moves E st st'' :=
  Relation.ReflTransGen.trans h h'

theorem one {e : Effect} (he : E e) (h : Move e st st') : Moves E st st' :=
  Relation.ReflTransGen.single ⟨e, he, h⟩

theorem frame (hE : E .framed) (h : st.Frame st') : Moves E st st' := one hE (.framed h)

/-- What every move keeps is kept. -/
theorem invariant {I : SfuShard S → Prop} (h : Moves E st st')
    (hI : ∀ e st st', E e → Move e st st' → I st → I st') (h₀ : I st) : I st' := by
  induction h with
  | refl => exact h₀
  | tail _ hm ih =>
    obtain ⟨e, he, hm⟩ := hm
    exact hI e _ _ he hm ih

/-- A loop of moves. -/
theorem foldl {α : Type*} {f : SfuShard S → α → SfuShard S} {l : List α}
    (h : ∀ st, ∀ a ∈ l, Moves E st (f st a)) (st : SfuShard S) : Moves E st (l.foldl f st) :=
  List.foldlRecOn l f (refl st) fun _ ih a ha => ih.trans (h _ a ha)

end Moves

/-! ### Polling -/

/-- Whether a new media section is announced. -/
def isMediaAdded : Event → Bool
  | .mediaAdded _ _ => true
  | _ => false

theorem frame_handleEvent (st : SfuShard S) (now : Instant) (sid : SessionId) (pid : ParticipantId)
    {e : Event} (he : isMediaAdded e = false) : st.Frame (st.handleEvent now sid pid e) := by
  cases e with
  | mediaAdded mid kind => cases he
  | iceConnectionStateChange state =>
    dsimp only [handleEvent]
    split
    · exact .refl st
    · rename_i p hp
      exact .setParticipant hp ⟨rfl, rfl, rfl, rfl, rfl, .refl⟩
  | rtpPacket pkt =>
    dsimp only [handleEvent]
    split
    · exact .refl st
    · split
      · exact frame_forwardRtp _ _ _ _ _
      · exact .refl st
  | egressBitrateEstimate kind =>
    dsimp only [handleEvent]
    split
    · rename_i hp
      exact .setParticipant hp ⟨rfl, rfl, rfl, rfl, rfl, .refl⟩
    · rename_i hp
      exact .setParticipant hp ⟨rfl, rfl, rfl, rfl, rfl, .refl⟩
    · exact .refl st
  | keyframeRequest mid =>
    dsimp only [handleEvent]
    split
    · exact .refl st
    · rename_i s hs
      split
      · exact .refl st
      · exact .setSession hs (SfuSession.Frame.requestKeyframeThrottled _ _ _ _)
  | other => exact .refl st

/-- **What polls respect**: a relation that can be composed, and that holds of a call into a
transport, of an event that is handled, and of a flush that is taken up. -/
structure RespectsPolls (R : SfuShard S → SfuShard S → Prop) : Prop where
  refl (st : SfuShard S) : R st st
  trans {st st' st'' : SfuShard S} : R st st' → R st' st'' → R st st''
  call {st : SfuShard S} {sid : SessionId} {pid : ParticipantId} {p : SfuParticipant S}
    {rtc : S.Rtc} : st.participant? sid pid = some p → p.Frame { p with rtc := rtc } →
    R st (st.setParticipant sid pid { p with rtc := rtc })
  event {st : SfuShard S} {sid : SessionId} {pid : ParticipantId} {p : SfuParticipant S}
    {rtc : S.Rtc} {e : Event} (now : Instant) : st.participant? sid pid = some p →
    S.pollOutput p.rtc = (rtc, .ok (.event e)) →
    R st ((st.setParticipant sid pid { p with rtc := rtc }).handleEvent now sid pid e)
  flush (st : SfuShard S) (k : SessionId × ParticipantId) :
    R st { st with pendingFlush := st.pendingFlush.erase k }

namespace RespectsPolls

variable {R : SfuShard S → SfuShard S → Prop}

/-- Of what a relation respects, a loop is made. -/
theorem foldl {α : Type*} {f : SfuShard S → α → SfuShard S} (hR : RespectsPolls R)
    (h : ∀ st a, R st (f st a)) (l : List α) (st : SfuShard S) : R st (l.foldl f st) :=
  List.foldlRecOn l f (hR.refl st) fun _ ih a _ => hR.trans ih (h _ a)

/-- **A poll of a participant**, by induction over its turns. -/
theorem pollParticipant (hR : RespectsPolls R) (now : Instant) (sid : SessionId)
    (pid : ParticipantId) (fuel : ℕ) (st : SfuShard S) :
    R st (pollParticipant now sid pid fuel st) := by
  induction fuel generalizing st with
  | zero => exact hR.refl st
  | succ fuel ih =>
    rw [SfuShard.pollParticipant]
    split
    · exact hR.refl st
    · rename_i p hp
      have hcall := Str0m.Call.pollOutput p.rtc
      split
      · exact hR.refl st
      · split
        · rename_i heq
          rw [heq] at hcall
          exact hR.trans (hR.call hp (.call hcall)) (ih _)
        · rename_i heq
          exact hR.trans (hR.event now hp heq) (ih _)
        · rename_i heq
          rw [heq] at hcall
          exact hR.call hp (.call hcall)
        · -- the transport is disconnected after the call
          rename_i heq
          rw [heq] at hcall
          exact hR.call hp ⟨rfl, rfl, rfl, rfl, rfl, .tail (.single hcall) (.disconnect _)⟩

/-- A poll of a session polls its participants, one after the other. -/
theorem pollSession (hR : RespectsPolls R) (now : Instant) (fuel : ℕ) (st : SfuShard S)
    (sid : SessionId) : R st (pollSession now fuel st sid) := by
  rw [SfuShard.pollSession]
  split
  · exact hR.refl st
  · exact hR.foldl (fun st pid => hR.pollParticipant now sid pid fuel st) _ st

/-- A poll of a target is one of a participant, or of a session. -/
theorem pollTarget (hR : RespectsPolls R) (now : Instant) (fuel : ℕ) (st : SfuShard S)
    (target : Option PollTarget) : R st (pollTarget now fuel st target) := by
  rcases target with _ | ⟨sid, pid⟩ | sid
  · exact hR.refl st
  · exact hR.pollParticipant now sid pid fuel st
  · exact hR.pollSession now fuel st sid

/-- A poll of everybody polls the sessions, one after the other. -/
theorem pollAll (hR : RespectsPolls R) (now : Instant) (fuel : ℕ) (st : SfuShard S) :
    R st (pollAll now fuel st) := hR.foldl (hR.pollSession now fuel) _ st

/-- **A flush**, by induction over its rounds. -/
theorem flushPendingWrites (hR : RespectsPolls R) (now : Instant) (pollFuel fuel : ℕ)
    (st : SfuShard S) : R st (flushPendingWrites now pollFuel fuel st) := by
  induction fuel generalizing st with
  | zero => exact hR.refl st
  | succ fuel ih =>
    rw [SfuShard.flushPendingWrites]
    split
    · exact hR.refl st
    · exact hR.trans (hR.trans (hR.flush st _) (hR.pollParticipant now _ _ pollFuel _)) (ih _)

end RespectsPolls

variable {E : Effect → Prop}

/-- Polling announces tracks, and nothing else. -/
theorem moves_polls (hf : E .framed) (ha : ∀ sid pid, E (.announced sid pid)) :
    RespectsPolls (Moves E : SfuShard S → SfuShard S → Prop) where
  refl := .refl
  trans := .trans
  call hp h := .frame hf (.setParticipant hp h)
  event {st sid pid p rtc e} now hp heq := by
    cases he : isMediaAdded e with
    | false =>
      have hcall := Str0m.Call.pollOutput p.rtc
      rw [heq] at hcall
      exact .frame hf ((Frame.setParticipant hp (.call hcall)).trans
        (frame_handleEvent _ now sid pid he))
    | true =>
      cases e with
      | mediaAdded mid kind => exact .one (ha sid pid) (.announced hp heq)
      | _ => cases he
  flush _ _ := .frame hf (.of_eq rfl fun _ he => he)

/-! ### Leaving -/

/-- The edits of a deactivation are staged on the transport. -/
theorem staged_foldl_setDirection {rtc : S.Rtc} (mids : List Mid) {api : S.SdpApi}
    (h : S.Staged rtc api) :
    S.Staged rtc (mids.foldl (fun c mid => S.setDirection c mid .inactive) api) := by
  induction mids generalizing api with
  | nil => exact h
  | cons mid mids ih => exact ih (.setDirection mid .inactive h)

theorem moves_deactivate (hf : E .framed) (hd : ∀ sid pid, E (.deactivated sid pid))
    (sid : SessionId) (st : SfuShard S) (entry : ParticipantId × List Mid) :
    Moves E st (deactivate sid st entry) := by
  have hstaged (p : SfuParticipant S) :
      S.Staged p.rtc (entry.2.foldl (fun c mid => S.setDirection c mid .inactive)
        (S.sdpApi p.rtc)) := staged_foldl_setDirection entry.2 .sdpApi
  refine deactivate_cases (.refl _)
    (fun hp => .frame hf (.setParticipant hp (.call (.dropChange (hstaged _)))))
    (fun {p _} hp heq => ?_) fun {p _ _ pending} hp hpending _ heq => ?_
  · have hcall := Str0m.Call.apply (hstaged p)
    rw [heq] at hcall
    exact .frame hf (.setParticipant hp (.call hcall))
  · have hcall := Str0m.Call.apply (hstaged p)
    rw [heq] at hcall
    exact (Moves.one (hd sid entry.1) (.deactivated pending hp hpending (.single hcall))).trans
      (.frame hf (.wsTrySend _ _ _))

/-- The state in which a leave goes through those who remain. -/
def leaveStart (st : SfuShard S) (sid : SessionId) (pid : ParticipantId) (s : SfuSession S) :
    SfuShard S :=
  setSession
    { st with
      sharedMaps := st.sharedMaps.retain fun t => !(t.sid = sid && t.pid = pid)
      pendingNegotiation := st.pendingNegotiation.erase (sid, pid) }
    sid (dropParticipant s pid)

/-- The two states differ in the routing tables only. -/
theorem frame_leaveStart {st : SfuShard S} {sid : SessionId} {s : SfuSession S}
    (hs : st.session? sid = some s) (pid : ParticipantId) :
    (st.leaveMove sid pid).Frame (st.leaveStart sid pid s) := by
  refine .of_eq ?_ fun _ he => he
  rw [leaveMove, Dict.modify, show st.sessions.lookup sid = some s from hs]
  rfl

/-- A leave removes one participant, and may send offers to the others. -/
theorem moves_leaveMove (hf : E .framed) (hd : ∀ sid pid, E (.deactivated sid pid))
    (hc : ∀ sid, E (.closed sid)) (st : SfuShard S) (sid : SessionId) (pid : ParticipantId) :
    Moves E (st.leaveMove sid pid) (st.handleLeave sid pid).1 := by
  unfold handleLeave
  dsimp only
  split
  · rename_i hs
    refine .frame hf (.of_eq ?_ fun _ he => he)
    rw [leaveMove, Dict.modify, show st.sessions.lookup sid = none from hs]
  · rename_i s hs
    have hs : st.session? sid = some s := hs
    refine (Moves.frame hf (frame_leaveStart hs pid)).trans ?_
    unfold leaveStart
    generalize midsToDeactivate _ pid = entries
    generalize setSession _ sid (dropParticipant s pid) = st₁
    have hloop : Moves E st₁ (entries.foldl (deactivate sid) st₁) :=
      .foldl (fun st e _ => moves_deactivate hf hd sid st e) st₁
    refine hloop.trans ?_
    generalize entries.foldl (deactivate sid) st₁ = st'
    split
    · exact .refl _
    · rename_i s' hs'
      split
      · rename_i hempty
        exact (Moves.one (hc sid) (.closed hs' hempty)).trans
          (.frame hf (.of_eq rfl fun _ he => he))
      · exact .refl _

/-! ### Joining -/

theorem moves_handleLeave (hf : E .framed) (hd : ∀ sid pid, E (.deactivated sid pid))
    (hc : ∀ sid, E (.closed sid)) {sid : SessionId} {pid : ParticipantId} (hl : E (.left sid pid))
    (st : SfuShard S) : Moves E st (st.handleLeave sid pid).1 :=
  (Moves.one hl (.left st sid pid)).trans (moves_leaveMove hf hd hc st sid pid)

/-! ### Who is in a session -/

theorem lookup_dropParticipant (s : SfuSession S) (gone pid : ParticipantId) :
    (dropParticipant s gone).participants.lookup pid =
      if pid = gone then none else (s.participants.lookup pid).map fun p =>
        { p with tracksOut := p.tracksOut.filter fun t => t.origin ≠ gone } := by
  refine (Dict.lookup_mapVals _ (s.participants.erase gone) pid).trans ?_
  rw [Dict.lookup_erase_eq]
  split <;> rfl

theorem lookup_addTrack (s : SfuSession S) (origin : ParticipantId) (mid : Mid) (kind : MediaKind)
    (source : Source) (pid : ParticipantId) :
    (addTrack s origin mid kind source).participants.lookup pid =
      (s.participants.lookup pid).map fun p =>
        if pid = origin then { p with tracksIn := p.tracksIn ++ [⟨mid, kind, source, 64⟩] }
        else if subscribesTo p origin mid then p
        else { p with tracksOut := p.tracksOut ++ [queuedTrack origin mid kind source] } :=
  Dict.lookup_mapVals _ s.participants pid

theorem lookup_registerTracks (s : SfuSession S) (pid : ParticipantId) (p : SfuParticipant S)
    (rtc : S.Rtc) (q : ParticipantId) : (registerTracks s pid p rtc).participants.lookup q =
      if q = pid then some (answeredParticipant p rtc) else s.participants.lookup q :=
  Dict.lookup_insert_eq s.participants pid q _

theorem participant?_setParticipant {st : SfuShard S} {sid : SessionId} {pid : ParticipantId}
    {q : SfuParticipant S} (hq : st.participant? sid pid = some q) (p : SfuParticipant S)
    (sid' : SessionId) (pid' : ParticipantId) :
    (st.setParticipant sid pid p).participant? sid' pid' =
      if sid' = sid ∧ pid' = pid then some p else st.participant? sid' pid' := by
  obtain ⟨s, hs, -⟩ := participant?_eq_some.mp hq
  rw [participant?, session?_setParticipant]
  by_cases hsid : sid' = sid
  · subst hsid
    rw [if_pos rfl, hs, Option.map_some, Option.bind_some,
      show (s.setParticipant pid p).participants = s.participants.insert pid p from rfl,
      Dict.lookup_insert_eq, participant?, hs]
    simp
  · rw [if_neg hsid, if_neg fun h => hsid h.1, participant?]

theorem participant?_leaveMove (st : SfuShard S) (sid sid' : SessionId) (pid pid' : ParticipantId) :
    (st.leaveMove sid pid).participant? sid' pid' =
      if sid' = sid then
        if pid' = pid then none else (st.participant? sid' pid').map fun p =>
          { p with tracksOut := p.tracksOut.filter fun t => t.origin ≠ pid }
      else st.participant? sid' pid' := by
  rw [participant?, show (st.leaveMove sid pid).session? sid' = _ from
    Dict.lookup_modify st.sessions sid sid' _, participant?, session?]
  split
  · cases st.sessions.lookup sid' with
    | none => simp
    | some s => exact lookup_dropParticipant s pid pid'
  · rfl

/-- Staying in a session on the same WebSocket. -/
def SameOwner (p p' : SfuParticipant S) : Prop := p'.id = p.id ∧ p'.wsTx = p.wsTx

theorem SameOwner.refl (p : SfuParticipant S) : SameOwner p p := ⟨rfl, rfl⟩

theorem SameOwner.trans {p p' p'' : SfuParticipant S} (h : SameOwner p p')
    (h' : SameOwner p' p'') : SameOwner p p'' :=
  ⟨h'.1.trans h.1, h'.2.trans h.2⟩

theorem participant?_setSession (st : SfuShard S) (sid : SessionId) (s' : SfuSession S)
    (sid' : SessionId) (pid : ParticipantId) :
    (st.setSession sid s').participant? sid' pid =
      if sid' = sid then s'.participants.lookup pid else st.participant? sid' pid := by
  rw [participant?, session?_setSession, participant?]
  split <;> rfl

theorem participant?_recordTrack (st : SfuShard S) (sid : SessionId) (s : SfuSession S)
    (origin : ParticipantId) (mid : Mid) (kind : MediaKind) (source : Source) (sid' : SessionId)
    (pid : ParticipantId) :
    (st.recordTrack sid s origin mid kind source).participant? sid' pid =
      if sid' = sid then (s.participants.lookup pid).map fun p =>
        if pid = origin then { p with tracksIn := p.tracksIn ++ [⟨mid, kind, source, 64⟩] }
        else if subscribesTo p origin mid then p
        else { p with tracksOut := p.tracksOut ++ [queuedTrack origin mid kind source] }
      else st.participant? sid' pid := by
  rw [← lookup_addTrack]
  exact participant?_setSession st sid (addTrack s origin mid kind source) sid' pid

/-- Staying on the same WebSocket, and with the same offer pending. -/
structure SameOffer (p p' : SfuParticipant S) : Prop where
  owner : SameOwner p p'
  pendingOffer : p'.pendingOffer = p.pendingOffer

theorem SameOffer.refl (p : SfuParticipant S) : SameOffer p p := ⟨⟨rfl, rfl⟩, rfl⟩

/-- A track that is announced changes the lists of tracks. -/
theorem participant?_mediaAdded (st : SfuShard S) (sid : SessionId) (origin : ParticipantId)
    (mid : Mid) (kind : MediaKind) (sid' : SessionId) (pid' : ParticipantId) :
    Option.Rel SameOffer (st.participant? sid' pid')
      ((st.mediaAdded sid origin mid kind).participant? sid' pid') := by
  have hrefl := Option.Rel.refl (R := SameOffer (S := S)) .refl
  unfold mediaAdded
  split
  · exact hrefl _
  · rename_i s hs
    dsimp only
    rw [participant?_recordTrack]
    by_cases hsid : sid' = sid
    · rw [if_pos hsid, hsid, participant?, hs, Option.bind_some]
      have hrel := (frame_popSourceHint s origin kind).participants pid'
      dsimp only at hrel
      cases hp : s.participants.lookup pid' with
      | none =>
        rw [hp] at hrel
        rw [hrel.none_left]
        exact .none
      | some p =>
        rw [hp] at hrel
        obtain ⟨p', hp', hpf⟩ := hrel.some_left
        rw [hp', Option.map_some]
        refine .some ?_
        split
        · exact ⟨⟨hpf.id, hpf.wsTx⟩, hpf.pendingOffer⟩
        · split <;> exact ⟨⟨hpf.id, hpf.wsTx⟩, hpf.pendingOffer⟩
    · rw [if_neg hsid]
      exact hrefl _

theorem session?_addParticipant (st : SfuShard S) (sid : SessionId) (pid : ParticipantId) (userId : String)
    (tx : WsTx) (rtc : S.Rtc) (answer : S.SdpAnswer) (creds : IceCreds) (now : Instant)
    (sid' : SessionId) :
    (st.addParticipant sid pid userId tx rtc answer creds now).session? sid' =
      if sid' = sid then
        some (((st.session? sid).getD (.new sid)).setParticipant pid (newParticipant pid userId rtc tx
          now (existingTracks ((st.session? sid).getD (.new sid)))))
      else st.session? sid' := by
  have h : ∀ st' : SfuShard S, (∀ sid, (if (existingTracks ((st.session? sid).getD (.new sid))).isEmpty
      then st' else { st' with
        pendingNegotiation := st'.pendingNegotiation.insert (sid, pid) () }).session? sid' =
          st'.session? sid') := by
    intro st' sid
    split <;> rfl
  exact (h _ sid).trans (session?_setSession st sid sid' _)

theorem participant?_addParticipant (st : SfuShard S) (sid : SessionId) (pid : ParticipantId)
    (userId : String) (tx : WsTx) (rtc : S.Rtc) (answer : S.SdpAnswer) (creds : IceCreds)
    (now : Instant) (sid' : SessionId) (pid' : ParticipantId) :
    (st.addParticipant sid pid userId tx rtc answer creds now).participant? sid' pid' =
      if sid' = sid ∧ pid' = pid then
        some (newParticipant pid userId rtc tx now
          (existingTracks ((st.session? sid).getD (.new sid))))
      else st.participant? sid' pid' := by
  rw [participant?, session?_addParticipant, participant?]
  by_cases hsid : sid' = sid
  · subst hsid
    rw [if_pos rfl, Option.bind_some, SfuSession.setParticipant, Dict.lookup_insert_eq]
    by_cases hpid : pid' = pid
    · rw [if_pos hpid, if_pos ⟨rfl, hpid⟩]
    · rw [if_neg hpid, if_neg fun h => hpid h.2]
      cases st.session? sid' <;> rfl
  · rw [if_neg hsid, if_neg fun h => hsid h.1]

/-- **Only its own leave takes a participant out of a session, and only an admission
brings one in.** -/
theorem Move.participant {e : Effect} {st st' : SfuShard S} (h : Move e st st')
    {sid : SessionId} {pid : ParticipantId} (hl : e ≠ .left sid pid)
    (ha : ∀ tx, e ≠ .admitted sid pid tx) :
    Option.Rel SameOwner (st.participant? sid pid) (st'.participant? sid pid) := by
  have hrefl := Option.Rel.refl (R := SameOwner (S := S)) .refl
  have hset : ∀ {st : SfuShard S} {sid' pid'} {p : SfuParticipant S} (p'),
      st.participant? sid' pid' = some p → SameOwner p p' →
      Option.Rel SameOwner (st.participant? sid pid)
        ((st.setParticipant sid' pid' p').participant? sid pid) := by
    intro st sid' pid' p p' hp ho
    rw [participant?_setParticipant hp]
    by_cases heq : sid = sid' ∧ pid = pid'
    · rw [if_pos heq, heq.1, heq.2, hp]
      exact .some ho
    · rw [if_neg heq]
      exact hrefl _
  cases h with
  | framed hf =>
    have h := hf.participant sid pid
    cases hp : st.participant? sid pid with
    | none =>
      rw [hp] at h
      rw [h.none_left]
      exact .none
    | some p =>
      rw [hp] at h
      obtain ⟨p', hp', hf⟩ := h.some_left
      rw [hp']
      exact .some ⟨hf.id, hf.wsTx⟩
  | announced hp _ =>
    refine Option.Rel.trans (R := SameOwner) (·.trans) ?_
      ((participant?_mediaAdded _ _ _ _ _ _ _).imp SameOffer.owner)
    exact hset _ hp ⟨rfl, rfl⟩
  | left _ sid' pid' =>
    rw [participant?_leaveMove]
    by_cases hsid : sid = sid'
    · rw [if_pos hsid]
      by_cases hpid : pid = pid'
      · exact absurd (by rw [hsid, hpid]) hl
      · rw [if_neg hpid]
        cases st.participant? sid pid with
        | none => exact .none
        | some p => exact .some ⟨rfl, rfl⟩
    · rw [if_neg hsid]
      exact hrefl _
  | deactivated _ hp _ _ => exact hset _ hp ⟨rfl, rfl⟩
  | @closed _ sid' s hs hempty =>
    rw [participant?, participant?, session?, session?, Dict.lookup_erase_eq]
    by_cases hsid : sid = sid'
    · rw [if_pos hsid, hsid, show st.sessions.lookup sid' = some s from hs, Option.bind_some,
        Dict.isEmpty_iff.mp hempty pid]
      exact .none
    · rw [if_neg hsid]
      exact hrefl _
  | @admitted _ sid' pid' _ tx _ _ _ _ _ =>
    rw [participant?_addParticipant]
    by_cases heq : sid = sid' ∧ pid = pid'
    · exact absurd (by rw [heq.1, heq.2]) (ha tx)
    · rw [if_neg heq]
      exact hrefl _
  | @opened _ sid' pid' s p _ _ rtc hs hp _ _ =>
    rw [participant?_setSession]
    by_cases hsid : sid = sid'
    · rw [if_pos hsid, hsid, participant?, hs, Option.bind_some, lookup_registerTracks]
      by_cases hpid : pid = pid'
      · rw [if_pos hpid, hpid, hp]
        exact .some ⟨rfl, rfl⟩
      · rw [if_neg hpid]
        exact hrefl _
    · rw [if_neg hsid]
      exact hrefl _
  | refused hp _ _ => exact hset _ hp ⟨rfl, rfl⟩
  | taken => exact hrefl _
  | offered hp _ _ => exact hset _ hp ⟨rfl, rfl⟩
  | unsent hp _ _ _ => exact hset _ hp ⟨rfl, rfl⟩

/-- After its leave, a participant is gone. -/
theorem participant?_handleLeave (st : SfuShard S) (sid : SessionId) (pid : ParticipantId) :
    (st.handleLeave sid pid).1.participant? sid pid = none := by
  refine (moves_leaveMove (E := fun e => (∀ sid pid, e ≠ .left sid pid) ∧
    ∀ sid pid tx, e ≠ .admitted sid pid tx) ?_ ?_ ?_ st sid pid).invariant
    (I := fun st => st.participant? sid pid = none) (fun e st st' he hm hp => ?_) ?_
  · simp
  · simp
  · simp
  · have h := hm.participant (he.1 sid pid) (he.2 sid pid)
    rw [hp] at h
    exact h.none_left
  · rw [participant?_leaveMove, if_pos rfl, if_pos rfl]

/-! ### Joining and answering -/

theorem moves_kickPrior (hf : E .framed) (hd : ∀ sid pid, E (.deactivated sid pid))
    (hc : ∀ sid, E (.closed sid)) {sid : SessionId} {pid : ParticipantId} (hl : E (.left sid pid))
    (st : SfuShard S) : Moves E st (st.kickPrior sid pid) := by
  unfold kickPrior
  split
  · exact .refl _
  · exact (Moves.frame hf (.wsTrySend _ _ _)).trans (moves_handleLeave hf hd hc hl _)

theorem participant?_kickPrior (st : SfuShard S) (sid : SessionId) (pid : ParticipantId) :
    (st.kickPrior sid pid).participant? sid pid = none := by
  unfold kickPrior
  split
  · assumption
  · exact participant?_handleLeave _ sid pid

/-- A join takes the participant of that id out, and admits one if its offer is
good. -/
theorem moves_handleJoin (hf : E .framed) (hd : ∀ sid pid, E (.deactivated sid pid))
    (hc : ∀ sid, E (.closed sid)) {sid : SessionId} {pid : ParticipantId} (hl : E (.left sid pid))
    {replyTx : WsTx} (ha : E (.admitted sid pid replyTx)) (st : SfuShard S) (creds : IceCreds)
    (now : Instant) (userId sdpOffer : String) :
    Moves E st (st.handleJoin creds now sid pid userId sdpOffer replyTx).1 := by
  have hnone := participant?_kickPrior st sid pid
  refine (moves_kickPrior hf hd hc hl st).trans ?_
  unfold handleJoin
  generalize st.kickPrior sid pid = st₁ at hnone ⊢
  dsimp only
  split
  · exact .frame hf (.wsTrySend _ _ _)
  · split
    · exact .frame hf (.wsTrySend _ _ _)
    · exact .one ha (.admitted userId replyTx _ _ creds now hnone)

/-- An answer is accepted or refused, if one was awaited. -/
theorem moves_handleAnswer (hf : E .framed) {sid : SessionId} {pid : ParticipantId}
    (ho : E (.opened sid pid)) (st : SfuShard S) (now : Instant) (sdpAnswer : String)
    (hr : ∀ p pending answer rtc e, st.participant? sid pid = some p →
      p.pendingOffer = some pending → S.readAnswer sdpAnswer = .ok answer →
      S.acceptAnswer (S.sdpApi p.rtc) pending answer = (rtc, .error e) →
      E (.refused sid pid (hasNegotiating p))) :
    Moves E st (st.handleAnswer now sid pid sdpAnswer).1 := by
  unfold handleAnswer
  split
  · exact .refl _
  · rename_i s hs
    split
    · exact .refl _
    · rename_i p hp
      have hpart : st.participant? sid pid = some p := participant?_eq_some.mpr ⟨s, hs, hp⟩
      split
      · exact .refl _
      · rename_i answer hanswer
        dsimp only
        refine Moves.trans ?_ (.frame hf (frame_drainQueuedOffer _ _ _))
        split
        · exact .refl _
        · rename_i pending hpending
          split
          · rename_i rtc e heq
            exact .one (hr p pending answer rtc e hpart hpending hanswer heq)
              (.refused hpart hpending heq)
          · rename_i rtc _ heq
            refine (Moves.one ho (.opened hs hp hpending heq)).trans ?_
            exact .frame hf (.setSession_setSession st sid
              (SfuSession.Frame.foldl_requestKeyframe now _ _))

/-! ### Ticks and offers -/

theorem frame_timeouts (st : SfuShard S) (now : Instant) : st.Frame (st.timeouts now) := by
  refine ⟨fun sid => ?_, fun _ he => he⟩
  rw [show (st.timeouts now).session? sid = _ from Dict.lookup_mapVals _ st.sessions sid, session?]
  cases st.sessions.lookup sid with
  | none => exact .none
  | some s =>
    refine .some ?_
    have h := SfuSession.Frame.mapVals (s := s)
      (f := fun _ p => { p with rtc := S.handleTimeout p.rtc now })
      fun _ p => .call (.handleTimeout p.rtc now)
    exact ⟨h.participants, h.targets, h.noStale⟩

theorem moves_tick (hf : E .framed) (hd : ∀ sid pid, E (.deactivated sid pid))
    (hc : ∀ sid, E (.closed sid)) (st : SfuShard S) (now : Instant)
    (hl : ∀ e ∈ (st.timeouts now).zombies now, E (.left e.1 e.2)) : Moves E st (st.tick now) :=
  (Moves.frame hf (frame_timeouts st now)).trans
    (.foldl (fun st e he => moves_handleLeave hf hd hc (hl e he) st) _)

theorem moves_negotiateOne (hf : E .framed) (ho : ∀ sid pid, E (.offered sid pid))
    (hu : ∀ sid pid, E (.unsent sid pid)) (st : SfuShard S) (e : SessionId × ParticipantId) :
    Moves E st (negotiateOne st e) :=
  negotiateOne_cases (.refl _)
    (fun _ => .frame hf (.of_eq rfl fun _ he' => (AList.mem_insert _).mpr (.inr he')))
    (fun hp => .frame hf (.setParticipant hp (.call (.dropChange .sdpApi))))
    (fun hp hpending hopen heq => .one (hu _ _) (.unsent hp hpending hopen heq))
    fun hp hpending _ heq => (Moves.one (ho _ _) (.offered hp hpending heq)).trans
      (.frame hf (.wsTrySend _ _ _))

/-! ### The moves of a step -/

/-- An answer that str0m refuses while tracks wait for it. -/
def StrandingAnswer (st : SfuShard S) (sid : SessionId) (pid : ParticipantId) (sdpAnswer : String) :
    Prop :=
  ∃ p pending answer rtc e, st.participant? sid pid = some p ∧ p.pendingOffer = some pending ∧
    S.readAnswer sdpAnswer = .ok answer ∧
    S.acceptAnswer (S.sdpApi p.rtc) pending answer = (rtc, .error e) ∧ hasNegotiating p = true

/-- The effects the step under an input may have. -/
def Effects (st : SfuShard S) (i : Input) : Effect → Prop
  | .framed => True
  | .announced _ _ => True
  | .deactivated _ _ => True
  | .closed _ => True
  | .left sid pid =>
    match i with
    | .command (.leave sid' pid') _ _ _ => sid' = sid ∧ pid' = pid
    | .command (.join sid' pid' _ _ _) _ _ _ => sid' = sid ∧ pid' = pid
    | .tick now _ => (sid, pid) ∈ (st.timeouts now).zombies now
    | _ => False
  | .admitted sid pid tx =>
    match i with
    | .command (.join sid' pid' _ _ tx') _ _ _ => sid' = sid ∧ pid' = pid ∧ tx' = tx
    | _ => False
  | .opened sid pid =>
    match i with
    | .command (.answer sid' pid' _) _ _ _ => sid' = sid ∧ pid' = pid
    | _ => False
  | .refused sid pid stranding =>
    match i with
    | .command (.answer sid' pid' sdpAnswer) _ _ _ =>
      sid' = sid ∧ pid' = pid ∧ (stranding = true → StrandingAnswer st sid pid sdpAnswer)
    | _ => False
  | .taken => match i with
    | .negotiate => True
    | _ => False
  | .offered _ _ => match i with
    | .negotiate => True
    | _ => False
  | .unsent _ _ => match i with
    | .negotiate => True
    | _ => False

theorem moves_handleCommand (st : SfuShard S) (cmd : SfuCommand) (creds : IceCreds) (now : Instant)
    (fuel : ℕ) :
    Moves (Effects st (.command cmd creds now fuel)) st (st.handleCommand creds now cmd).1 := by
  cases cmd with
  | join sid pid userId sdpOffer replyTx =>
    exact moves_handleJoin trivial (fun _ _ => trivial) (fun _ => trivial) ⟨rfl, rfl⟩
      ⟨rfl, rfl, rfl⟩ st creds now userId sdpOffer
  | answer sid pid sdpAnswer =>
    exact moves_handleAnswer trivial ⟨rfl, rfl⟩ st now sdpAnswer
      fun p pending answer rtc e hp hpending hanswer heq =>
        ⟨rfl, rfl, fun h => ⟨p, pending, answer, rtc, e, hp, hpending, hanswer, heq, h⟩⟩
  | iceCandidate sid pid candidate sdpMid =>
    exact .frame trivial (frame_handleIceCandidate st sid pid candidate)
  | leave sid pid =>
    exact moves_handleLeave trivial (fun _ _ => trivial) (fun _ => trivial) ⟨rfl, rfl⟩ st
  | publishTrack sid pid source kind =>
    exact .frame trivial (frame_handlePublishTrack st sid pid source kind)
  | clientOffer sid pid sdpOffer =>
    exact .frame trivial (frame_handleClientOffer st sid pid sdpOffer)
  | udpInput sid pid source data =>
    exact .frame trivial (frame_handleUdpInput st now sid pid source data)

/-- **A step is a sequence of moves**, with no effect but those of its input. -/
theorem moves_of_step {st st' : SfuShard S} {i : Input} (h : Step st i st') :
    Moves (Effects st i) st st' := by
  cases h with
  | rehash hr => exact .frame trivial (.rehashed hr)
  | next =>
    cases i with
    | command cmd creds now fuel =>
      exact (moves_handleCommand st cmd creds now fuel).trans
        ((moves_polls trivial fun _ _ => trivial).pollTarget now fuel _ _)
    | tick now fuel =>
      refine (moves_tick trivial (fun _ _ => trivial) (fun _ => trivial) st now
        fun e he => he).trans ?_
      exact (moves_polls trivial fun _ _ => trivial).pollAll now fuel _
    | flush now pollFuel fuel =>
      exact (moves_polls trivial fun _ _ => trivial).flushPendingWrites now pollFuel fuel st
    | negotiate =>
      refine (Moves.one trivial (.taken st)).trans ?_
      exact .foldl (fun st e _ =>
        moves_negotiateOne trivial (fun _ _ => trivial) (fun _ _ => trivial) st e) _
    | drain tx n => exact .frame trivial (.of_eq rfl fun _ he => he)
    | close tx => exact .frame trivial (.of_eq rfl fun _ he => he)
    | rehash => exact .refl st

end SfuShard

end Video

end MateHub
