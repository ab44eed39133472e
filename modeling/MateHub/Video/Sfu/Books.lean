import MateHub.Video.Sfu.Panics
import MateHub.Video.Sfu.Signals

/-!
# What a session keeps about tracks

Of all that a step of the shard does to a session, a few acts are about the tracks that are
published: somebody joins or leaves, a track is added, a packet of it is heard, a keyframe of it
is asked for. `MateHub.Video.Books` has what a session keeps about tracks – how loud they are,
and when a keyframe was last asked for – and what each of these acts writes there.

Every other step leaves the books alone, also when a call panics. So a step of the shard is a
list of such acts (`MateHub.Video.SfuShard.books_perform`), and what is known of the acts alone
is known of every run.
-/

namespace MateHub

namespace Video

/-! ### The books -/

/-- What a session keeps about tracks. -/
@[ext] structure Books where
  /-- The tracks of everyone who is there. -/
  tracksIn : ParticipantId → Option (List TrackIn)
  lastKeyframeAt : TrackKey → Option Instant

namespace Books

/-- The books of a session that is not there. -/
def empty : Books where
  tracksIn _ := none
  lastKeyframeAt _ := none

/-- What is entered in the books of a session. -/
inductive Act
  | joined (pid : ParticipantId)
  | left (pid : ParticipantId)
  | added (pid : ParticipantId) (mid : Mid) (kind : MediaKind) (source : Source)
  | heard (pid : ParticipantId) (mid : Mid) (ext : ExtensionValues)
  /-- A keyframe request has been sent. -/
  | asked (key : TrackKey) (now : Instant)
  deriving DecidableEq

/-- The tracks of a publisher, once a packet of one of them has been heard. -/
def hearTrack (mid : Mid) (ext : ExtensionValues) (tracks : List TrackIn) : List TrackIn :=
  tracks.replaceF fun t => if t.mid = mid then some (t.hear ext) else none

/-- What an act writes. -/
def act (b : Books) : Act → Books
  | .joined pid => { b with tracksIn := Function.update b.tracksIn pid (some []) }
  | .left pid =>
    { tracksIn := Function.update b.tracksIn pid none
      lastKeyframeAt := fun k => if k.1 = pid then none else b.lastKeyframeAt k }
  | .added pid mid kind source =>
    { b with
      tracksIn := Function.update b.tracksIn pid
        ((b.tracksIn pid).map fun tracks => tracks ++ [⟨mid, kind, source, 64⟩]) }
  | .heard pid mid ext =>
    { b with
      tracksIn := Function.update b.tracksIn pid ((b.tracksIn pid).map (hearTrack mid ext)) }
  | .asked key now =>
    { b with lastKeyframeAt := Function.update b.lastKeyframeAt key (some now) }

/-- No track that stays is changed by it. -/
def Act.sparesTracks : Act → Bool
  | .heard _ _ _ => false
  | .added _ _ _ _ => false
  | _ => true

/-- **A request is sent** to somebody who is there, and no short while after another. -/
def Allows (b : Books) : Act → Prop
  | .asked key now => (b.tracksIn key.1).isSome = true ∧
      ∀ t, b.lastKeyframeAt key = some t → ¬ now - t < keyframeThrottle
  | _ => True

end Books

variable {S : Str0m} {leaves : S.Rtc → S.Rtc → Prop}

/-- The books of a session, as its fields have them. -/
def SfuSession.books (s : SfuSession S) : Books where
  tracksIn pid := (s.participants.lookup pid).map SfuParticipant.tracksIn
  lastKeyframeAt k := s.lastKeyframeAt.lookup k

namespace SfuSession

/-- The publisher of a track has its stream, of which a keyframe can be asked for. -/
def HasStream (s : SfuSession S) (key : TrackKey) : Prop :=
  ∃ p, s.participants.lookup key.1 = some p ∧ (S.requestKeyframe p.rtc key.2).isSome = true

/-- A keyframe of the track was asked for a short while ago. -/
def throttles (s : SfuSession S) (now : Instant) (key : TrackKey) : Bool :=
  (s.lastKeyframeAt.lookup key).any fun t => now - t < keyframeThrottle

end SfuSession

/-- The tracks that somebody has published, from the participant. -/
theorem tracksIn_eq (s : SfuSession S) (pid : ParticipantId) :
    s.books.tracksIn pid = (s.participants.lookup pid).map SfuParticipant.tracksIn := rfl

namespace SfuShard

variable {st st' : SfuShard S} {sid : SessionId} {pid : ParticipantId}

/-- The books of every session. -/
def books (st : SfuShard S) (sid : SessionId) : Books :=
  ((st.session? sid).map SfuSession.books).getD .empty

/-- What an act writes into the books of a session. -/
def enter (books : SessionId → Books) (e : SessionId × Books.Act) : SessionId → Books :=
  Function.update books e.1 ((books e.1).act e.2)

/-- The books of a session that is there. -/
theorem books_of_session? {s : SfuSession S} (hs : st.session? sid = some s) :
    st.books sid = s.books := by
  rw [books, hs]
  rfl

/-- The tracks of a participant, from the shard. -/
theorem tracksIn_books (st : SfuShard S) (sid : SessionId) (pid : ParticipantId) :
    (st.books sid).tracksIn pid = (st.participant? sid pid).map SfuParticipant.tracksIn := by
  rw [books, participant?]
  cases st.session? sid <;> rfl

/-! ### What leaves the books alone -/

/-- Only the sessions matter to the books. -/
theorem books_congr (h : st'.sessions = st.sessions) : st'.books = st.books := by
  funext sid
  rw [books, books, session?, session?, h]

/-- A change of a session that leaves its books leaves all. -/
theorem books_modify (st : SfuShard S) (sid : SessionId) {f : SfuSession S → SfuSession S}
    (hf : ∀ s, st.session? sid = some s → (f s).books = s.books) :
    books { st with sessions := st.sessions.modify sid f } = st.books := by
  funext sid'
  have hlook : session? { st with sessions := st.sessions.modify sid f } sid' =
      if sid' = sid then (st.session? sid').map f else st.session? sid' :=
    Dict.lookup_modify st.sessions sid sid' f
  rw [books, books, hlook]
  split_ifs with hsid
  · subst hsid
    rcases hs : st.session? sid' with _ | s
    · rfl
    · exact hf s hs
  · rfl

/-- A session that is written has its books entered. -/
theorem books_setSession (st : SfuShard S) (sid : SessionId) (s' : SfuSession S) :
    (st.setSession sid s').books = Function.update st.books sid s'.books := by
  funext sid'
  have hlook : (st.setSession sid s').session? sid' =
      if sid' = sid then some s' else st.session? sid' := Dict.lookup_insert_eq _ _ _ _
  rw [books, hlook, Function.update_apply, books]
  split_ifs <;> rfl

/-- A participant is written back. -/
theorem books_setParticipant {p : SfuParticipant S} (hp : st.participant? sid pid = some p)
    (p' : SfuParticipant S) : (st.setParticipant sid pid p').books =
      Function.update st.books sid { (st.books sid) with
        tracksIn := Function.update (st.books sid).tracksIn pid (some p'.tracksIn) } := by
  obtain ⟨s, hs, -⟩ := participant?_eq_some.mp hp
  have hwritten : (s.setParticipant pid p').books = { s.books with
      tracksIn := Function.update s.books.tracksIn pid (some p'.tracksIn) } := by
    refine Books.ext (funext fun pid' => ?_) rfl
    change ((s.participants.insert pid p').lookup pid').map SfuParticipant.tracksIn =
      Function.update s.books.tracksIn pid (some p'.tracksIn) pid'
    rw [Dict.lookup_insert_eq, Function.update_apply]
    split_ifs <;> rfl
  funext sid'
  rw [books, session?_setParticipant, Function.update_apply, books_of_session? hs, ← hwritten]
  split_ifs with hsid
  · rw [hsid, hs]
    rfl
  · rfl

/-- A participant that is written with the same tracks changes no books. -/
theorem books_setParticipant_self {p p' : SfuParticipant S}
    (hp : st.participant? sid pid = some p) (h : p'.tracksIn = p.tracksIn) :
    (st.setParticipant sid pid p').books = st.books := by
  have hsame : (st.books sid).tracksIn pid = some p'.tracksIn := by
    rw [tracksIn_books, hp, h]
    rfl
  rw [books_setParticipant hp, ← hsame, Function.update_eq_self]
  exact Function.update_eq_self sid st.books

/-- The targets of a track are not in the books. -/
theorem books_setTargets (st : SfuShard S) (sid : SessionId) (key : TrackKey)
    (targets : List TrackKey) : (st.setTargets sid key targets).books = st.books :=
  books_modify st sid fun _ _ => rfl

/-- The state of a transport is not in the books. -/
@[simp] theorem books_poisoned (poison : S.Rtc → S.Rtc) (st : SfuShard S) (sid : SessionId)
    (pid : ParticipantId) : (st.poisoned poison sid pid).books = st.books := by
  unfold poisoned
  split
  · rfl
  · rename_i hp
    exact books_setParticipant_self hp rfl

/-- Whether somebody is dead is not in the books. -/
@[simp] theorem books_markDead (st : SfuShard S) (now : Instant) (sid : SessionId)
    (pid : ParticipantId) : (st.markDead now sid pid).books = st.books := by
  unfold markDead
  split
  · rfl
  · rename_i hp
    exact books_setParticipant_self hp rfl

/-- Messages are not in the books. -/
@[simp] theorem books_wsTrySend (st : SfuShard S) (tx : WsTx) (msg : ServerMessage) :
    (st.wsTrySend tx msg).books = st.books := rfl

/-! ### A turn of a poll -/

/-- The books are left alone, whether it returns or is unwound. -/
abbrev KeepsBooks (st : SfuShard S) (o : Unwinding S) : Prop :=
  o.EndsIn fun st' => st'.books = st.books

/-- A call into str0m, whether it panics or not, keeps the books if the rest does. -/
theorem keepsBooks_atCall {poison : S.Rtc → S.Rtc} {panicAt : Option ℕ} {st st₀ : SfuShard S}
    {next : Option ℕ → Unwinding S} (h : st.books = st₀.books)
    (hnext : ∀ m, KeepsBooks st₀ (next m)) :
    KeepsBooks st₀ (atCall poison panicAt st sid pid next) :=
  endsIn_atCall (by rw [books_poisoned, h]) hnext

/-- A packet to one target changes no books, wherever it panics. -/
theorem keepsBooks_forwardTo (poison : S.Rtc → S.Rtc) (sid : SessionId) (pkt : RtpPacket)
    (kind : MediaKind) (pp : S.PayloadParams) (panicAt : Option ℕ) (st : SfuShard S)
    (target : TrackKey) :
    KeepsBooks st (forwardToPanics poison sid pkt kind pp panicAt st target) := by
  unfold forwardToPanics
  split
  · exact rfl
  · rename_i p hp
    have hwritten (rtc : S.Rtc) : (st.setParticipant sid target.1
        { advanceSeq p target.2 pkt with rtc := rtc }).books = st.books :=
      books_setParticipant_self hp rfl
    refine keepsBooks_atCall rfl fun m => ?_
    split
    · exact rfl
    · split
      · exact rfl
      · refine keepsBooks_atCall (hwritten _) fun m => ?_
        split
        · exact hwritten _
        · exact (books_congr rfl).trans (hwritten _)

/-- A loop over targets changes no books, by induction over the list. -/
theorem keepsBooks_forwardLoop {forward : Option ℕ → SfuShard S → TrackKey → Unwinding S}
    (h : ∀ m st target, KeepsBooks st (forward m st target)) (targets : List TrackKey)
    (panicAt : Option ℕ) {st st₀ : SfuShard S} (hst : st.books = st₀.books) :
    KeepsBooks st₀ (forwardLoop forward targets panicAt st) := by
  induction targets generalizing panicAt st with
  | nil => exact hst
  | cons target targets ih =>
    have hone : (forward panicAt st target).EndsIn fun st' => st'.books = st₀.books :=
      (h panicAt st target).imp fun st' hst' => hst'.trans hst
    exact hone.bind fun st' m hst' => ih m hst'

/-- A packet to all targets changes no books. -/
theorem keepsBooks_forwardToAll {forward : Option ℕ → SfuShard S → TrackKey → Unwinding S}
    (h : ∀ m st target, KeepsBooks st (forward m st target)) (panicAt : Option ℕ)
    {st st₀ : SfuShard S} (hst : st.books = st₀.books) (sid : SessionId) (key : TrackKey) :
    KeepsBooks st₀ (forwardToAllPanics panicAt st sid key forward) := by
  unfold forwardToAllPanics
  split
  · exact hst
  · have herased := books_modify st sid
      (f := fun s => { s with forwardingMap := s.forwardingMap.erase key }) fun _ _ => rfl
    exact herased.trans hst
  · have hloop := keepsBooks_forwardLoop h
    refine Unwinding.EndsIn.bind (hloop _ panicAt ?_) fun st' m hst' => ?_
    · exact (books_setTargets _ _ _ _).trans hst
    · exact (books_setTargets _ _ _ _).trans hst'

/-- The books once a packet has been heard. -/
theorem books_hearPacket {p : SfuParticipant S} (hp : st.participant? sid pid = some p) (mid : Mid)
    (pkt : RtpPacket) : (st.setParticipant sid pid (hearPacket p mid pkt)).books =
      enter st.books (sid, .heard pid mid pkt.extVals) := by
  have htracks : (st.books sid).tracksIn pid = some p.tracksIn := by
    rw [tracksIn_books, hp]
    rfl
  rw [books_setParticipant hp, enter, Books.act, htracks]
  rfl

/-- An entry that changes nothing. -/
theorem enter_of_act_eq {b : SessionId → Books} {a : Books.Act} (h : (b sid).act a = b sid) :
    enter b (sid, a) = b := by
  rw [enter, h]
  exact Function.update_eq_self sid b

/-- Of nobody and of no track, no packet is heard. -/
theorem enter_heard_self {ext : ExtensionValues} {mid : Mid}
    (h : ∀ tracks, (st.books sid).tracksIn pid = some tracks → ∀ t ∈ tracks, t.mid ≠ mid) :
    enter st.books (sid, .heard pid mid ext) = st.books := by
  refine enter_of_act_eq (Books.ext ?_ rfl)
  have hsame : ((st.books sid).tracksIn pid).map (Books.hearTrack mid ext) =
      (st.books sid).tracksIn pid := by
    rcases htracks : (st.books sid).tracksIn pid with _ | tracks
    · rfl
    · refine congrArg some (List.replaceF_of_forall_none fun t ht => ?_)
      exact if_neg (h tracks htracks t ht)
  rw [Books.act, hsame]
  exact Function.update_eq_self pid _

/-- **A packet is heard**, whatever becomes of it then. -/
theorem endsIn_hears (poison : S.Rtc → S.Rtc) (panicAt : Option ℕ) (st : SfuShard S)
    (sid : SessionId) (pid : ParticipantId) (mid : Mid) (pkt : RtpPacket) :
    (forwardRtpPanics poison panicAt st sid pid mid pkt).EndsIn fun st' =>
      st'.books = enter st.books (sid, .heard pid mid pkt.extVals) := by
  have htracks := tracksIn_books st sid pid
  unfold forwardRtpPanics
  split
  · rename_i hs
    rw [participant?, hs] at htracks
    exact (enter_heard_self fun tracks h => absurd (htracks.symm.trans h) (by simp)).symm
  · rename_i s hs
    split
    · rename_i hp
      rw [participant?, hs, Option.bind_some, hp] at htracks
      exact (enter_heard_self fun tracks h => absurd (htracks.symm.trans h) (by simp)).symm
    · rename_i p hp
      have hp : st.participant? sid pid = some p := participant?_eq_some.mpr ⟨s, hs, hp⟩
      split
      · rename_i hnone
        rw [hp] at htracks
        refine (enter_heard_self fun tracks h t ht hmid => ?_).symm
        obtain rfl := Option.some.inj (htracks.symm.trans h)
        have hnot := List.find?_eq_none.mp hnone t ht
        exact hnot (decide_eq_true hmid)
      · dsimp only
        rw [← books_hearPacket hp]
        refine keepsBooks_atCall rfl fun m => ?_
        split
        · exact rfl
        · split_ifs
          · exact rfl
          · exact rfl
          · have hone (kind : MediaKind) (pp : S.PayloadParams) (m : Option ℕ) (st : SfuShard S)
                (target : TrackKey) :=
              keepsBooks_forwardTo poison sid pkt kind pp m st target
            exact keepsBooks_forwardToAll (hone _ _) m rfl sid _

/-- What holds wherever a step ends holds where no call panics. -/
theorem endsIn_of_agrees {o : Unwinding S} {P : SfuShard S → Prop} (h : o.Agrees none st)
    (ho : o.EndsIn P) : P st := by
  cases o with
  | returned st' m => exact h.1 ▸ ho
  | unwound st' => exact absurd rfl h

/-- **A packet** enters that it has been heard. -/
theorem books_forwardRtp (st : SfuShard S) (sid : SessionId) (pid : ParticipantId) (mid : Mid)
    (pkt : RtpPacket) : (st.forwardRtp sid pid mid pkt).books =
      enter st.books (sid, .heard pid mid pkt.extVals) :=
  endsIn_of_agrees (agrees_forwardRtp id none st sid pid mid pkt)
    (endsIn_hears id none st sid pid mid pkt)

/-- A hint that is taken is no track. -/
theorem tracksIn_popSourceHint (p : SfuParticipant S) (kind : MediaKind) :
    (popSourceHint p kind).1.tracksIn = p.tracksIn := by
  unfold popSourceHint
  split <;> rfl

/-- The source that an announced track is given. -/
def sourceOf (st : SfuShard S) (sid : SessionId) (pid : ParticipantId) (kind : MediaKind) :
    Source :=
  ((st.participant? sid pid).bind fun p => (popSourceHint p kind).2).getD .camera

/-- **Media that comes** enters a track, with the source that has been announced. -/
theorem books_mediaAdded (st : SfuShard S) (sid : SessionId) (pid : ParticipantId) (mid : Mid)
    (kind : MediaKind) : (st.mediaAdded sid pid mid kind).books =
      enter st.books (sid, .added pid mid kind (st.sourceOf sid pid kind)) := by
  unfold mediaAdded
  split
  · rename_i hs
    refine (enter_of_act_eq (Books.ext ?_ rfl)).symm
    have hnone : (st.books sid).tracksIn pid = none := by
      rw [tracksIn_books, participant?, hs]
      rfl
    rw [Books.act, hnone, Option.map_none, ← hnone]
    exact Function.update_eq_self pid _
  · rename_i s hs
    have hsource : st.sourceOf sid pid kind =
        ((s.participants.lookup pid).bind fun p => (popSourceHint p kind).2).getD .camera := by
      rw [sourceOf, participant?, hs]
      rfl
    dsimp only
    rw [← hsource]
    generalize st.sourceOf sid pid kind = source
    refine (books_setSession st sid _).trans ?_
    rw [enter, books_of_session? hs]
    refine congrArg (Function.update st.books sid) (Books.ext (funext fun pid' => ?_) rfl)
    change ((Dict.mapVals _ (s.participants.modify pid _)).lookup pid').map
      SfuParticipant.tracksIn = Function.update s.books.tracksIn pid _ pid'
    rw [Dict.lookup_mapVals, Dict.lookup_modify, Function.update_apply]
    by_cases hpid : pid' = pid
    · rw [if_pos hpid, if_pos hpid, hpid, tracksIn_eq]
      rcases s.participants.lookup pid with _ | p
      · rfl
      · simp [tracksIn_popSourceHint]
    · rw [if_neg hpid, if_neg hpid, tracksIn_eq]
      rcases s.participants.lookup pid' with _ | p
      · rfl
      · rw [Option.map_some, Option.map_some, if_neg hpid]
        split <;> rfl

/-! ### Keyframe requests -/

/-- How `request_keyframe_throttled` ends: nothing is sent, because one was sent a short while
ago or the publisher does not have the stream; or the request is sent. -/
theorem requestKeyframeThrottled_cases (s : SfuSession S) (now : Instant) (key : TrackKey) :
    (s.requestKeyframeThrottled now key.1 key.2 = (s, false) ∧
      (s.HasStream key → s.throttles now key = true)) ∨
    ∃ p rtc, s.throttles now key = false ∧ s.participants.lookup key.1 = some p ∧
      S.requestKeyframe p.rtc key.2 = some rtc ∧ s.requestKeyframeThrottled now key.1 key.2 =
        ({ s.setParticipant key.1 { p with rtc := rtc } with
            lastKeyframeAt := s.lastKeyframeAt.insert key now }, true) := by
  unfold SfuSession.requestKeyframeThrottled
  dsimp only
  rcases hbusy : s.throttles now key with _ | _
  · have hfree : ¬ ((s.lastKeyframeAt.lookup key).any fun t => now - t < keyframeThrottle) = true :=
      Bool.eq_false_iff.mp hbusy
    rw [if_neg hfree]
    rcases hp : s.participants.lookup key.1 with _ | p
    · refine .inl ⟨rfl, fun ⟨p', hp', _⟩ => ?_⟩
      exact absurd (hp.symm.trans hp') nofun
    · rcases hrtc : S.requestKeyframe p.rtc key.2 with _ | rtc
      · refine .inl ⟨by simp only [hrtc], fun ⟨p', hp', hstream⟩ => ?_⟩
        obtain rfl := Option.some.inj (hp.symm.trans hp')
        rw [hrtc] at hstream
        cases hstream
      · exact .inr ⟨p, rtc, rfl, rfl, hrtc, by simp only [hrtc]⟩
  · have hany : ((s.lastKeyframeAt.lookup key).any fun t => now - t < keyframeThrottle) = true :=
      hbusy
    rw [if_pos hany]
    exact .inl ⟨rfl, fun _ => rfl⟩

/-- **A request that is not sent leaves no trace.** -/
theorem requestKeyframeThrottled_of_not_sent {s : SfuSession S} {now : Instant} {key : TrackKey}
    (h : (s.requestKeyframeThrottled now key.1 key.2).2 = false) :
    (s.requestKeyframeThrottled now key.1 key.2).1 = s := by
  rcases requestKeyframeThrottled_cases s now key with ⟨heq, -⟩ | ⟨p, rtc, -, -, -, heq⟩
  · rw [heq]
  · rw [heq] at h
    cases h

/-- What a request writes, if it is sent. -/
theorem books_requestKeyframeThrottled (s : SfuSession S) (now : Instant) (key : TrackKey) :
    (s.requestKeyframeThrottled now key.1 key.2).1.books =
      if (s.requestKeyframeThrottled now key.1 key.2).2 then s.books.act (.asked key now)
      else s.books := by
  rcases requestKeyframeThrottled_cases s now key with ⟨heq, -⟩ | ⟨p, rtc, -, hp, -, heq⟩
  · rw [heq]
    rfl
  · rw [heq, if_pos rfl]
    refine Books.ext (funext fun pid' => ?_) (funext fun k => ?_)
    · change ((s.participants.insert key.1 _).lookup pid').map SfuParticipant.tracksIn =
        (s.participants.lookup pid').map SfuParticipant.tracksIn
      rw [Dict.lookup_insert_eq]
      split_ifs with hpid
      · rw [hpid, hp]
        rfl
      · rfl
    · change (s.lastKeyframeAt.insert key now).lookup k =
        Function.update s.books.lastKeyframeAt key (some now) k
      rw [Dict.lookup_insert_eq, Function.update_apply]
      rfl

/-! ### Turns -/

/-- The act of an event, if it has one. -/
def eventAct (st : SfuShard S) (now : Instant) (sid : SessionId) (pid : ParticipantId) :
    Event → Option Books.Act
  | .rtpPacket pkt =>
    match (st.participant? sid pid).bind fun p => S.streamRx p.rtc pkt.ssrc with
    | none => none
    | some (mid, rid) => if rid.all (· = "h") then some (.heard pid mid pkt.extVals) else none
  | .mediaAdded mid kind => some (.added pid mid kind (st.sourceOf sid pid kind))
  | .keyframeRequest mid =>
    match st.session? sid with
    | none => none
    | some s =>
      match (s.participants.lookup pid).bind fun p =>
        p.tracksOut.find? fun t => t.openMid = some mid with
      | none => none
      | some t =>
        if (s.requestKeyframeThrottled now t.origin t.originMid).2 then
          some (.asked (t.origin, t.originMid) now)
        else none
  | _ => none

/-- The act of a turn of `poll_participant`, if it has one. -/
def turnAct (st : SfuShard S) (now : Instant) (sid : SessionId) (pid : ParticipantId) :
    Option Books.Act :=
  match st.participant? sid pid with
  | none => none
  | some p =>
    if !S.isAlive p.rtc then none
    else
      match S.pollOutput p.rtc with
      | (rtc, .ok (.event e)) =>
        (st.setParticipant sid pid { p with rtc := rtc }).eventAct now sid pid e
      | _ => none

/-- The books after an act, if there is one. -/
def enter? (books : SessionId → Books) (sid : SessionId) (a : Option Books.Act) :
    SessionId → Books :=
  a.elim books fun a => enter books (sid, a)

/-- **An event of a transport** enters what `eventAct` says. -/
theorem books_handleEvent (st : SfuShard S) (now : Instant) (sid : SessionId)
    (pid : ParticipantId) (e : Event) :
    (st.handleEvent now sid pid e).books = enter? st.books sid (st.eventAct now sid pid e) := by
  cases e with
  | rtpPacket pkt =>
    dsimp only [handleEvent, eventAct]
    rcases (st.participant? sid pid).bind fun p => S.streamRx p.rtc pkt.ssrc with _ | ⟨mid, rid⟩
    · rfl
    · dsimp only
      split_ifs
      · exact books_forwardRtp st sid pid mid pkt
      · rfl
  | mediaAdded mid kind => exact books_mediaAdded st sid pid mid kind
  | keyframeRequest mid =>
    dsimp only [handleEvent, eventAct]
    rcases hs : st.session? sid with _ | s
    · rfl
    · dsimp only
      generalize (s.participants.lookup pid).bind _ = found
      rcases found with _ | t
      · rfl
      · have hasked := books_requestKeyframeThrottled s now (t.origin, t.originMid)
        dsimp only
        rw [books_setSession, hasked, ← books_of_session? hs]
        split_ifs
        · rfl
        · exact Function.update_eq_self sid st.books
  | iceConnectionStateChange state =>
    dsimp only [handleEvent]
    split
    · rfl
    · rename_i hp
      exact books_setParticipant_self hp rfl
  | egressBitrateEstimate kind =>
    dsimp only [handleEvent]
    split
    · rename_i hp
      exact books_setParticipant_self hp rfl
    · rename_i hp
      exact books_setParticipant_self hp rfl
    · rfl
  | other => rfl

/-- **A turn** does one act or none. -/
theorem books_turn (now : Instant) (sid : SessionId) (pid : ParticipantId) (st : SfuShard S) :
    (pollParticipant now sid pid 1 st).books = enter? st.books sid (st.turnAct now sid pid) := by
  unfold turnAct pollParticipant
  rcases hp : st.participant? sid pid with _ | p
  · rfl
  · have hpolled (rtc : S.Rtc) : (st.setParticipant sid pid { p with rtc := rtc }).books =
        st.books := books_setParticipant_self hp rfl
    dsimp only
    split_ifs with hdead
    · rfl
    · rcases S.pollOutput p.rtc with ⟨rtc, e | out⟩
      · exact hpolled _
      · cases out with
        | transmit _ _ => exact hpolled _
        | event e =>
          refine (books_handleEvent _ now sid pid e).trans ?_
          rw [hpolled]
        | timeout _ => exact hpolled _

/-! ### Turns in which a call panics -/

/-- It returns, or is unwound in a state with this property. -/
def UnwoundIn (P : SfuShard S → Prop) : Unwinding S → Prop
  | .returned _ _ => True
  | .unwound st => P st

/-- A weaker fact about where a step is unwound. -/
theorem unwoundIn_of_endsIn {P Q : SfuShard S → Prop} {o : Unwinding S} (h : ∀ st, P st → Q st)
    (ho : o.EndsIn P) : UnwoundIn Q o := by
  cases o with
  | returned st m => trivial
  | unwound st => exact h st ho

/-- A call that panics unwinds the step there. -/
theorem unwoundIn_atCall {P : SfuShard S → Prop} {poison : S.Rtc → S.Rtc} {panicAt : Option ℕ}
    {next : Option ℕ → Unwinding S} (h : P (st.poisoned poison sid pid))
    (hnext : ∀ m, UnwoundIn P (next m)) :
    UnwoundIn P (atCall poison panicAt st sid pid next) := by
  rcases panicAt with _ | _ | n
  · exact hnext none
  · exact h
  · exact hnext (some n)

/-- The books are as they were, or a packet has been heard. -/
def Interrupted (st : SfuShard S) (sid : SessionId) (pid : ParticipantId) (a : Option Books.Act)
    (st' : SfuShard S) : Prop :=
  st'.books = st.books ∨ ∃ mid ext, a = some (.heard pid mid ext) ∧
    st'.books = enter st.books (sid, .heard pid mid ext)

/-- **An event that is cut short** has entered its act, or nothing yet. -/
theorem interrupted_handleEvent (poison : S.Rtc → S.Rtc) (panicAt : Option ℕ) (st : SfuShard S)
    (now : Instant) (sid : SessionId) (pid : ParticipantId) (e : Event) :
    UnwoundIn (Interrupted st sid pid (st.eventAct now sid pid e))
      (handleEventPanics poison panicAt st now sid pid e) := by
  cases e with
  | rtpPacket pkt =>
    dsimp only [handleEventPanics, eventAct]
    rcases hp : st.participant? sid pid with _ | p
    · trivial
    · refine unwoundIn_atCall (.inl (books_poisoned _ _ _ _)) fun m => ?_
      rw [Option.bind_some]
      rcases S.streamRx p.rtc pkt.ssrc with _ | ⟨mid, rid⟩
      · trivial
      · dsimp only
        split_ifs
        · exact unwoundIn_of_endsIn (fun st' h => .inr ⟨mid, pkt.extVals, rfl, h⟩)
            (endsIn_hears poison m st sid pid mid pkt)
        · trivial
  | keyframeRequest mid =>
    dsimp only [handleEventPanics]
    split
    · trivial
    · split
      · trivial
      · split_ifs
        · -- the table is written after the call has returned
          exact unwoundIn_atCall (.inl (books_poisoned _ _ _ _)) fun m => trivial
        · trivial
  | iceConnectionStateChange state => trivial
  | mediaAdded mid kind => trivial
  | egressBitrateEstimate kind => trivial
  | other => trivial

/-- **A turn in which a call panics** has heard a packet, or done nothing. -/
theorem books_panic {poison : S.Rtc → S.Rtc} {panicAt : Option ℕ} {now : Instant}
    (h : (pollTurnPanics poison panicAt now sid pid st).isUnwound = true) :
    Interrupted st sid pid (st.turnAct now sid pid) (pollCaught poison panicAt now sid pid st) := by
  have hturn : UnwoundIn (Interrupted st sid pid (st.turnAct now sid pid))
      (pollTurnPanics poison panicAt now sid pid st) := by
    unfold pollTurnPanics turnAct
    rcases hp : st.participant? sid pid with _ | p
    · trivial
    · have hpolled (rtc : S.Rtc) : (st.setParticipant sid pid { p with rtc := rtc }).books =
          st.books := books_setParticipant_self hp rfl
      refine unwoundIn_atCall (.inl (books_poisoned _ _ _ _)) fun m => ?_
      dsimp only
      split_ifs with hdead
      · trivial
      · refine unwoundIn_atCall (.inl (books_poisoned _ _ _ _)) fun m => ?_
        rcases S.pollOutput p.rtc with ⟨rtc, e | out⟩
        · refine unwoundIn_atCall (.inl ?_) fun m => trivial
          rw [books_poisoned, hpolled]
        · cases out with
          | transmit _ _ => trivial
          | event e =>
            have hevent := interrupted_handleEvent poison m
              (st.setParticipant sid pid { p with rtc := rtc }) now sid pid e
            rwa [show Interrupted (st.setParticipant sid pid { p with rtc := rtc }) sid pid =
              Interrupted st sid pid from by
                funext a st'
                rw [Interrupted, Interrupted, hpolled]] at hevent
          | timeout _ => trivial
  rw [pollCaught]
  rcases ho : pollTurnPanics poison panicAt now sid pid st with ⟨st', m⟩ | st'
  · rw [ho] at h
    cases h
  · rw [ho] at hturn
    dsimp only
    rwa [Interrupted, books_markDead]

/-! ### Commands -/

/-- An offer of a client enters nothing. -/
@[simp] theorem books_handleClientOffer (st : SfuShard S) (sid : SessionId) (pid : ParticipantId)
    (sdpOffer : String) : (st.handleClientOffer sid pid sdpOffer).1.books = st.books :=
  handleClientOffer_cases rfl (fun hp => books_setParticipant_self hp rfl)
    (fun hp _ => books_setParticipant_self hp rfl) fun hp _ => books_setParticipant_self hp rfl

/-- A queued offer enters nothing. -/
@[simp] theorem books_drainQueuedOffer (st : SfuShard S) (sid : SessionId) (pid : ParticipantId) :
    (st.drainQueuedOffer sid pid).books = st.books := by
  unfold drainQueuedOffer
  split
  · rfl
  · rename_i hp
    split
    · rfl
    · rw [books_handleClientOffer]
      exact books_setParticipant_self hp rfl

/-- Lines that are made inactive enter nothing. -/
@[simp] theorem books_deactivate (sid : SessionId) (st : SfuShard S)
    (entry : ParticipantId × List Mid) : (deactivate sid st entry).books = st.books :=
  deactivate_cases rfl (fun hp => books_setParticipant_self hp rfl)
    (fun hp _ => books_setParticipant_self hp rfl)
    fun hp _ _ _ => books_setParticipant_self hp rfl

/-- A negotiation enters nothing. -/
@[simp] theorem books_negotiateOne (st : SfuShard S) (e : SessionId × ParticipantId) :
    (negotiateOne st e).books = st.books :=
  negotiateOne_cases rfl (fun _ => rfl) (fun hp => books_setParticipant_self hp rfl)
    (fun hp _ _ _ => books_setParticipant_self hp rfl)
    fun hp _ _ _ => books_setParticipant_self hp rfl

/-- Steps that enter nothing, one after the other, enter nothing. -/
theorem books_foldl {α : Type*} {f : SfuShard S → α → SfuShard S}
    (h : ∀ st a, (f st a).books = st.books) (l : List α) (st : SfuShard S) :
    (l.foldl f st).books = st.books := by
  induction l generalizing st with
  | nil => rfl
  | cons a l ih => rw [List.foldl_cons, ih, h]

end SfuShard

/-! ### Leaving and joining -/

/-- **Whoever was asked for a keyframe is still there.** -/
def Books.Sound (b : Books) : Prop :=
  ∀ k t, b.lastKeyframeAt k = some t → (b.tracksIn k.1).isSome = true

/-- Where nobody is left, nothing is kept. -/
theorem Books.Sound.eq_empty {b : Books} (h : b.Sound) (hnone : ∀ pid, b.tracksIn pid = none) :
    b = .empty := by
  refine Books.ext (funext hnone) (funext fun k => ?_)
  rcases ht : b.lastKeyframeAt k with _ | t
  · rfl
  · have hthere := h k t ht
    rw [hnone] at hthere
    cases hthere

/-- **An entry that is allowed** keeps the books sound. -/
theorem Books.Sound.act {b : Books} (h : b.Sound) {a : Books.Act} (ha : b.Allows a) :
    (b.act a).Sound := by
  intro k t ht
  cases a with
  | joined pid =>
    have hthere := h k t ht
    change (Function.update b.tracksIn pid (some []) k.1).isSome = true
    rw [Function.update_apply]
    split_ifs
    · rfl
    · exact hthere
  | left pid =>
    change (if k.1 = pid then none else b.lastKeyframeAt k) = some t at ht
    change (Function.update b.tracksIn pid none k.1).isSome = true
    rw [Function.update_apply]
    split_ifs at ht ⊢ with hpid
    exact h k t ht
  | added pid mid kind source =>
    have hthere := h k t ht
    change (Function.update b.tracksIn pid _ k.1).isSome = true
    rw [Function.update_apply]
    split_ifs with hpid
    · rwa [Option.isSome_map, ← hpid]
    · exact hthere
  | heard pid mid ext =>
    have hthere := h k t ht
    change (Function.update b.tracksIn pid _ k.1).isSome = true
    rw [Function.update_apply]
    split_ifs with hpid
    · rwa [Option.isSome_map, ← hpid]
    · exact hthere
  | asked key now =>
    change Function.update b.lastKeyframeAt key (some now) k = some t at ht
    rw [Function.update_apply] at ht
    split_ifs at ht with hkey
    · rw [hkey]
      exact ha.1
    · exact h k t ht

namespace SfuShard

variable {st st' : SfuShard S} {sid : SessionId} {pid : ParticipantId}

/-- Who is dropped is entered as gone. -/
theorem books_dropParticipant (s : SfuSession S) (pid : ParticipantId) :
    (dropParticipant s pid).books = s.books.act (.left pid) := by
  refine Books.ext (funext fun pid' => ?_) (funext fun k => ?_)
  · change ((Dict.mapVals _ (s.participants.erase pid)).lookup pid').map SfuParticipant.tracksIn =
      Function.update s.books.tracksIn pid none pid'
    rw [Dict.lookup_mapVals, Dict.lookup_erase_eq, Function.update_apply, tracksIn_eq]
    split_ifs
    · rfl
    · rw [Option.map_map]
      rfl
  · change (s.lastKeyframeAt.retain fun k _ => decide (k.1 ≠ pid)).lookup k =
      if k.1 = pid then none else s.lastKeyframeAt.lookup k
    rw [Dict.lookup_retain]
    rcases s.lastKeyframeAt.lookup k with _ | t
    · exact (ite_self _).symm
    · by_cases hpid : k.1 = pid
      · rw [if_pos hpid]
        exact Option.filter_some_neg (decide_eq_false (not_not.mpr hpid))
      · rw [if_neg hpid]
        exact Option.filter_some_pos (decide_eq_true hpid)

/-- **A leave.** A session that ends had nothing to keep any more. -/
theorem books_handleLeave (hsound : (st.books sid).Sound) (pid : ParticipantId) :
    (st.handleLeave sid pid).1.books = enter st.books (sid, .left pid) := by
  rcases handleLeave_cases st sid pid with ⟨hs, heq⟩ | ⟨s, st₁, hs, hst₁, hend⟩
  · have hempty : st.books sid = .empty := by
      rw [books, hs]
      rfl
    rw [heq, enter_of_act_eq]
    · rfl
    · rw [hempty]
      refine Books.ext (Function.update_eq_self pid _) (funext fun k => ?_)
      exact ite_self none
  · have hleft : st₁.books = enter st.books (sid, .left pid) := by
      rw [hst₁, books_foldl (books_deactivate sid), leaveStart, books_setSession,
        books_dropParticipant, ← books_of_session? hs]
      rfl
    rcases hend with ⟨s₁, hs₁, hgone, heq⟩ | ⟨heq, -⟩
    · have hempty : st₁.books sid = .empty := by
        have hsound₁ : (st₁.books sid).Sound := by
          rw [hleft, enter, Function.update_self]
          exact hsound.act trivial
        refine hsound₁.eq_empty fun pid' => ?_
        rw [books_of_session? hs₁, tracksIn_eq, Dict.isEmpty_iff.mp hgone]
        rfl
      rw [heq, ← hleft]
      funext sid'
      have hlook : session? { st₁ with sessions := st₁.sessions.erase sid } sid' =
          if sid' = sid then none else st₁.session? sid' := Dict.lookup_erase_eq _ _ _
      change ((session? { st₁ with sessions := st₁.sessions.erase sid } sid').map
        SfuSession.books).getD .empty = st₁.books sid'
      rw [hlook]
      split_ifs with hsid
      · rw [hsid, hempty]
        rfl
      · rfl
    · rw [heq, hleft]

/-- The books of all sessions are sound. -/
def BooksSound (st : SfuShard S) : Prop := ∀ sid, (st.books sid).Sound

/-- Every act of a list is allowed when its turn comes. -/
def Allowed : (SessionId → Books) → List (SessionId × Books.Act) → Prop
  | _, [] => True
  | b, e :: acts => (b e.1).Allows e.2 ∧ Allowed (enter b e) acts

/-- Entries that are allowed anywhere are allowed one after the other. -/
theorem allowed_of_forall {acts : List (SessionId × Books.Act)}
    (h : ∀ e ∈ acts, ∀ b : Books, b.Allows e.2) (b : SessionId → Books) : Allowed b acts := by
  induction acts generalizing b with
  | nil => trivial
  | cons e acts ih => exact ⟨h e (.head _) _, ih (fun e he => h e (.tail _ he)) _⟩

/-- **Books stay sound** over any number of entries, by induction over them. -/
theorem sound_foldl {b : SessionId → Books} (h : ∀ sid, (b sid).Sound)
    {acts : List (SessionId × Books.Act)} (hacts : Allowed b acts) (sid : SessionId) :
    (acts.foldl enter b sid).Sound := by
  induction acts generalizing b with
  | nil => exact h sid
  | cons e acts ih =>
    refine ih (fun sid => ?_) hacts.2
    rw [enter, Function.update_apply]
    split_ifs
    · exact (h e.1).act hacts.1
    · exact h sid

/-- The books of a shard stay sound where its entries are allowed. -/
theorem BooksSound.foldl (h : st.BooksSound) {acts : List (SessionId × Books.Act)}
    (hacts : Allowed st.books acts) (heq : st'.books = acts.foldl enter st.books) :
    st'.BooksSound := by
  intro sid
  rw [heq]
  exact sound_foldl h hacts sid

/-- And where they stay the same. -/
theorem BooksSound.of_eq (h : st.BooksSound) (heq : st'.books = st.books) : st'.BooksSound := by
  intro sid
  rw [heq]
  exact h sid

/-- A leave keeps the books sound. -/
theorem BooksSound.handleLeave (h : st.BooksSound) (sid : SessionId) (pid : ParticipantId) :
    (st.handleLeave sid pid).1.BooksSound :=
  have hallowed : Allowed st.books [(sid, .left pid)] := ⟨trivial, trivial⟩
  h.foldl hallowed (books_handleLeave (h sid) pid)

/-- The leave of whoever had the identity before. -/
def kicked (st : SfuShard S) (sid : SessionId) (pid : ParticipantId) :
    List (SessionId × Books.Act) :=
  if (st.participant? sid pid).isSome then [(sid, .left pid)] else []

/-- **The leave before a join** enters who is kicked. -/
theorem books_kickPrior (h : st.BooksSound) (sid : SessionId) (pid : ParticipantId) :
    (st.kickPrior sid pid).books = (st.kicked sid pid).foldl enter st.books := by
  unfold kickPrior kicked
  rcases st.participant? sid pid with _ | p
  · rfl
  · have hsound : ((st.wsTrySend p.wsTx (.forceDisconnected "joined_elsewhere")).books sid).Sound :=
      h sid
    exact books_handleLeave hsound pid

/-- A new participant is entered. -/
theorem books_addParticipant (st : SfuShard S) (sid : SessionId) (pid : ParticipantId)
    (userId : String) (tx : WsTx) (rtc : S.Rtc) (answer : S.SdpAnswer) (creds : IceCreds)
    (now : Instant) : (st.addParticipant sid pid userId tx rtc answer creds now).books =
      enter st.books (sid, .joined pid) := by
  funext sid'
  rw [books, session?_addParticipant, enter, Function.update_apply]
  split_ifs with hsid
  · rw [books]
    rcases st.session? sid with _ | s
    · refine Books.ext (funext fun pid' => ?_) rfl
      change (((∅ : Dict ParticipantId (SfuParticipant S)).insert pid _).lookup pid').map
        SfuParticipant.tracksIn = Function.update Books.empty.tracksIn pid (some []) pid'
      rw [Dict.lookup_insert_eq, Function.update_apply]
      split_ifs <;> rfl
    · refine Books.ext (funext fun pid' => ?_) rfl
      change ((s.participants.insert pid _).lookup pid').map SfuParticipant.tracksIn =
        Function.update s.books.tracksIn pid (some []) pid'
      rw [Dict.lookup_insert_eq, Function.update_apply]
      split_ifs <;> rfl
  · rfl

/-- The acts of a join. -/
def joinActs (st : SfuShard S) (creds : IceCreds) (now : Instant) (sid : SessionId)
    (pid : ParticipantId) (userId sdpOffer : String) (replyTx : WsTx) :
    List (SessionId × Books.Act) :=
  st.kicked sid pid ++
    (st.handleJoin creds now sid pid userId sdpOffer replyTx).2.elim []
      fun _ => [(sid, .joined pid)]

/-- **A join** enters what `joinActs` says. -/
theorem books_handleJoin (h : st.BooksSound) (creds : IceCreds) (now : Instant) (sid : SessionId)
    (pid : ParticipantId) (userId sdpOffer : String) (replyTx : WsTx) :
    (st.handleJoin creds now sid pid userId sdpOffer replyTx).1.books =
      (st.joinActs creds now sid pid userId sdpOffer replyTx).foldl enter st.books := by
  rw [joinActs, List.foldl_append, ← books_kickPrior h]
  unfold handleJoin
  generalize st.kickPrior sid pid = st₁
  dsimp only
  rcases S.readOffer sdpOffer with e | offer
  · rfl
  · dsimp only
    rcases S.acceptOffer (S.sdpApi (st₁.buildRtc creds now)) offer with ⟨rtc, e | answer⟩
    · rfl
    · exact books_addParticipant st₁ sid pid userId replyTx rtc answer creds now

/-! ### Answers -/

/-- A key frame that is asked for has not been asked for within the interval. -/
theorem allows_of_sent {s : SfuSession S} {now : Instant} {key : TrackKey}
    (h : (s.requestKeyframeThrottled now key.1 key.2).2 = true) :
    s.books.Allows (.asked key now) := by
  rcases requestKeyframeThrottled_cases s now key with ⟨heq, -⟩ | ⟨p, rtc, hfree, hp, -, -⟩
  · rw [heq] at h
    cases h
  · refine ⟨?_, fun t ht hshort => ?_⟩
    · rw [tracksIn_eq, hp]
      rfl
    · rw [SfuSession.throttles, show s.lastKeyframeAt.lookup key = some t from ht] at hfree
      exact Bool.eq_false_iff.mp hfree (decide_eq_true hshort)

end SfuShard

/-- A loop of keyframe requests. -/
def SfuSession.requestKeyframes (s : SfuSession S) (now : Instant) (keys : List TrackKey) :
    SfuSession S :=
  keys.foldl (fun s k => (s.requestKeyframeThrottled now k.1 k.2).1) s

/-- The requests of the loop that are sent. -/
def SfuSession.sent (now : Instant) : List TrackKey → SfuSession S → List TrackKey
  | [], _ => []
  | k :: keys, s =>
    let r := s.requestKeyframeThrottled now k.1 k.2
    if r.2 then k :: r.1.sent now keys else r.1.sent now keys

namespace SfuShard

variable {st st' : SfuShard S} {sid : SessionId} {pid : ParticipantId}

/-- Requests of key frames enter those that are sent. -/
theorem books_requestKeyframes (s : SfuSession S) (now : Instant) (keys : List TrackKey) :
    (s.requestKeyframes now keys).books =
      ((s.sent now keys).map fun k => Books.Act.asked k now).foldl Books.act s.books := by
  induction keys generalizing s with
  | nil => rfl
  | cons k keys ih =>
    have hasked := books_requestKeyframeThrottled s now k
    rw [SfuSession.requestKeyframes, List.foldl_cons]
    refine (ih _).trans ?_
    rw [SfuSession.sent]
    split_ifs with hsent
    · rw [hasked, if_pos hsent]
      rfl
    · rw [hasked, if_neg hsent]

/-- All of them are allowed, each at its turn. -/
theorem allowed_sent {s : SfuSession S} {b : SessionId → Books} (h : b sid = s.books)
    (now : Instant) (keys : List TrackKey) :
    Allowed b ((s.sent now keys).map fun k => (sid, .asked k now)) := by
  induction keys generalizing s b with
  | nil => trivial
  | cons k keys ih =>
    have hasked := books_requestKeyframeThrottled s now k
    rw [SfuSession.sent]
    split_ifs with hsent
    · refine ⟨?_, ih ?_⟩
      · rw [h]
        exact allows_of_sent hsent
      · rw [hasked, if_pos hsent, enter, Function.update_self, h]
    · refine ih ?_
      rw [hasked, if_neg hsent, h]

/-- The requests that an answer sends, to the publishers of the tracks it opens. -/
def answerRequests (st : SfuShard S) (now : Instant) (sid : SessionId) (pid : ParticipantId)
    (sdpAnswer : String) : List TrackKey :=
  match st.session? sid with
  | none => []
  | some s =>
    match s.participants.lookup pid with
    | none => []
    | some p =>
      match S.readAnswer sdpAnswer, p.pendingOffer with
      | .ok answer, some pending =>
        match S.acceptAnswer (S.sdpApi p.rtc) pending answer with
        | (_, .error _) => []
        | (rtc, .ok ()) => (registerTracks s pid p rtc).sent now (newlyOpened p)
      | _, _ => []

/-- Entries of one session change its books only. -/
theorem foldl_enter (b : SessionId → Books) (sid : SessionId) (acts : List Books.Act) :
    (acts.map fun a => (sid, a)).foldl enter b =
      Function.update b sid (acts.foldl Books.act (b sid)) := by
  induction acts generalizing b with
  | nil => exact (Function.update_eq_self sid b).symm
  | cons a acts ih =>
    refine (ih (enter b (sid, a))).trans ?_
    rw [enter, Function.update_self, Function.update_idem]
    rfl

/-- Tracks that are registered for others are not in the books. -/
theorem books_registerTracks {s : SfuSession S} {p : SfuParticipant S}
    (hp : s.participants.lookup pid = some p) (rtc : S.Rtc) :
    (registerTracks s pid p rtc).books = s.books := by
  refine Books.ext (funext fun pid' => ?_) rfl
  change ((s.participants.insert pid _).lookup pid').map SfuParticipant.tracksIn =
    s.books.tracksIn pid'
  rw [Dict.lookup_insert_eq, tracksIn_eq]
  split_ifs with hpid
  · rw [hpid, hp]
    rfl
  · rfl

/-- **An answer**, whatever becomes of it. -/
theorem books_handleAnswer (st : SfuShard S) (now : Instant) (sid : SessionId)
    (pid : ParticipantId) (sdpAnswer : String) :
    (st.handleAnswer now sid pid sdpAnswer).1.books =
        ((st.answerRequests now sid pid sdpAnswer).map fun k => (sid, .asked k now)).foldl
          enter st.books ∧
      Allowed st.books
        ((st.answerRequests now sid pid sdpAnswer).map fun k => (sid, .asked k now)) := by
  unfold handleAnswer answerRequests
  rcases hs : st.session? sid with _ | s
  · exact ⟨rfl, trivial⟩
  dsimp only
  rcases hp : s.participants.lookup pid with _ | p
  · exact ⟨rfl, trivial⟩
  dsimp only
  rcases S.readAnswer sdpAnswer with e | answer
  · exact ⟨rfl, trivial⟩
  rcases hpending : p.pendingOffer with _ | pending
  · exact ⟨books_drainQueuedOffer st sid pid, trivial⟩
  dsimp only
  rcases S.acceptAnswer (S.sdpApi p.rtc) pending answer with ⟨rtc, e | ⟨⟩⟩
  · have hsame : (st.setParticipant sid pid { p with rtc := rtc, pendingOffer := none }).books =
        st.books := books_setParticipant_self (participant?_eq_some.mpr ⟨s, hs, hp⟩) rfl
    exact ⟨(books_drainQueuedOffer _ sid pid).trans hsame, trivial⟩
  · have hregistered := (books_registerTracks hp rtc).trans (books_of_session? hs).symm
    refine ⟨(books_drainQueuedOffer _ sid pid).trans ?_,
      allowed_sent hregistered.symm now (newlyOpened p)⟩
    have hasked := (books_requestKeyframes (registerTracks s pid p rtc) now (newlyOpened p))
    rw [hregistered] at hasked
    have henter := foldl_enter st.books sid
      (((registerTracks s pid p rtc).sent now (newlyOpened p)).map fun k => .asked k now)
    rw [List.map_map, ← hasked] at henter
    exact (books_setSession st sid (openTracks s now pid p rtc)).trans henter.symm

/-! ### Ticks -/

/-- Timeouts enter nothing. -/
theorem books_timeouts (st : SfuShard S) (now : Instant) : (st.timeouts now).books = st.books := by
  funext sid
  rw [books, books,
    show (st.timeouts now).session? sid = _ from Dict.lookup_mapVals _ st.sessions sid, session?]
  rcases AList.lookup sid st.sessions with _ | s
  · rfl
  · refine Books.ext (funext fun pid => ?_) rfl
    change ((Dict.mapVals _ s.participants).lookup pid).map SfuParticipant.tracksIn =
      (s.participants.lookup pid).map SfuParticipant.tracksIn
    rw [Dict.lookup_mapVals, Option.map_map]
    rfl

/-- The leaves of a tick. -/
def tickActs (st : SfuShard S) (now : Instant) : List (SessionId × Books.Act) :=
  ((st.timeouts now).zombies now).map fun e => (e.1, .left e.2)

/-- **A tick** enters the leaves of the zombies. -/
theorem books_tick (h : st.BooksSound) (now : Instant) :
    (st.tick now).books = (st.tickActs now).foldl enter st.books := by
  have htimeouts := books_timeouts st now
  have hsound := h.of_eq htimeouts
  rw [tick, tickActs, ← htimeouts]
  generalize (st.timeouts now).zombies now = zombies
  generalize st.timeouts now = st₁ at hsound
  induction zombies generalizing st₁ with
  | nil => rfl
  | cons e zombies ih =>
    rw [List.foldl_cons, List.map_cons, List.foldl_cons,
      ← books_handleLeave (hsound e.1) e.2]
    exact ih _ (hsound.handleLeave e.1 e.2)

/-! ### Steps -/

/-- The acts of a step of the shard. -/
def pieceActs (st : SfuShard S) : Piece S → List (SessionId × Books.Act)
  | .command (.join sid pid userId sdpOffer replyTx) creds now =>
    st.joinActs creds now sid pid userId sdpOffer replyTx
  | .command (.answer sid pid sdpAnswer) _ now =>
    (st.answerRequests now sid pid sdpAnswer).map fun k => (sid, .asked k now)
  | .command (.leave sid pid) _ _ => [(sid, .left pid)]
  | .turn sid pid now => (st.turnAct now sid pid).toList.map fun a => (sid, a)
  | .tick now => st.tickActs now
  | _ => []

/-- Who is polled, if the step is a turn. -/
def Piece.turn? : Piece S → Option (SessionId × ParticipantId)
  | .turn sid pid _ => some (sid, pid)
  | .panic sid pid _ _ _ => some (sid, pid)
  | _ => none

/-- The acts that a step may have done: of a turn in which a call panics, a packet at most. -/
def Does (st : SfuShard S) : Piece S → List (SessionId × Books.Act) → Prop
  | .panic sid pid now _ _, acts => acts = [] ∨ ∃ mid ext,
      st.turnAct now sid pid = some (.heard pid mid ext) ∧ acts = [(sid, .heard pid mid ext)]
  | i, acts => acts = st.pieceActs i

/-- **Where acts come from**: a packet is heard, and a track added, by the event of a turn. -/
theorem does_cases {i : Piece S} {acts : List (SessionId × Books.Act)} (h : st.Does i acts) :
    (∃ sid pid now a, i.turn? = some (sid, pid) ∧ st.turnAct now sid pid = some a ∧
      acts = [(sid, a)]) ∨
    ((∀ sid pid now, i = .turn sid pid now → st.turnAct now sid pid = none) ∧
      ∀ e ∈ acts, e.2.sparesTracks) := by
  cases i with
  | turn sid pid now =>
    obtain rfl : acts = (st.turnAct now sid pid).toList.map fun a => (sid, a) := h
    rcases hact : st.turnAct now sid pid with _ | a
    · refine .inr ⟨?_, nofun⟩
      rintro _ _ _ ⟨⟩
      exact hact
    · exact .inl ⟨sid, pid, now, a, rfl, hact, rfl⟩
  | panic sid pid now calls poison =>
    rcases h with rfl | ⟨mid, ext, hact, rfl⟩
    · exact .inr ⟨nofun, nofun⟩
    · exact .inl ⟨sid, pid, now, _, rfl, hact, rfl⟩
  | command cmd creds now =>
    refine .inr ⟨nofun, ?_⟩
    obtain rfl : acts = st.pieceActs (.command cmd creds now) := h
    cases cmd with
    | join sid pid userId sdpOffer replyTx =>
      intro e he
      rcases List.mem_append.mp he with hkicked | hjoined
      · rw [kicked] at hkicked
        split_ifs at hkicked
        · obtain rfl := List.mem_singleton.mp hkicked
          rfl
        · cases hkicked
      · generalize (st.handleJoin creds now sid pid userId sdpOffer replyTx).2 = target at hjoined
        rcases target with _ | target
        · cases hjoined
        · obtain rfl := List.mem_singleton.mp hjoined
          rfl
    | answer sid pid sdpAnswer =>
      intro e he
      obtain ⟨k, -, rfl⟩ := List.mem_map.mp he
      rfl
    | leave sid pid =>
      intro e he
      obtain rfl := List.mem_singleton.mp he
      rfl
    | _ => nofun
  | tick now =>
    obtain rfl : acts = st.tickActs now := h
    refine .inr ⟨nofun, fun e he => ?_⟩
    obtain ⟨z, -, rfl⟩ := List.mem_map.mp he
    rfl
  | _ =>
    obtain rfl : acts = [] := h
    exact .inr ⟨nofun, nofun⟩

/-- A key frame is asked for at the time of the event. -/
theorem time_of_eventAct {now t : Instant} {e : Event} {key : TrackKey}
    (h : st.eventAct now sid pid e = some (.asked key t)) : t = now := by
  cases e with
  | keyframeRequest mid =>
    dsimp only [eventAct] at h
    split at h
    · cases h
    · split at h
      · cases h
      · split_ifs at h
        exact (Books.Act.asked.inj (Option.some.inj h)).2.symm
  | rtpPacket pkt =>
    dsimp only [eventAct] at h
    split at h
    · cases h
    · split_ifs at h
      cases h
  | mediaAdded mid kind => cases h
  | iceConnectionStateChange state => cases h
  | egressBitrateEstimate kind => cases h
  | other => cases h

/-- What an event enters is allowed. -/
theorem allows_eventAct {now : Instant} {e : Event} {a : Books.Act}
    (h : st.eventAct now sid pid e = some a) : (st.books sid).Allows a := by
  cases e with
  | keyframeRequest mid =>
    dsimp only [eventAct] at h
    rcases hs : st.session? sid with _ | s
    · rw [hs] at h
      cases h
    · rw [hs] at h
      dsimp only at h
      split at h
      · cases h
      · rename_i t _
        split_ifs at h with hsent
        obtain rfl := Option.some.inj h
        rw [books_of_session? hs]
        exact @allows_of_sent S s now (t.origin, t.originMid) hsent
  | rtpPacket pkt =>
    dsimp only [eventAct] at h
    split at h
    · cases h
    · split_ifs at h
      obtain rfl := Option.some.inj h
      trivial
  | mediaAdded mid kind =>
    obtain rfl := Option.some.inj h
    trivial
  | iceConnectionStateChange state => cases h
  | egressBitrateEstimate kind => cases h
  | other => cases h

/-- The act of a turn is that of the event that is polled. -/
theorem exists_event_of_turnAct {now : Instant} {a : Books.Act}
    (h : st.turnAct now sid pid = some a) : ∃ p rtc e, st.participant? sid pid = some p ∧
      S.pollOutput p.rtc = (rtc, .ok (.event e)) ∧
      (st.setParticipant sid pid { p with rtc := rtc }).books = st.books ∧
      (st.setParticipant sid pid { p with rtc := rtc }).eventAct now sid pid e = some a := by
  rw [turnAct] at h
  rcases hp : st.participant? sid pid with _ | p
  · rw [hp] at h
    cases h
  · rw [hp] at h
    dsimp only at h
    split_ifs at h
    rcases hout : S.pollOutput p.rtc with ⟨rtc, e | out⟩
    · rw [hout] at h
      cases h
    · rw [hout] at h
      cases out with
      | event e => exact ⟨p, rtc, e, rfl, hout, books_setParticipant_self hp rfl, h⟩
      | transmit _ _ => cases h
      | timeout _ => cases h

/-- What a turn of the polls enters is allowed. -/
theorem allows_turnAct {now : Instant} {a : Books.Act} (h : st.turnAct now sid pid = some a) :
    (st.books sid).Allows a := by
  obtain ⟨p, rtc, e, -, -, hpolled, hevent⟩ := exists_event_of_turnAct h
  rw [← hpolled]
  exact allows_eventAct hevent

/-- What a join enters is allowed. -/
theorem allowed_joinActs (b : SessionId → Books) (creds : IceCreds) (now : Instant)
    (sid : SessionId) (pid : ParticipantId) (userId sdpOffer : String) (replyTx : WsTx) :
    Allowed b (st.joinActs creds now sid pid userId sdpOffer replyTx) := by
  refine allowed_of_forall (fun e he b => ?_) b
  rcases List.mem_append.mp he with hkicked | hjoined
  · rw [kicked] at hkicked
    split_ifs at hkicked
    · obtain rfl := List.mem_singleton.mp hkicked
      trivial
    · cases hkicked
  · generalize (st.handleJoin creds now sid pid userId sdpOffer replyTx).2 = target at hjoined
    rcases target with _ | target
    · cases hjoined
    · obtain rfl := List.mem_singleton.mp hjoined
      trivial

/-- What a tick enters is allowed. -/
theorem allowed_tickActs (b : SessionId → Books) (now : Instant) :
    Allowed b (st.tickActs now) := by
  refine allowed_of_forall (fun e he b => ?_) b
  obtain ⟨z, -, rfl⟩ := List.mem_map.mp he
  trivial

/-- **What a step writes into the books** it writes by its acts. -/
theorem books_perform {i : Piece S} (h : st.BooksSound) (hi : st.Happens leaves i) :
    ∃ acts, st.Does i acts ∧ Allowed st.books acts ∧
      (st.perform i).books = acts.foldl enter st.books := by
  have hsame (heq : (st.perform i).books = st.books) (hacts : st.Does i []) :
      ∃ acts, st.Does i acts ∧ Allowed st.books acts ∧
        (st.perform i).books = acts.foldl enter st.books :=
    ⟨[], hacts, trivial, heq⟩
  cases i with
  | command cmd creds now =>
    cases cmd with
    | join sid pid userId sdpOffer replyTx =>
      exact ⟨_, rfl, allowed_joinActs _ _ _ _ _ _ _ _,
        books_handleJoin h creds now sid pid userId sdpOffer replyTx⟩
    | answer sid pid sdpAnswer =>
      have hanswer := books_handleAnswer st now sid pid sdpAnswer
      exact ⟨_, rfl, hanswer.2, hanswer.1⟩
    | iceCandidate sid pid candidate mid =>
      refine hsame ?_ rfl
      dsimp only [perform, handleCommand, handleIceCandidate]
      split
      · rfl
      · rename_i hp
        split
        · rfl
        · exact books_setParticipant_self hp rfl
    | leave sid pid => exact ⟨_, rfl, ⟨trivial, trivial⟩, books_handleLeave (h sid) pid⟩
    | publishTrack sid pid source kind =>
      refine hsame ?_ rfl
      dsimp only [perform, handleCommand, handlePublishTrack]
      split
      · rfl
      · rename_i hp
        exact books_setParticipant_self hp rfl
    | clientOffer sid pid sdpOffer => exact hsame (books_handleClientOffer st sid pid sdpOffer) rfl
    | udpInput sid pid source data =>
      refine hsame ?_ rfl
      dsimp only [perform, handleCommand, handleUdpInput]
      split
      · rfl
      · rename_i hp
        split
        · rfl
        · split
          · rfl
          · split <;> exact books_setParticipant_self hp rfl
  | turn sid pid now =>
    have hturn := books_turn now sid pid st
    refine ⟨_, rfl, ?_, hturn.trans ?_⟩
    · rw [pieceActs]
      rcases hact : st.turnAct now sid pid with _ | a
      · trivial
      · exact ⟨allows_turnAct hact, trivial⟩
    · rw [pieceActs]
      cases st.turnAct now sid pid <;> rfl
  | panic sid pid now calls poison =>
    rcases books_panic hi.2 with heq | ⟨mid, ext, hact, heq⟩
    · exact hsame heq (.inl rfl)
    · exact ⟨_, .inr ⟨mid, ext, hact, rfl⟩, ⟨trivial, trivial⟩, heq⟩
  | tick now => exact ⟨_, rfl, allowed_tickActs _ now, books_tick h now⟩
  | flush e => exact hsame (books_congr rfl) rfl
  | negotiate => exact hsame ((books_foldl books_negotiateOne _ _).trans rfl) rfl
  | drain tx n => exact hsame rfl rfl
  | close tx => exact hsame rfl rfl
  | rehash => exact hsame rfl rfl

/-- A map that is hashed anew has the same books. -/
theorem books_rehashed (h : Rehashed st st') : st'.books = st.books := by
  funext sid
  have hrel := h.sessions sid
  rw [books, books]
  rcases hs : st.session? sid with _ | s
  · rw [hs] at hrel
    rw [hrel.none_left]
  · rw [hs] at hrel
    obtain ⟨s', hs', hreordered⟩ := hrel.some_left
    rw [hs']
    refine Books.ext (funext fun pid => ?_) (funext fun k => ?_)
    · exact congrArg (Option.map SfuParticipant.tracksIn)
        (AList.perm_lookup hreordered.participants.symm)
    · exact AList.perm_lookup hreordered.lastKeyframeAt.symm

/-- **The step lemma.** -/
theorem books_pieceStep {i : Piece S} (h : st.BooksSound) (hstep : PieceStep leaves st i st') :
    ∃ acts, st.Does i acts ∧ Allowed st.books acts ∧ st'.books = acts.foldl enter st.books := by
  cases hstep with
  | perform hi => exact books_perform h hi
  | rehash hr => exact ⟨[], rfl, trivial, books_rehashed hr⟩

/-- A new shard has no books, which are sound. -/
theorem booksSound_new (shardIndex : ℕ) (candidateAddrs : List SocketAddr)
    (zombieTimeout : Duration) :
    (new shardIndex candidateAddrs zombieTimeout : SfuShard S).BooksSound :=
  fun _ _ _ ht => by cases ht

/-- **The run lemma.** -/
theorem booksSound_of_reachable (h : (pieces leaves).Reachable st) : st.BooksSound := by
  refine h.invariant ?_ fun st i st' hsound _ hstep => ?_
  · rintro st ⟨_, _, _, rfl⟩
    exact booksSound_new _ _ _
  · obtain ⟨acts, -, hallowed, heq⟩ := books_pieceStep hsound hstep
    exact hsound.foldl hallowed heq

end SfuShard

end Video

end MateHub
