import MateHub.Lib.Room
import MateHub.Video.Sfu.Loop

/-!
# What most steps leave alone

Most of what a shard does changes nothing but the transports: it feeds datagrams
and candidates to them, polls them, writes packets into them, asks them for
keyframes. `MateHub.Video.SfuShard.Frame` is the relation between the states
before and after such a step: the same participants, with the same published
tracks, the same subscriptions in the same states, the same pending offers, and
the same forwarding lists; the transports have evolved by calls.

Subscriptions and tracks are compared as `Room` sees them, since the loudness of a
track and the sequence numbers of a subscription change with every packet.
-/

namespace MateHub

namespace Video

/-! ### Tracks as a room sees them -/

/-- A published track, by its mid, kind and source. -/
def TrackIn.track (t : TrackIn) : Room.Track Mid (MediaKind × Source) := ⟨t.mid, (t.kind, t.source)⟩

/-- The state of a subscription. -/
def TrackOutState.stage : TrackOutState → Room.Stage Mid
  | .toOpen => .waiting
  | .negotiating mid => .offered mid
  | .opened mid => .opened mid

/-- A subscription, without its sequence numbers. -/
def TrackOut.subscription (t : TrackOut) : Room.Subscription ParticipantId Mid (MediaKind × Source) :=
  ⟨t.origin, ⟨t.originMid, (t.kind, t.source)⟩, t.state.stage⟩

/-- The forwarding list of a track. -/
def SfuSession.targets {S : Str0m} (s : SfuSession S) (k : TrackKey) : List TrackKey :=
  (s.forwardingMap.lookup k).getD []

/-! ### The relation -/

variable {S : Str0m}

/-- The same participant, its transport further on. -/
structure SfuParticipant.Frame (p p' : SfuParticipant S) : Prop where
  id : p'.id = p.id
  wsTx : p'.wsTx = p.wsTx
  pendingOffer : p'.pendingOffer = p.pendingOffer
  tracksIn : p'.tracksIn.map TrackIn.track = p.tracksIn.map TrackIn.track
  tracksOut : p'.tracksOut.map TrackOut.subscription = p.tracksOut.map TrackOut.subscription
  rtc : S.Evolves p.rtc p'.rtc

/-- The same participants and the same forwarding lists; a list that is there and
empty may go, but none appears. -/
structure SfuSession.Frame (s s' : SfuSession S) : Prop where
  participants : ∀ pid,
    Option.Rel SfuParticipant.Frame (s.participants.lookup pid) (s'.participants.lookup pid)
  targets : ∀ k, s'.targets k = s.targets k
  noStale : ∀ k, s'.forwardingMap.lookup k = some [] → s.forwardingMap.lookup k = some []

/-- The same sessions; nobody that waits for an offer is forgotten. -/
structure SfuShard.Frame (st st' : SfuShard S) : Prop where
  sessions : ∀ sid, Option.Rel SfuSession.Frame (st.session? sid) (st'.session? sid)
  pendingNegotiation : ∀ e, e ∈ st.pendingNegotiation → e ∈ st'.pendingNegotiation

namespace SfuParticipant.Frame

theorem refl (p : SfuParticipant S) : p.Frame p := ⟨rfl, rfl, rfl, rfl, rfl, .refl⟩

theorem trans {p q r : SfuParticipant S} (h : p.Frame q) (h' : q.Frame r) : p.Frame r where
  id := h'.id.trans h.id
  wsTx := h'.wsTx.trans h.wsTx
  pendingOffer := h'.pendingOffer.trans h.pendingOffer
  tracksIn := h'.tracksIn.trans h.tracksIn
  tracksOut := h'.tracksOut.trans h.tracksOut
  rtc := h.rtc.trans h'.rtc

/-- A call on the transport. -/
theorem call {p : SfuParticipant S} {rtc : S.Rtc} (h : S.Call p.rtc rtc) :
    p.Frame { p with rtc := rtc } :=
  ⟨rfl, rfl, rfl, rfl, rfl, .single h⟩

end SfuParticipant.Frame

namespace SfuSession.Frame

theorem refl (s : SfuSession S) : s.Frame s where
  participants := fun _ => Option.Rel.refl SfuParticipant.Frame.refl _
  targets := fun _ => rfl
  noStale := fun _ hk => hk

theorem trans {s t u : SfuSession S} (h : s.Frame t) (h' : t.Frame u) : s.Frame u where
  participants := fun pid =>
    Option.Rel.trans (R := SfuParticipant.Frame) (·.trans) (h.participants pid) (h'.participants pid)
  targets := fun k => (h'.targets k).trans (h.targets k)
  noStale := fun k => h.noStale k ∘ h'.noStale k

/-- A participant is written back. -/
theorem setParticipant {s : SfuSession S} {pid : ParticipantId} {p p' : SfuParticipant S}
    (hp : s.participants.lookup pid = some p) (h : p.Frame p') : s.Frame (s.setParticipant pid p') where
  participants := fun pid' => by
    rw [show (s.setParticipant pid p').participants = s.participants.insert pid p' from rfl,
      Dict.lookup_insert_eq]
    by_cases hpid : pid' = pid
    · rw [if_pos hpid, hpid, hp]
      exact .some h
    · rw [if_neg hpid]
      exact Option.Rel.refl SfuParticipant.Frame.refl _
  targets := fun _ => rfl
  noStale := fun _ hk => hk

/-- Every participant is updated. -/
theorem mapVals {s : SfuSession S} {f : ParticipantId → SfuParticipant S → SfuParticipant S}
    (h : ∀ pid (p : SfuParticipant S), p.Frame (f pid p)) :
    s.Frame { s with participants := s.participants.mapVals f } where
  participants := fun pid => by
    rw [Dict.lookup_mapVals]
    cases s.participants.lookup pid with
    | none => exact .none
    | some p => exact .some (h pid p)
  targets := fun _ => rfl
  noStale := fun _ hk => hk

/-- `request_keyframe_throttled` only calls on the publisher's transport. -/
theorem requestKeyframeThrottled (s : SfuSession S) (now : Instant) (pid : ParticipantId)
    (mid : Mid) : s.Frame (s.requestKeyframeThrottled now pid mid).1 := by
  unfold SfuSession.requestKeyframeThrottled
  dsimp only
  split
  · exact refl s
  · split
    · exact refl s
    · rename_i p hp
      split
      · exact refl s
      · rename_i rtc hrtc
        have h := setParticipant hp (.call (.requestKeyframe hrtc))
        exact ⟨h.participants, h.targets, h.noStale⟩

theorem foldl_requestKeyframe (now : Instant) (ks : List TrackKey) (s : SfuSession S) :
    s.Frame (ks.foldl (fun s k => (s.requestKeyframeThrottled now k.1 k.2).1) s) := by
  induction ks generalizing s with
  | nil => exact refl s
  | cons k ks ih => exact (requestKeyframeThrottled s now k.1 k.2).trans (ih _)

end SfuSession.Frame

namespace SfuShard

/-! ### Reading after writing -/

@[simp] theorem session?_setSession (st : SfuShard S) (sid sid' : SessionId) (s : SfuSession S) :
    (st.setSession sid s).session? sid' = if sid' = sid then some s else st.session? sid' :=
  Dict.lookup_insert_eq st.sessions sid sid' s

@[simp] theorem session?_setParticipant (st : SfuShard S) (sid sid' : SessionId)
    (pid : ParticipantId) (p : SfuParticipant S) :
    (st.setParticipant sid pid p).session? sid' =
      if sid' = sid then (st.session? sid').map fun s => s.setParticipant pid p
      else st.session? sid' :=
  Dict.lookup_modify st.sessions sid sid' _

@[simp] theorem session?_wsTrySend (st : SfuShard S) (tx : WsTx) (msg : ServerMessage)
    (sid : SessionId) : (st.wsTrySend tx msg).session? sid = st.session? sid :=
  rfl

theorem participant?_eq_some {st : SfuShard S} {sid : SessionId} {pid : ParticipantId}
    {p : SfuParticipant S} : st.participant? sid pid = some p ↔
      ∃ s, st.session? sid = some s ∧ s.participants.lookup pid = some p :=
  Option.bind_eq_some_iff

/-! ### What a handler writes -/

/-- **An offer of a client, by cases**: it is not read, queued, refused, or answered. -/
@[elab_as_elim] theorem handleClientOffer_cases {P : SfuShard S → Prop} {st : SfuShard S}
    {sid : SessionId} {pid : ParticipantId} {sdpOffer : String} (unread : P st)
    (queued : ∀ {p}, st.participant? sid pid = some p →
      P (st.setParticipant sid pid { p with queuedClientOffer := some sdpOffer }))
    (refused : ∀ {p offer rtc e}, st.participant? sid pid = some p →
      S.acceptOffer (S.sdpApi p.rtc) offer = (rtc, .error e) →
      P (st.setParticipant sid pid { p with rtc := rtc }))
    (answered : ∀ {p offer rtc answer}, st.participant? sid pid = some p →
      S.acceptOffer (S.sdpApi p.rtc) offer = (rtc, .ok answer) →
      P ((st.setParticipant sid pid { p with rtc := rtc }).wsTrySend p.wsTx
        (.answer (S.answerText answer) pid))) :
    P (st.handleClientOffer sid pid sdpOffer).1 := by
  unfold handleClientOffer
  split
  · exact unread
  · split
    · exact unread
    · rename_i hp
      split
      · exact queued hp
      · split
        · rename_i heq
          exact refused hp heq
        · rename_i heq
          exact answered hp heq

/-- **A turn of the loop over dead lines, by cases**: there is nothing to offer, the change is
dropped or gives no offer, or an offer is made. -/
@[elab_as_elim] theorem deactivate_cases {P : SfuShard S → Prop} {sid : SessionId}
    {st : SfuShard S} {entry : ParticipantId × List Mid} (same : P st)
    (dropped : ∀ {p}, st.participant? sid entry.1 = some p → P (st.setParticipant sid entry.1
      { p with
        rtc := S.dropChange (entry.2.foldl (fun c mid => S.setDirection c mid .inactive)
          (S.sdpApi p.rtc)) }))
    (unsent : ∀ {p rtc}, st.participant? sid entry.1 = some p →
      S.apply (entry.2.foldl (fun c mid => S.setDirection c mid .inactive) (S.sdpApi p.rtc)) =
        (rtc, none) → P (st.setParticipant sid entry.1 { p with rtc := rtc }))
    (offered : ∀ {p rtc offer pending}, st.participant? sid entry.1 = some p →
      p.pendingOffer = none →
      S.hasChanges (entry.2.foldl (fun c mid => S.setDirection c mid .inactive)
        (S.sdpApi p.rtc)) = true →
      S.apply (entry.2.foldl (fun c mid => S.setDirection c mid .inactive) (S.sdpApi p.rtc)) =
        (rtc, some (offer, pending)) →
      P ((st.setParticipant sid entry.1
        { p with rtc := rtc, pendingOffer := some pending }).wsTrySend p.wsTx
          (.offer (S.offerText offer) none))) : P (deactivate sid st entry) := by
  unfold deactivate
  split
  · exact same
  · rename_i hp
    split
    · exact same
    · rename_i hpending
      dsimp only
      split
      · exact dropped hp
      · rename_i hchanges
        split
        · rename_i heq
          exact unsent hp heq
        · rename_i heq
          exact offered hp (by simpa using hpending) (by simpa using hchanges) heq

/-- **A turn of the negotiations, by cases**: nobody is there, an answer is awaited, there is
nothing to open, the change gives no offer, or an offer is made. -/
@[elab_as_elim] theorem negotiateOne_cases {P : SfuShard S → Prop} {st : SfuShard S}
    {e : SessionId × ParticipantId} (gone : P st)
    (awaiting : ∀ {p}, st.participant? e.1 e.2 = some p →
      P { st with pendingNegotiation := st.pendingNegotiation.insert e () })
    (dropped : ∀ {p}, st.participant? e.1 e.2 = some p →
      P (st.setParticipant e.1 e.2 { p with rtc := S.dropChange (S.sdpApi p.rtc) }))
    (unsent : ∀ {p rtc}, st.participant? e.1 e.2 = some p → p.pendingOffer = none →
      hasToOpen p = true → S.apply (stageTracks (S.sdpApi p.rtc) p.tracksOut).1 = (rtc, none) →
      P (st.setParticipant e.1 e.2
        { p with rtc := rtc, tracksOut := (stageTracks (S.sdpApi p.rtc) p.tracksOut).2 }))
    (offered : ∀ {p rtc offer pending tracks}, st.participant? e.1 e.2 = some p →
      p.pendingOffer = none → hasToOpen p = true →
      S.apply (stageTracks (S.sdpApi p.rtc) p.tracksOut).1 = (rtc, some (offer, pending)) →
      P ((st.setParticipant e.1 e.2
        { p with
          rtc := rtc
          tracksOut := (stageTracks (S.sdpApi p.rtc) p.tracksOut).2
          pendingOffer := some pending }).wsTrySend p.wsTx
            (.offer (S.offerText offer) tracks))) : P (negotiateOne st e) := by
  unfold negotiateOne
  split
  · exact gone
  · rename_i s hs
    split
    · exact gone
    · rename_i p hlook
      have hp := participant?_eq_some.mpr ⟨s, hs, hlook⟩
      split
      · exact awaiting hp
      · rename_i hpending
        have hpending : p.pendingOffer = none := by simpa using hpending
        split
        · exact dropped hp
        · rename_i hopen
          dsimp only
          split
          · rename_i heq
            exact unsent hp hpending (by simpa using hopen) heq
          · rename_i heq
            exact offered hp hpending (by simpa using hopen) heq

namespace Frame

theorem refl (st : SfuShard S) : st.Frame st :=
  ⟨fun _ => Option.Rel.refl SfuSession.Frame.refl _, fun _ => id⟩

theorem trans {st st' st'' : SfuShard S} (h : st.Frame st') (h' : st'.Frame st'') :
    st.Frame st'' where
  sessions := fun sid =>
    Option.Rel.trans (R := SfuSession.Frame) (·.trans) (h.sessions sid) (h'.sessions sid)
  pendingNegotiation := fun e => h'.pendingNegotiation e ∘ h.pendingNegotiation e

/-- A change of the tables beside the sessions. -/
theorem of_eq {st st' : SfuShard S} (h : st'.sessions = st.sessions)
    (hp : ∀ e, e ∈ st.pendingNegotiation → e ∈ st'.pendingNegotiation) : st.Frame st' where
  sessions := fun sid => by
    rw [session?, session?, h]
    exact Option.Rel.refl SfuSession.Frame.refl _
  pendingNegotiation := hp

theorem wsTrySend (st : SfuShard S) (tx : WsTx) (msg : ServerMessage) :
    st.Frame (st.wsTrySend tx msg) :=
  of_eq rfl fun _ => id

/-- A session is written back. -/
theorem setSession {st : SfuShard S} {sid : SessionId} {s s' : SfuSession S}
    (hs : st.session? sid = some s) (h : s.Frame s') : st.Frame (st.setSession sid s') where
  sessions := fun sid' => by
    rw [session?_setSession]
    by_cases hsid : sid' = sid
    · rw [if_pos hsid, hsid, hs]
      exact .some h
    · rw [if_neg hsid]
      exact Option.Rel.refl SfuSession.Frame.refl _
  pendingNegotiation := fun _ => id

/-- One session or another is written. -/
theorem setSession_setSession (st : SfuShard S) (sid : SessionId) {s s' : SfuSession S}
    (h : s.Frame s') : (st.setSession sid s).Frame (st.setSession sid s') where
  sessions := fun sid' => by
    rw [session?_setSession, session?_setSession]
    by_cases hsid : sid' = sid
    · rw [if_pos hsid, if_pos hsid]
      exact .some h
    · rw [if_neg hsid, if_neg hsid]
      exact Option.Rel.refl SfuSession.Frame.refl _
  pendingNegotiation := fun _ he => he

/-- A participant is written back. -/
theorem setParticipant {st : SfuShard S} {sid : SessionId} {pid : ParticipantId}
    {p p' : SfuParticipant S} (hp : st.participant? sid pid = some p) (h : p.Frame p') :
    st.Frame (st.setParticipant sid pid p') where
  sessions := fun sid' => by
    rw [session?_setParticipant]
    by_cases hsid : sid' = sid
    · obtain ⟨s, hs, hpid⟩ := participant?_eq_some.mp hp
      rw [if_pos hsid, hsid, hs]
      exact .some (.setParticipant hpid h)
    · rw [if_neg hsid]
      exact Option.Rel.refl SfuSession.Frame.refl _
  pendingNegotiation := fun _ => id

/-- A loop of steps that each leave the frame alone. -/
theorem foldl {α : Type*} {f : SfuShard S → α → SfuShard S}
    (h : ∀ (st : SfuShard S) a, st.Frame (f st a))
    (l : List α) (st : SfuShard S) : st.Frame (l.foldl f st) :=
  List.foldlRecOn l f (refl st) fun _ ih a _ => ih.trans (h _ a)

/-- The participant a frame leads to. -/
theorem participant {st st' : SfuShard S} (h : st.Frame st') (sid : SessionId)
    (pid : ParticipantId) :
    Option.Rel SfuParticipant.Frame (st.participant? sid pid) (st'.participant? sid pid) := by
  have hs := h.sessions sid
  unfold participant?
  cases hst : st.session? sid with
  | none =>
    rw [hst] at hs
    rw [hs.none_left]
    exact .none
  | some s =>
    rw [hst] at hs
    obtain ⟨s', hs', hf⟩ := hs.some_left
    rw [hs']
    exact hf.participants pid

/-- The maps of the shard in another order. -/
theorem rehashed {st st' : SfuShard S} (h : Rehashed st st') : st.Frame st' where
  sessions := fun sid => by
    have hs := h.sessions sid
    cases hst : st.session? sid with
    | none =>
      rw [hst] at hs
      rw [hs.none_left]
      exact .none
    | some s =>
      rw [hst] at hs
      obtain ⟨s', hs', hr⟩ := hs.some_left
      rw [hs']
      refine .some ⟨fun pid => ?_, fun k => ?_, fun k => ?_⟩
      · rw [AList.perm_lookup hr.participants]
        exact Option.Rel.refl SfuParticipant.Frame.refl _
      · rw [SfuSession.targets, SfuSession.targets, AList.perm_lookup hr.forwardingMap]
      · rw [AList.perm_lookup hr.forwardingMap]
        exact id
  pendingNegotiation := fun _ he => (AList.mem_of_perm h.pendingNegotiation).mp he

end Frame

/-! ### The handlers that leave the frame alone -/

theorem frame_handlePublishTrack (st : SfuShard S) (sid : SessionId) (pid : ParticipantId)
    (source : Source) (kind : MediaKind) : st.Frame (st.handlePublishTrack sid pid source kind).1 := by
  unfold handlePublishTrack
  split
  · exact .refl st
  · rename_i p hp
    exact .setParticipant hp ⟨rfl, rfl, rfl, rfl, rfl, .refl⟩

theorem frame_handleClientOffer (st : SfuShard S) (sid : SessionId) (pid : ParticipantId)
    (sdpOffer : String) : st.Frame (st.handleClientOffer sid pid sdpOffer).1 := by
  refine handleClientOffer_cases (.refl st)
    (fun hp => .setParticipant hp ⟨rfl, rfl, rfl, rfl, rfl, .refl⟩)
    (fun {p offer _ _} hp heq => ?_) fun {p offer _ _} hp heq => ?_
  · have hcall := Str0m.Call.acceptOffer p.rtc offer
    rw [heq] at hcall
    exact .setParticipant hp (.call hcall)
  · have hcall := Str0m.Call.acceptOffer p.rtc offer
    rw [heq] at hcall
    exact (Frame.setParticipant hp (.call hcall)).trans (.wsTrySend _ _ _)

theorem frame_handleIceCandidate (st : SfuShard S) (sid : SessionId) (pid : ParticipantId)
    (candidate : String) : st.Frame (st.handleIceCandidate sid pid candidate).1 := by
  unfold handleIceCandidate
  split
  · exact .refl st
  · rename_i p hp
    split
    · exact .refl st
    · exact .setParticipant hp (.call (.addRemoteCandidate _ _))

theorem frame_handleUdpInput (st : SfuShard S) (now : Instant) (sid : SessionId)
    (pid : ParticipantId) (source : SocketAddr) (data : List UInt8) :
    st.Frame (st.handleUdpInput now sid pid source data).1 := by
  unfold handleUdpInput
  split
  · exact .refl st
  · rename_i p hp
    split
    · exact .refl st
    · rename_i contents _
      have hcall := Str0m.Call.handleReceive p.rtc now source st.primaryCandidateAddr contents
      split
      · exact .refl st
      · split
        · rename_i heq
          rw [heq] at hcall
          exact .setParticipant hp
            ⟨rfl, rfl, rfl, rfl, rfl, .tail (.single hcall) (.disconnect _)⟩
        · rename_i heq
          rw [heq] at hcall
          exact .setParticipant hp ⟨rfl, rfl, rfl, rfl, rfl, .single hcall⟩

theorem frame_drainQueuedOffer (st : SfuShard S) (sid : SessionId) (pid : ParticipantId) :
    st.Frame (st.drainQueuedOffer sid pid) := by
  unfold drainQueuedOffer
  split
  · exact .refl st
  · rename_i p hp
    split
    · exact .refl st
    · have h : p.Frame { p with queuedClientOffer := none } := ⟨rfl, rfl, rfl, rfl, rfl, .refl⟩
      exact (Frame.setParticipant hp h).trans (frame_handleClientOffer _ _ _ _)

theorem frame_popSourceHint (s : SfuSession S) (pid : ParticipantId) (kind : MediaKind) :
    s.Frame { s with
      participants := s.participants.modify pid fun p => (popSourceHint p kind).1 } where
  participants := fun q => by
    rw [Dict.lookup_modify]
    by_cases hq : q = pid
    · rw [if_pos hq, hq]
      cases s.participants.lookup pid with
      | none => exact .none
      | some p =>
        refine .some (show p.Frame (popSourceHint p kind).1 from ?_)
        unfold popSourceHint
        split <;> exact ⟨rfl, rfl, rfl, rfl, rfl, .refl⟩
    · rw [if_neg hq]
      exact Option.Rel.refl SfuParticipant.Frame.refl _
  targets := fun _ => rfl
  noStale := fun _ hk => hk

/-! ### Forwarding leaves the frame alone -/

/-- Updating the first element that passes a test does not change what is read of
every element. -/
theorem map_replaceF {α β : Type*} {f : α → Option α} {g : α → β} {l : List α}
    (h : ∀ a a', f a = some a' → g a' = g a) : (l.replaceF f).map g = l.map g := by
  induction l with
  | nil => rfl
  | cons a l ih =>
    cases hf : f a with
    | none => simp only [List.replaceF_cons_of_none _ hf, List.map_cons, ih]
    | some a' => simp only [List.replaceF_cons_of_some _ hf, List.map_cons, h a a' hf]

theorem subscription_rewriteSeq (t : TrackOut) (ssrc : Ssrc) (seqNo : ℕ) :
    (t.rewriteSeq ssrc seqNo).1.subscription = t.subscription :=
  rfl

theorem track_hear (t : TrackIn) (ext : ExtensionValues) : (t.hear ext).track = t.track := by
  unfold TrackIn.hear
  split
  · split
    · split <;> rfl
    · rfl
  · rfl

theorem frame_advanceSeq (p : SfuParticipant S) (mid : Mid) (pkt : RtpPacket) :
    p.Frame (advanceSeq p mid pkt) where
  id := rfl
  wsTx := rfl
  pendingOffer := rfl
  tracksIn := rfl
  tracksOut := map_replaceF fun t t' ht => by
    obtain ⟨-, ht⟩ := Option.ite_none_right_eq_some.mp ht
    rw [← Option.some.inj ht, subscription_rewriteSeq]
  rtc := .refl

theorem frame_hearPacket (p : SfuParticipant S) (mid : Mid) (pkt : RtpPacket) :
    p.Frame (hearPacket p mid pkt) where
  id := rfl
  wsTx := rfl
  pendingOffer := rfl
  tracksIn := map_replaceF fun t t' ht => by
    obtain ⟨-, ht⟩ := Option.ite_none_right_eq_some.mp ht
    rw [← Option.some.inj ht, track_hear]
  tracksOut := rfl
  rtc := .refl

theorem frame_forwardTo (sid : SessionId) (pkt : RtpPacket) (kind : MediaKind)
    (pp : S.PayloadParams) (st : SfuShard S) (target : TrackKey) :
    st.Frame (forwardTo sid pkt kind pp st target) := by
  unfold forwardTo
  split
  · exact .refl st
  · rename_i p hp
    split
    · exact .refl st
    · split
      · exact .refl st
      · have hf := frame_advanceSeq p target.2 pkt
        dsimp only
        split
        · exact .setParticipant hp hf
        · rename_i hrtc
          have h := Frame.setParticipant hp (hf.trans (.call (.writeRtp hrtc)))
          exact ⟨h.sessions, h.pendingNegotiation⟩

/-- The forwarding map of a session. -/
def forwardingMap? (st : SfuShard S) (sid : SessionId) : Option (Dict TrackKey (List TrackKey)) :=
  (st.session? sid).map SfuSession.forwardingMap

theorem forwardingMap?_setParticipant (st : SfuShard S) (sid sid' : SessionId)
    (pid : ParticipantId) (p : SfuParticipant S) :
    (st.setParticipant sid pid p).forwardingMap? sid' = st.forwardingMap? sid' := by
  rw [forwardingMap?, forwardingMap?, session?_setParticipant]
  split
  · rw [Option.map_map]
    rfl
  · rfl

theorem forwardingMap?_forwardTo (sid sid' : SessionId) (pkt : RtpPacket) (kind : MediaKind)
    (pp : S.PayloadParams) (st : SfuShard S) (target : TrackKey) :
    (forwardTo sid pkt kind pp st target).forwardingMap? sid' = st.forwardingMap? sid' := by
  unfold forwardTo
  split
  · rfl
  · split
    · rfl
    · split
      · rfl
      · dsimp only
        split
        · exact forwardingMap?_setParticipant _ _ _ _ _
        · exact forwardingMap?_setParticipant st sid sid' target.1 _

theorem forwardingMap?_foldl {α : Type*} {f : SfuShard S → α → SfuShard S}
    (h : ∀ (st : SfuShard S) a sid, (f st a).forwardingMap? sid = st.forwardingMap? sid) (l : List α)
    (st : SfuShard S) (sid : SessionId) :
    (l.foldl f st).forwardingMap? sid = st.forwardingMap? sid := by
  induction l generalizing st with
  | nil => rfl
  | cons a l ih => exact (ih _).trans (h st a sid)

theorem session?_setTargets (st : SfuShard S) (sid sid' : SessionId) (key : TrackKey)
    (targets : List TrackKey) :
    (st.setTargets sid key targets).session? sid' = if sid' = sid then
      (st.session? sid').map fun s =>
        { s with forwardingMap := s.forwardingMap.modify key fun _ => targets }
    else st.session? sid' :=
  Dict.lookup_modify st.sessions sid sid' _

/-- Updating one session in place. -/
theorem Frame.modify {st : SfuShard S} {sid : SessionId} {f : SfuSession S → SfuSession S}
    (h : ∀ s, st.session? sid = some s → s.Frame (f s)) :
    st.Frame { st with sessions := st.sessions.modify sid f } where
  sessions := fun sid' => by
    rw [show SfuShard.session? { st with sessions := st.sessions.modify sid f } sid' = _ from
      Dict.lookup_modify st.sessions sid sid' f]
    by_cases hsid : sid' = sid
    · rw [if_pos hsid, hsid]
      cases hs : st.session? sid with
      | none =>
        rw [show st.sessions.lookup sid = none from hs]
        exact .none
      | some s =>
        rw [show st.sessions.lookup sid = some s from hs]
        exact .some (h s hs)
    · rw [if_neg hsid]
      exact Option.Rel.refl SfuSession.Frame.refl _
  pendingNegotiation := fun _ he => he

/-- **Forwarding changes no forwarding list**: the list taken out for the time of
the loop is put back, whatever the loop did to the participants. -/
theorem frame_forwardToAll {st : SfuShard S} {sid : SessionId} {key : TrackKey}
    {forward : SfuShard S → TrackKey → SfuShard S}
    (h : ∀ (st : SfuShard S) t, st.Frame (forward st t))
    (hmap : ∀ (st : SfuShard S) t sid, (forward st t).forwardingMap? sid = st.forwardingMap? sid) :
    st.Frame (st.forwardToAll sid key forward) := by
  unfold forwardToAll
  split
  · exact .refl st
  · rename_i hkey
    obtain ⟨s, hs, hempty⟩ := Option.bind_eq_some_iff.mp hkey
    refine .modify fun s' hs' => ?_
    obtain rfl : s = s' := Option.some.inj (hs.symm.trans hs')
    refine ⟨fun _ => Option.Rel.refl SfuParticipant.Frame.refl _, fun k => ?_, fun k hk => ?_⟩
    · rw [SfuSession.targets, SfuSession.targets, Dict.lookup_erase_eq]
      by_cases hk : k = key
      · rw [if_pos hk, hk, hempty, Option.getD_none, Option.getD_some]
      · rw [if_neg hk]
    · rw [Dict.lookup_erase_eq] at hk
      by_cases hkk : k = key
      · rw [if_pos hkk] at hk
        cases hk
      · rwa [if_neg hkk] at hk
  · rename_i targets _ hkey
    obtain ⟨s, hs, htargets⟩ := Option.bind_eq_some_iff.mp hkey
    have hloop := Frame.foldl h targets (st.setTargets sid key [])
    have hloopMap := forwardingMap?_foldl hmap targets (st.setTargets sid key []) sid
    generalize targets.foldl forward (st.setTargets sid key []) = st₂ at hloop hloopMap ⊢
    refine ⟨fun sid' => ?_, hloop.pendingNegotiation⟩
    have hrel := hloop.sessions sid'
    rw [session?_setTargets] at hrel ⊢
    by_cases hsid : sid' = sid
    · subst hsid
      rw [if_pos rfl, hs, Option.map_some] at hrel
      obtain ⟨s₂, hs₂, hf⟩ := hrel.some_left
      have hm : s₂.forwardingMap = s.forwardingMap.modify key fun _ => [] := by
        rw [forwardingMap?, forwardingMap?, hs₂, session?_setTargets, if_pos rfl, hs] at hloopMap
        exact Option.some.inj hloopMap
      have hlookup : ∀ k, (s₂.forwardingMap.modify key fun _ => targets).lookup k =
          s.forwardingMap.lookup k := by
        intro k
        rw [hm, Dict.lookup_modify, Dict.lookup_modify]
        rcases eq_or_ne k key with rfl | hk
        · simp [htargets]
        · simp [hk]
      rw [if_pos rfl, hs₂, hs]
      refine .some ⟨hf.participants, fun k => ?_, fun k hk => ?_⟩
      · rw [SfuSession.targets, SfuSession.targets, hlookup]
      · rwa [hlookup] at hk
    · rw [if_neg hsid] at hrel ⊢
      exact hrel

theorem frame_forwardRtp (st : SfuShard S) (sid : SessionId) (pid : ParticipantId) (mid : Mid)
    (pkt : RtpPacket) : st.Frame (st.forwardRtp sid pid mid pkt) := by
  unfold forwardRtp
  split
  · exact .refl st
  · rename_i s hs
    split
    · exact .refl st
    · rename_i p hp
      split
      · exact .refl st
      · have hf : st.Frame (st.setParticipant sid pid (hearPacket p mid pkt)) :=
          .setParticipant (participant?_eq_some.mpr ⟨s, hs, hp⟩) (frame_hearPacket p mid pkt)
        dsimp only
        split
        · exact hf
        · split
          · exact hf
          · split
            · exact hf
            · exact hf.trans (frame_forwardToAll (fun st t => frame_forwardTo sid pkt _ _ st t)
                fun st t sid' => forwardingMap?_forwardTo sid sid' pkt _ _ st t)

end SfuShard

end Video

end MateHub
