import MateHub.Video.Sfu.Signals
import MateHub.Video.Sfu.Negotiator

/-!
# What touches the exchange of a participant

The offer that awaits an answer and the offer of the client that is queued behind it are
touched by few steps of the shard. Polling, forwarding and ticks leave both alone
(`MateHub.Video.SfuShard.Quiet`). An offer for queued tracks, and the one with which the
shard takes tracks out, is made where none awaits an answer, and leaves the queued one alone
(`MateHub.Video.SfuShard.Keeps`); so do the commands for other participants. A join makes a
participant for whom nothing is pending and nothing queued.
-/

namespace MateHub

namespace Video

namespace Negotiator

variable {S : Str0m}

theorem SameExchange.refl (p : SfuParticipant S) : SameExchange p p := ⟨rfl, rfl, rfl⟩

theorem SameExchange.trans {p q r : SfuParticipant S} (h : SameExchange p q)
    (h' : SameExchange q r) : SameExchange p r :=
  ⟨h'.wsTx.trans h.wsTx, h'.pendingOffer.trans h.pendingOffer,
    h'.queuedClientOffer.trans h.queuedClientOffer⟩

end Negotiator

namespace SfuShard

open Negotiator (SameExchange rel_requestKeyframe rel_foldl_requestKeyframe takeAnswer)

variable {S : Str0m} {st st' st'' : SfuShard S} {sid : SessionId} {pid : ParticipantId}

/-! ### Steps that leave every exchange alone -/

/-- Every participant is there or not as before, with the same exchange. -/
def Quiet (st st' : SfuShard S) : Prop :=
  ∀ sid pid, Option.Rel SameExchange (st.participant? sid pid) (st'.participant? sid pid)

namespace Quiet

theorem refl (st : SfuShard S) : st.Quiet st := fun _ _ => Option.Rel.refl SameExchange.refl _

theorem trans (h : st.Quiet st') (h' : st'.Quiet st'') : st.Quiet st'' := fun sid pid =>
  Option.Rel.trans (R := SameExchange) SameExchange.trans (h sid pid) (h' sid pid)

/-- A step that leaves the sessions is quiet. -/
theorem of_eq (h : st'.sessions = st.sessions) : st.Quiet st' := by
  intro sid pid
  rw [participant?, participant?, session?, session?, h]
  exact Option.Rel.refl SameExchange.refl _

/-- Quiet steps along a list are quiet. -/
theorem foldl {α : Type*} {f : SfuShard S → α → SfuShard S}
    (h : ∀ (st : SfuShard S) a, st.Quiet (f st a)) (l : List α) (st : SfuShard S) :
    st.Quiet (l.foldl f st) :=
  List.foldlRecOn l f (refl st) fun _ ih a _ => ih.trans (h _ a)

/-- A participant is written back. -/
theorem setParticipant {p p' : SfuParticipant S} (hp : st.participant? sid pid = some p)
    (h : SameExchange p p') : st.Quiet (st.setParticipant sid pid p') := by
  intro sid' pid'
  rw [participant?_setParticipant hp]
  split_ifs with heq
  · rw [heq.1, heq.2, hp]
    exact .some h
  · exact Option.Rel.refl SameExchange.refl _

/-- A session is written back. -/
theorem setSession {s s' : SfuSession S} (hs : st.session? sid = some s)
    (h : ∀ pid, Option.Rel SameExchange (s.participants.lookup pid) (s'.participants.lookup pid)) :
    st.Quiet (st.setSession sid s') := by
  intro sid' pid
  rw [participant?_setSession]
  split_ifs with hsid
  · rw [participant?, hsid, hs]
    exact h pid
  · exact Option.Rel.refl SameExchange.refl _

/-- The participants of a session are left alone. -/
theorem modify {f : SfuSession S → SfuSession S}
    (h : ∀ s, (f s).participants = s.participants) :
    st.Quiet { st with sessions := st.sessions.modify sid f } := by
  intro sid' pid
  have hlook : session? { st with sessions := st.sessions.modify sid f } sid' =
      if sid' = sid then (st.session? sid').map f else st.session? sid' :=
    Dict.lookup_modify st.sessions sid sid' f
  rw [participant?, participant?, hlook]
  split_ifs
  · rcases st.session? sid' with _ | s
    · exact .none
    · rw [Option.map_some, Option.bind_some, Option.bind_some, h]
      exact Option.Rel.refl SameExchange.refl _
  · exact Option.Rel.refl SameExchange.refl _

end Quiet

/-- Writing the targets of a track is quiet. -/
theorem quiet_setTargets (st : SfuShard S) (sid : SessionId) (key : TrackKey)
    (targets : List TrackKey) : st.Quiet (st.setTargets sid key targets) :=
  .modify fun _ => rfl

/-- A packet to a target is quiet. -/
theorem quiet_forwardTo (sid : SessionId) (pkt : RtpPacket) (kind : MediaKind)
    (pp : S.PayloadParams) (st : SfuShard S) (target : TrackKey) :
    st.Quiet (forwardTo sid pkt kind pp st target) := by
  unfold forwardTo
  split
  · exact .refl st
  · rename_i p hp
    split
    · exact .refl st
    · split
      · exact .refl st
      · dsimp only
        split
        · exact .setParticipant hp ⟨rfl, rfl, rfl⟩
        · rename_i rtc _
          have hset : st.Quiet (st.setParticipant sid target.1
              { advanceSeq p target.2 pkt with rtc := rtc }) := .setParticipant hp ⟨rfl, rfl, rfl⟩
          exact hset

/-- A packet to all targets is quiet if each single one is. -/
theorem quiet_forwardToAll (sid : SessionId) (key : TrackKey)
    {forward : SfuShard S → TrackKey → SfuShard S}
    (h : ∀ (st : SfuShard S) target, st.Quiet (forward st target)) (st : SfuShard S) :
    st.Quiet (st.forwardToAll sid key forward) := by
  unfold forwardToAll
  split
  · exact .refl st
  · exact .modify fun _ => rfl
  · exact (quiet_setTargets st sid key []).trans
      ((Quiet.foldl h _ _).trans (quiet_setTargets _ sid key _))

/-- **A packet** is quiet. -/
theorem quiet_forwardRtp (st : SfuShard S) (sid : SessionId) (pid : ParticipantId) (mid : Mid)
    (pkt : RtpPacket) : st.Quiet (st.forwardRtp sid pid mid pkt) := by
  unfold forwardRtp
  split
  · exact .refl st
  · rename_i s hs
    split
    · exact .refl st
    · rename_i p hlook
      have hp : st.participant? sid pid = some p := participant?_eq_some.mpr ⟨s, hs, hlook⟩
      split
      · exact .refl st
      · have hheard : st.Quiet (st.setParticipant sid pid (hearPacket p mid pkt)) :=
          .setParticipant hp ⟨rfl, rfl, rfl⟩
        dsimp only
        split
        · exact hheard
        · split
          · exact hheard
          · split
            · exact hheard
            · refine hheard.trans (quiet_forwardToAll sid _ (fun st target => ?_) _)
              exact quiet_forwardTo sid pkt _ _ st target

/-- New media is quiet: what it opens is not offered yet. -/
theorem quiet_mediaAdded (st : SfuShard S) (sid : SessionId) (pid : ParticipantId) (mid : Mid)
    (kind : MediaKind) : st.Quiet (st.mediaAdded sid pid mid kind) := by
  unfold mediaAdded
  split
  · exact .refl st
  · rename_i s hs
    refine Quiet.trans (.setSession hs fun pid' => ?_) (.of_eq rfl)
    rw [lookup_addTrack, Dict.lookup_modify]
    have hpop (p : SfuParticipant S) : SameExchange p (popSourceHint p kind).1 := by
      unfold popSourceHint
      split <;> exact ⟨rfl, rfl, rfl⟩
    generalize ((s.participants.lookup pid).bind fun p => (popSourceHint p kind).2).getD .camera =
      source
    have hadd (p : SfuParticipant S) : SameExchange p
        (if pid' = pid then { p with tracksIn := p.tracksIn ++ [⟨mid, kind, source, 64⟩] }
          else if subscribesTo p pid mid then p
          else { p with tracksOut := p.tracksOut ++ [queuedTrack pid mid kind source] }) := by
      split_ifs <;> exact ⟨rfl, rfl, rfl⟩
    by_cases hpid : pid' = pid
    · rw [if_pos hpid]
      rcases s.participants.lookup pid' with _ | p
      · exact .none
      · exact .some ((hpop p).trans (hadd _))
    · rw [if_neg hpid]
      rcases s.participants.lookup pid' with _ | p
      · exact .none
      · exact .some (hadd p)

/-- **An event of a transport** is quiet. -/
theorem quiet_handleEvent (st : SfuShard S) (now : Instant) (sid : SessionId) (pid : ParticipantId)
    (e : Event) : st.Quiet (st.handleEvent now sid pid e) := by
  cases e with
  | mediaAdded mid kind => exact quiet_mediaAdded st sid pid mid kind
  | iceConnectionStateChange state =>
    dsimp only [handleEvent]
    split
    · exact .refl st
    · rename_i p hp
      exact .setParticipant hp ⟨rfl, rfl, rfl⟩
  | rtpPacket pkt =>
    dsimp only [handleEvent]
    split
    · exact .refl st
    · split
      · exact quiet_forwardRtp _ _ _ _ _
      · exact .refl st
  | egressBitrateEstimate kind =>
    dsimp only [handleEvent]
    split
    · rename_i hp
      exact .setParticipant hp ⟨rfl, rfl, rfl⟩
    · rename_i hp
      exact .setParticipant hp ⟨rfl, rfl, rfl⟩
    · exact .refl st
  | keyframeRequest mid =>
    dsimp only [handleEvent]
    split
    · exact .refl st
    · rename_i s hs
      split
      · exact .refl st
      · exact .setSession hs fun pid' => rel_requestKeyframe SameExchange.refl
          (fun _ _ => ⟨rfl, rfl, rfl⟩) s now (_, _) pid'
  | other => exact .refl st

/-- **The polls** are quiet, turn by turn. -/
theorem quiet_polls : RespectsPolls (Quiet (S := S)) where
  refl := .refl
  trans := .trans
  call hp _ := .setParticipant hp ⟨rfl, rfl, rfl⟩
  event {st sid pid p rtc e} now hp _ := by
    have hset : st.Quiet (st.setParticipant sid pid { p with rtc := rtc }) :=
      .setParticipant hp ⟨rfl, rfl, rfl⟩
    exact hset.trans (quiet_handleEvent _ now sid pid e)
  flush _ _ := .of_eq rfl

/-- Timeouts are quiet. -/
theorem quiet_timeouts (st : SfuShard S) (now : Instant) : st.Quiet (st.timeouts now) := by
  intro sid pid
  rw [participant?, participant?, show (st.timeouts now).session? sid = _ from
    Dict.lookup_mapVals _ st.sessions sid, session?]
  rcases st.sessions.lookup sid with _ | s
  · exact .none
  · rw [Option.map_some, Option.bind_some, Option.bind_some,
      show (handleTimeouts s.recomputeTopAudio now).participants.lookup pid = _ from
        Dict.lookup_mapVals _ s.participants pid]
    rcases s.participants.lookup pid with _ | p
    · exact .none
    · exact .some ⟨rfl, rfl, rfl⟩

/-- A rehash is quiet. -/
theorem quiet_rehashed (h : Rehashed st st') : st.Quiet st' := by
  intro sid pid
  have hs := h.sessions sid
  rw [participant?, participant?]
  rcases hst : st.session? sid with _ | s
  · rw [hst] at hs
    rw [hs.none_left]
    exact .none
  · rw [hst] at hs
    obtain ⟨s', hs', hr⟩ := hs.some_left
    rw [hs', Option.bind_some, Option.bind_some, AList.perm_lookup hr.participants]
    exact Option.Rel.refl SameExchange.refl _

/-! ### Handlers that leave every exchange alone -/

/-- A track that is published is quiet. -/
theorem quiet_handlePublishTrack (st : SfuShard S) (sid : SessionId) (pid : ParticipantId)
    (source : Source) (kind : MediaKind) :
    st.Quiet (st.handlePublishTrack sid pid source kind).1 := by
  unfold handlePublishTrack
  split
  · exact .refl st
  · rename_i p hp
    exact .setParticipant hp ⟨rfl, rfl, rfl⟩

/-- A candidate of a client is quiet. -/
theorem quiet_handleIceCandidate (st : SfuShard S) (sid : SessionId) (pid : ParticipantId)
    (candidate : String) : st.Quiet (st.handleIceCandidate sid pid candidate).1 := by
  unfold handleIceCandidate
  split
  · exact .refl st
  · rename_i p hp
    split
    · exact .refl st
    · exact .setParticipant hp ⟨rfl, rfl, rfl⟩

/-- **A datagram** is quiet. -/
theorem quiet_handleUdpInput (st : SfuShard S) (now : Instant) (sid : SessionId)
    (pid : ParticipantId) (source : SocketAddr) (data : List UInt8) :
    st.Quiet (st.handleUdpInput now sid pid source data).1 := by
  unfold handleUdpInput
  split
  · exact .refl st
  · rename_i p hp
    split
    · exact .refl st
    · split
      · exact .refl st
      · split
        · exact .setParticipant hp ⟨rfl, rfl, rfl⟩
        · exact .setParticipant hp ⟨rfl, rfl, rfl⟩

/-! ### Steps that keep a queued offer -/

/-- Who is there afterwards was there before, with the same queued offer, and nothing that
was pending is not. -/
def Keeps (sid : SessionId) (pid : ParticipantId) (st st' : SfuShard S) : Prop :=
  ∀ p', st'.participant? sid pid = some p' → ∃ p, st.participant? sid pid = some p ∧
    p'.queuedClientOffer = p.queuedClientOffer ∧ (p.pendingOffer.isSome → p'.pendingOffer.isSome)

/-- What is quiet keeps an exchange. -/
theorem Quiet.keeps (h : st.Quiet st') : Keeps sid pid st st' := by
  intro p' hp'
  have hrel := h sid pid
  rw [hp'] at hrel
  obtain ⟨p, hp, hsame⟩ := hrel.some_right
  exact ⟨p, hp, hsame.queuedClientOffer, fun hpend => hsame.pendingOffer ▸ hpend⟩

namespace Keeps

theorem refl (st : SfuShard S) : Keeps sid pid st st := fun p hp => ⟨p, hp, rfl, id⟩

theorem trans (h : Keeps sid pid st st') (h' : Keeps sid pid st' st'') :
    Keeps sid pid st st'' := by
  intro p'' hp''
  obtain ⟨p', hp', hq', hpend'⟩ := h' p'' hp''
  obtain ⟨p, hp, hq, hpend⟩ := h p' hp'
  exact ⟨p, hp, hq'.trans hq, fun hsome => hpend' (hpend hsome)⟩

/-- What keeps an exchange keeps it along a list. -/
theorem foldl {α : Type*} {f : SfuShard S → α → SfuShard S}
    (h : ∀ (st : SfuShard S) a, Keeps sid pid st (f st a)) (l : List α) (st : SfuShard S) :
    Keeps sid pid st (l.foldl f st) :=
  List.foldlRecOn l f (refl st) fun _ ih a _ => ih.trans (h _ a)

/-- A participant is written back that has kept its queued offer, or another one. -/
theorem setParticipant {sid' : SessionId} {pid' : ParticipantId} {p p' : SfuParticipant S}
    (hp : st.participant? sid' pid' = some p)
    (h : sid = sid' ∧ pid = pid' → p'.queuedClientOffer = p.queuedClientOffer ∧
      (p.pendingOffer.isSome → p'.pendingOffer.isSome)) :
    Keeps sid pid st (st.setParticipant sid' pid' p') := by
  intro q hq
  rw [participant?_setParticipant hp] at hq
  split_ifs at hq with heq
  · obtain rfl := Option.some_inj.mp hq
    exact ⟨p, by rw [heq.1, heq.2, hp], h heq⟩
  · exact ⟨q, hq, rfl, id⟩

/-- A message to anybody keeps an exchange. -/
theorem wsTrySend (h : Keeps sid pid st st') (tx : WsTx) (message : ServerMessage) :
    Keeps sid pid st (st'.wsTrySend tx message) :=
  h

end Keeps

/-- An offer that takes tracks out is made where none is pending. -/
theorem keeps_deactivate (sid' : SessionId) (st : SfuShard S)
    (entry : ParticipantId × List Mid) : Keeps sid pid st (deactivate sid' st entry) := by
  refine deactivate_cases (.refl st) (fun hp => .setParticipant hp fun _ => ⟨rfl, id⟩)
    (fun hp _ => .setParticipant hp fun _ => ⟨rfl, id⟩) fun hp _ _ _ => ?_
  refine Keeps.wsTrySend ?_ _ _
  exact .setParticipant hp fun _ => ⟨rfl, fun _ => rfl⟩

/-- **A negotiation** keeps an exchange that waits for an answer: it makes no second offer. -/
theorem keeps_negotiateOne (st : SfuShard S) (e : SessionId × ParticipantId) :
    Keeps sid pid st (negotiateOne st e) := by
  refine negotiateOne_cases (.refl st) (fun _ => (Quiet.of_eq rfl).keeps)
    (fun hp => .setParticipant hp fun _ => ⟨rfl, id⟩)
    (fun hp _ _ _ => .setParticipant hp fun _ => ⟨rfl, id⟩) fun hp _ _ _ => ?_
  refine Keeps.wsTrySend ?_ _ _
  exact .setParticipant hp fun _ => ⟨rfl, fun _ => rfl⟩

/-- A leave takes one participant out, and leaves the queued offers of the others. -/
theorem keeps_handleLeave (st : SfuShard S) (sid' : SessionId) (pid' : ParticipantId) :
    Keeps sid pid st (st.handleLeave sid' pid').1 := by
  rcases handleLeave_cases st sid' pid' with ⟨-, heq⟩ | ⟨s, st₁, hs, hst₁, hend⟩
  · rw [heq]
    exact (Quiet.of_eq rfl).keeps
  · have hstart : Keeps sid pid st (st.leaveStart sid' pid' s) := by
      intro p hp
      rw [leaveStart, participant?_setSession] at hp
      split_ifs at hp with hsid
      · rw [lookup_dropParticipant] at hp
        split_ifs at hp
        obtain ⟨q, hq, rfl⟩ := Option.map_eq_some_iff.mp hp
        exact ⟨q, participant?_eq_some.mpr ⟨s, hsid ▸ hs, hq⟩, rfl, id⟩
      · exact ⟨p, hp, rfl, id⟩
    have hloop : Keeps sid pid st st₁ := by
      rw [hst₁]
      exact hstart.trans (.foldl (keeps_deactivate sid') _ _)
    rcases hend with ⟨s₁, -, -, heq⟩ | ⟨heq, -⟩
    · rw [heq]
      refine hloop.trans fun p hp => ⟨p, ?_, rfl, id⟩
      obtain ⟨s₂, hs₂, hlook⟩ := participant?_eq_some.mp hp
      refine participant?_eq_some.mpr ⟨s₂, ?_, hlook⟩
      have herase := Dict.lookup_erase_eq st₁.sessions sid' sid
      rw [session?] at hs₂
      dsimp only at hs₂
      rw [herase] at hs₂
      split_ifs at hs₂
      exact hs₂
    · rwa [heq]

/-- A join that finds an earlier participant keeps the exchanges of the others. -/
theorem keeps_kickPrior (st : SfuShard S) (sid' : SessionId) (pid' : ParticipantId) :
    Keeps sid pid st (st.kickPrior sid' pid') := by
  rw [kickPrior]
  split
  · exact .refl st
  · exact Keeps.trans (Quiet.of_eq rfl).keeps (keeps_handleLeave _ sid' pid')

/-- **A join** keeps the queued offers of the others, and makes a participant for whom
nothing is pending and nothing queued. -/
theorem handleJoin_exchange (st : SfuShard S) (creds : IceCreds) (now : Instant)
    (sid' : SessionId) (pid' : ParticipantId) (userId sdpOffer : String) (replyTx : WsTx) :
    ∀ p', (st.handleJoin creds now sid' pid' userId sdpOffer replyTx).1.participant? sid pid =
      some p' → (∃ p, ¬(sid = sid' ∧ pid = pid') ∧ st.participant? sid pid = some p ∧
        p'.queuedClientOffer = p.queuedClientOffer ∧
          (p.pendingOffer.isSome → p'.pendingOffer.isSome)) ∨
        (sid = sid' ∧ pid = pid') ∧ p'.pendingOffer = none ∧ p'.queuedClientOffer = none := by
  have hkick : Keeps sid pid st (st.kickPrior sid' pid') := keeps_kickPrior st sid' pid'
  have hnone := participant?_kickPrior st sid' pid'
  unfold handleJoin
  generalize st.kickPrior sid' pid' = st₁ at hkick hnone ⊢
  -- whoever was there under another id is kept
  have hkept : ∀ p', st₁.participant? sid pid = some p' → ∃ p, ¬(sid = sid' ∧ pid = pid') ∧
      st.participant? sid pid = some p ∧ p'.queuedClientOffer = p.queuedClientOffer ∧
        (p.pendingOffer.isSome → p'.pendingOffer.isSome) := by
    intro p' hp'
    obtain ⟨p, hp, hsame⟩ := hkick p' hp'
    refine ⟨p, ?_, hp, hsame⟩
    rintro ⟨rfl, rfl⟩
    rw [hnone] at hp'
    cases hp'
  intro p' hp'
  dsimp only at hp'
  split at hp'
  · exact .inl (hkept p' hp')
  · split at hp'
    · exact .inl (hkept p' hp')
    · rw [participant?_addParticipant] at hp'
      split_ifs at hp' with heq
      · obtain rfl := Option.some_inj.mp hp'
        exact .inr ⟨heq, rfl, rfl⟩
      · exact .inl (hkept p' hp')

/-! ### Offers and answers -/

/-- **An offer of the client** of another participant is nothing to this one. -/
theorem keeps_handleClientOffer (st : SfuShard S) {sid' : SessionId} {pid' : ParticipantId}
    (hne : ¬(sid = sid' ∧ pid = pid')) (sdpOffer : String) :
    Keeps sid pid st (st.handleClientOffer sid' pid' sdpOffer).1 := by
  have hother {p : SfuParticipant S} (hp : st.participant? sid' pid' = some p)
      (p' : SfuParticipant S) : Keeps sid pid st (st.setParticipant sid' pid' p') :=
    .setParticipant hp fun h => absurd h hne
  exact handleClientOffer_cases (.refl st) (fun hp => hother hp _) (fun hp _ => hother hp _)
    fun hp _ => (hother hp _).wsTrySend _ _

/-- The queued offer of somebody else keeps an exchange. -/
theorem keeps_drainQueuedOffer (st : SfuShard S) {sid' : SessionId} {pid' : ParticipantId}
    (hne : ¬(sid = sid' ∧ pid = pid')) : Keeps sid pid st (st.drainQueuedOffer sid' pid') := by
  unfold drainQueuedOffer
  split
  · exact .refl st
  · rename_i p hp
    split
    · exact .refl st
    · have hother : Keeps sid pid st
          (st.setParticipant sid' pid' { p with queuedClientOffer := none }) :=
        .setParticipant hp fun h => absurd h hne
      exact hother.trans (keeps_handleClientOffer _ hne _)

/-- Taking the answer of somebody else keeps an exchange. -/
theorem keeps_takeAnswer {s : SfuSession S} {p : SfuParticipant S} {sid' : SessionId}
    {pid' : ParticipantId} (hne : ¬(sid = sid' ∧ pid = pid')) (now : Instant)
    (answer : S.SdpAnswer) (hs : st.session? sid' = some s)
    (hlook : s.participants.lookup pid' = some p) :
    Keeps sid pid st (takeAnswer st now sid' pid' s p answer) := by
  unfold takeAnswer
  split
  · exact .refl st
  · split
    · exact .setParticipant (participant?_eq_some.mpr ⟨s, hs, hlook⟩) fun h => absurd h hne
    · rename_i rtc _
      intro p' hp'
      rw [participant?_setSession] at hp'
      split_ifs at hp' with hsid
      · have hrel := rel_foldl_requestKeyframe SameExchange.refl (fun _ _ => ⟨rfl, rfl, rfl⟩)
          SameExchange.trans now pid (newlyOpened p) (registerTracks s pid' p rtc)
        rw [lookup_registerTracks, if_neg fun hpid => hne ⟨hsid, hpid⟩] at hrel
        rw [openTracks] at hp'
        rw [hp'] at hrel
        obtain ⟨q, hq, hsame⟩ := hrel.some_right
        exact ⟨q, participant?_eq_some.mpr ⟨s, hsid ▸ hs, hq⟩, hsame.queuedClientOffer,
          fun hpend => hsame.pendingOffer ▸ hpend⟩
      · exact ⟨p', hp', rfl, id⟩

/-- `handle_answer` in two parts. -/
theorem handleAnswer_eq {s : SfuSession S} {p : SfuParticipant S} (now : Instant)
    {sdpAnswer : String} {answer : S.SdpAnswer} (hs : st.session? sid = some s)
    (hlook : s.participants.lookup pid = some p) (hread : S.readAnswer sdpAnswer = .ok answer) :
    (st.handleAnswer now sid pid sdpAnswer).1 =
      (takeAnswer st now sid pid s p answer).drainQueuedOffer sid pid := by
  rcases hoffer : p.pendingOffer with _ | pending
  · simp only [handleAnswer, hs, hlook, hread, takeAnswer, hoffer]
  · rcases hacc : S.acceptAnswer (S.sdpApi p.rtc) pending answer with ⟨rtc, e | ⟨⟨⟩⟩⟩ <;>
      simp only [handleAnswer, hs, hlook, hread, takeAnswer, hoffer, hacc]

/-- **The answer of somebody else** keeps an exchange. -/
theorem keeps_handleAnswer (st : SfuShard S) {sid' : SessionId} {pid' : ParticipantId}
    (hne : ¬(sid = sid' ∧ pid = pid')) (now : Instant) (sdpAnswer : String) :
    Keeps sid pid st (st.handleAnswer now sid' pid' sdpAnswer).1 := by
  rcases hs : st.session? sid' with _ | s
  · simp only [handleAnswer, hs]
    exact .refl st
  · rcases hlook : s.participants.lookup pid' with _ | p
    · simp only [handleAnswer, hs, hlook]
      exact .refl st
    · rcases hread : S.readAnswer sdpAnswer with e | answer
      · simp only [handleAnswer, hs, hlook, hread]
        exact .refl st
      · rw [handleAnswer_eq now hs hlook hread]
        exact (keeps_takeAnswer hne now answer hs hlook).trans (keeps_drainQueuedOffer _ hne)

end SfuShard

end Video

end MateHub
