import MateHub.Video.Sfu.FanOut

/-!
# What the handlers do to the transports

The handlers of the commands, the ticks and the offers call on the transports, and neither poll
them nor write packets into them: that is left to the loops that come after. Whoever is there
after a handler was there before, with a transport that has been attended to, and with what the
zombie sweep goes by as it was (`MateHub.Video.SfuShard.Attends`) – but for the participant that
a join brings, and for the one that a datagram is fed to.
-/

namespace MateHub

namespace Video

variable {S : Str0m}

/-- The calls of the handlers, but for the one that feeds a datagram and the one that ends it. -/
inductive Str0m.Tend : S.Rtc → S.Rtc → Prop
  | addRemoteCandidate (rtc : S.Rtc) (c : S.Candidate) : Tend rtc (S.addRemoteCandidate rtc c)
  | handleTimeout (rtc : S.Rtc) (now : Instant) : Tend rtc (S.handleTimeout rtc now)
  | acceptOffer (rtc : S.Rtc) (offer : S.SdpOffer) :
    Tend rtc (S.acceptOffer (S.sdpApi rtc) offer).1
  | acceptAnswer (rtc : S.Rtc) (pending : S.SdpPendingOffer) (answer : S.SdpAnswer) :
    Tend rtc (S.acceptAnswer (S.sdpApi rtc) pending answer).1
  | apply {rtc : S.Rtc} {api : S.SdpApi} : S.Staged rtc api → Tend rtc (S.apply api).1
  | dropChange {rtc : S.Rtc} {api : S.SdpApi} : S.Staged rtc api → Tend rtc (S.dropChange api)
  | requestKeyframe {rtc rtc' : S.Rtc} {mid : Mid} :
    S.requestKeyframe rtc mid = some rtc' → Tend rtc rtc'

theorem Str0m.Tend.call {rtc rtc' : S.Rtc} (h : Str0m.Tend rtc rtc') : S.Call rtc rtc' := by
  cases h with
  | addRemoteCandidate c => exact .addRemoteCandidate rtc c
  | handleTimeout now => exact .handleTimeout rtc now
  | acceptOffer offer => exact .acceptOffer rtc offer
  | acceptAnswer pending answer => exact .acceptAnswer rtc pending answer
  | apply hapi => exact .apply hapi
  | dropChange hapi => exact .dropChange hapi
  | requestKeyframe h => exact .requestKeyframe h

/-- What the zombie sweep goes by: the flag, and the last activity. -/
def SfuParticipant.marks (p : SfuParticipant S) : Bool × Instant :=
  (p.iceDisconnected, p.lastActivityAt)

/-- The transport of a participant has been attended to. -/
structure SfuParticipant.Attended (p p' : SfuParticipant S) : Prop where
  rtc : Relation.ReflTransGen Str0m.Tend p.rtc p'.rtc
  marks : p'.marks = p.marks

namespace SfuParticipant.Attended

variable {p p' p'' : SfuParticipant S}

theorem refl (p : SfuParticipant S) : p.Attended p := ⟨.refl, rfl⟩

theorem trans (h : p.Attended p') (h' : p'.Attended p'') : p.Attended p'' :=
  ⟨h.rtc.trans h'.rtc, h'.marks.trans h.marks⟩

theorem evolves (h : p.Attended p') : S.Evolves p.rtc p'.rtc :=
  Relation.ReflTransGen.mono (fun _ _ hcall => Str0m.Tend.call hcall) _ _ h.rtc

end SfuParticipant.Attended

namespace SfuShard

variable {sid : SessionId} {pid : ParticipantId} {st st' st'' : SfuShard S}

/-- Whoever is there was there, and has been attended to; and nobody is marked for the flush. -/
structure Attends (sid : SessionId) (pid : ParticipantId) (st st' : SfuShard S) : Prop where
  participant : ∀ p', st'.participant? sid pid = some p' →
    ∃ p, st.participant? sid pid = some p ∧ p.Attended p'
  pendingFlush : st'.pendingFlush = st.pendingFlush

namespace Attends

theorem of_eq (h : st'.participant? sid pid = st.participant? sid pid)
    (hflush : st'.pendingFlush = st.pendingFlush) : Attends sid pid st st' :=
  ⟨fun p' hp' => ⟨p', h ▸ hp', .refl p'⟩, hflush⟩

theorem refl (st : SfuShard S) : Attends sid pid st st := of_eq rfl rfl

theorem trans (h : Attends sid pid st st') (h' : Attends sid pid st' st'') :
    Attends sid pid st st'' := by
  refine ⟨fun p'' hp'' => ?_, h'.pendingFlush.trans h.pendingFlush⟩
  obtain ⟨p', hp', ha'⟩ := h'.participant p'' hp''
  obtain ⟨p, hp, ha⟩ := h.participant p' hp'
  exact ⟨p, hp, ha.trans ha'⟩

theorem wsTrySend (st : SfuShard S) (tx : WsTx) (msg : ServerMessage) :
    Attends sid pid st (st.wsTrySend tx msg) := of_eq rfl rfl

theorem foldl {α : Type*} {f : SfuShard S → α → SfuShard S} {l : List α}
    (h : ∀ st, ∀ a ∈ l, Attends sid pid st (f st a)) (st : SfuShard S) :
    Attends sid pid st (l.foldl f st) :=
  List.foldlRecOn l f (refl st) fun _ ih a ha => ih.trans (h _ a ha)

/-- Somebody is written back. -/
theorem set {sid' : SessionId} {pid' : ParticipantId} {p p' : SfuParticipant S}
    (hp : st.participant? sid' pid' = some p) (h : p.Attended p') :
    Attends sid pid st (st.setParticipant sid' pid' p') := by
  refine ⟨fun q hq => ?_, rfl⟩
  rw [participant?_setParticipant hp] at hq
  by_cases heq : sid = sid' ∧ pid = pid'
  · obtain ⟨rfl, rfl⟩ := heq
    rw [if_pos ⟨rfl, rfl⟩] at hq
    obtain rfl := Option.some.inj hq
    exact ⟨p, hp, h⟩
  · rw [if_neg heq] at hq
    exact (refl st).participant q hq

end Attends

/-! ### Commands -/

theorem attends_handlePublishTrack (st : SfuShard S) (sid' : SessionId) (pid' : ParticipantId)
    (source : Source) (kind : MediaKind) :
    Attends sid pid st (st.handlePublishTrack sid' pid' source kind).1 := by
  unfold handlePublishTrack
  split
  · exact .refl st
  · rename_i p hp
    exact .set hp ⟨.refl, rfl⟩

theorem attends_handleClientOffer (st : SfuShard S) (sid' : SessionId) (pid' : ParticipantId)
    (sdpOffer : String) : Attends sid pid st (st.handleClientOffer sid' pid' sdpOffer).1 := by
  refine handleClientOffer_cases (.refl st) (fun hp => .set hp ⟨.refl, rfl⟩)
    (fun {p offer _ _} hp heq => ?_) fun {p offer _ _} hp heq => ?_
  · have htend : Str0m.Tend p.rtc (S.acceptOffer (S.sdpApi p.rtc) offer).1 :=
      .acceptOffer p.rtc offer
    rw [heq] at htend
    exact .set hp ⟨.single htend, rfl⟩
  · have htend : Str0m.Tend p.rtc (S.acceptOffer (S.sdpApi p.rtc) offer).1 :=
      .acceptOffer p.rtc offer
    rw [heq] at htend
    refine (Attends.set hp ?_).trans (.wsTrySend _ _ _)
    exact ⟨.single htend, rfl⟩

theorem attends_drainQueuedOffer (st : SfuShard S) (sid' : SessionId) (pid' : ParticipantId) :
    Attends sid pid st (st.drainQueuedOffer sid' pid') := by
  unfold drainQueuedOffer
  split
  · exact .refl st
  · rename_i p hp
    split
    · exact .refl st
    · refine (Attends.set hp ?_).trans (attends_handleClientOffer _ _ _ _)
      exact ⟨.refl, rfl⟩

theorem attends_handleIceCandidate (st : SfuShard S) (sid' : SessionId) (pid' : ParticipantId)
    (candidate : String) : Attends sid pid st (st.handleIceCandidate sid' pid' candidate).1 := by
  unfold handleIceCandidate
  split
  · exact .refl st
  · rename_i p hp
    split
    · exact .refl st
    · exact .set hp ⟨.single (.addRemoteCandidate _ _), rfl⟩

/-- A keyframe is asked of a publisher. -/
theorem attended_requestKeyframe (s : SfuSession S) (now : Instant) (key : TrackKey)
    (q : ParticipantId) : Option.Rel SfuParticipant.Attended (s.participants.lookup q)
      ((s.requestKeyframeThrottled now key.1 key.2).1.participants.lookup q) := by
  have hrefl := Option.Rel.refl (R := SfuParticipant.Attended) .refl (s.participants.lookup q)
  unfold SfuSession.requestKeyframeThrottled
  dsimp only
  split
  · exact hrefl
  · split
    · exact hrefl
    · rename_i p hp
      split
      · exact hrefl
      · rename_i rtc hrtc
        simp only [SfuSession.setParticipant, Dict.lookup_insert_eq]
        split
        · rename_i hq
          rw [hq, hp]
          exact .some ⟨.single (.requestKeyframe hrtc), rfl⟩
        · exact hrefl

/-- The keyframes that are asked for. -/
theorem attended_requestKeyframes {s : SfuSession S} (now : Instant) (ks : List TrackKey)
    (q : ParticipantId) {p' : SfuParticipant S}
    (hp' : (ks.foldl (fun s k => (s.requestKeyframeThrottled now k.1 k.2).1) s).participants.lookup
      q = some p') : ∃ p, s.participants.lookup q = some p ∧ p.Attended p' := by
  induction ks generalizing s with
  | nil => exact ⟨p', hp', .refl p'⟩
  | cons k ks ih =>
    obtain ⟨p₁, hp₁, ha₁⟩ := ih hp'
    have hrel := attended_requestKeyframe s now k q
    rw [hp₁] at hrel
    obtain ⟨p, hp, ha⟩ := hrel.some_right
    exact ⟨p, hp, ha.trans ha₁⟩

theorem attends_handleAnswer (st : SfuShard S) (now : Instant) (sid' : SessionId)
    (pid' : ParticipantId) (sdpAnswer : String) :
    Attends sid pid st (st.handleAnswer now sid' pid' sdpAnswer).1 := by
  unfold handleAnswer
  split
  · exact .refl st
  · rename_i s hs
    split
    · exact .refl st
    · rename_i p hp
      have hpart : st.participant? sid' pid' = some p := participant?_eq_some.mpr ⟨s, hs, hp⟩
      split
      · exact .refl st
      · rename_i answer _
        dsimp only
        refine Attends.trans ?_ (attends_drainQueuedOffer _ sid' pid')
        split
        · exact .refl st
        · rename_i pending _
          have htend : Str0m.Tend p.rtc (S.acceptAnswer (S.sdpApi p.rtc) pending answer).1 :=
            .acceptAnswer p.rtc pending answer
          split
          · rename_i heq
            rw [heq] at htend
            exact .set hpart ⟨.single htend, rfl⟩
          · rename_i _ rtc heq
            rw [heq] at htend
            refine ⟨fun q hq => ?_, rfl⟩
            rw [participant?_setSession] at hq
            by_cases hsid : sid = sid'
            · rw [if_pos hsid] at hq
              obtain ⟨q₁, hq₁, ha⟩ := attended_requestKeyframes now _ pid hq
              rw [lookup_registerTracks] at hq₁
              by_cases hpid : pid = pid'
              · rw [if_pos hpid] at hq₁
                obtain rfl := Option.some.inj hq₁
                have hans : p.Attended (answeredParticipant p rtc) := ⟨.single htend, rfl⟩
                exact ⟨p, by rw [hsid, hpid, hpart], hans.trans ha⟩
              · rw [if_neg hpid] at hq₁
                exact ⟨q₁, participant?_eq_some.mpr ⟨s, hsid ▸ hs, hq₁⟩, ha⟩
            · rw [if_neg hsid] at hq
              exact (Attends.refl st).participant q hq

/-! ### Leaves and joins -/

theorem attends_deactivate (sid' : SessionId) (st : SfuShard S)
    (entry : ParticipantId × List Mid) : Attends sid pid st (deactivate sid' st entry) := by
  have hstaged (p : SfuParticipant S) :
      S.Staged p.rtc (entry.2.foldl (fun c mid => S.setDirection c mid .inactive)
        (S.sdpApi p.rtc)) := staged_foldl_setDirection entry.2 .sdpApi
  refine deactivate_cases (.refl st)
    (fun hp => .set hp ⟨.single (.dropChange (hstaged _)), rfl⟩)
    (fun {p _} hp heq => ?_) fun {p _ _ _} hp _ _ heq => ?_
  · have htend := Str0m.Tend.apply (hstaged p)
    rw [heq] at htend
    exact .set hp ⟨.single htend, rfl⟩
  · have htend := Str0m.Tend.apply (hstaged p)
    rw [heq] at htend
    refine (Attends.set hp ?_).trans (.wsTrySend _ _ _)
    exact ⟨.single htend, rfl⟩

theorem attends_handleLeave (st : SfuShard S) (sid' : SessionId) (pid' : ParticipantId) :
    Attends sid pid st (st.handleLeave sid' pid').1 := by
  unfold handleLeave
  dsimp only
  split
  · exact .of_eq rfl rfl
  · rename_i s hs
    have hs : st.session? sid' = some s := hs
    -- the participants without the one that leaves
    have hdrop : Attends sid pid st (st.leaveStart sid' pid' s) := by
      refine ⟨fun p hp => ?_, rfl⟩
      rw [leaveStart, participant?_setSession] at hp
      by_cases hsid : sid = sid'
      · rw [if_pos hsid, lookup_dropParticipant] at hp
        split at hp
        · cases hp
        · obtain ⟨p₀, hp₀, rfl⟩ := Option.map_eq_some_iff.mp hp
          exact ⟨p₀, participant?_eq_some.mpr ⟨s, hsid ▸ hs, hp₀⟩, .refl, rfl⟩
      · rw [if_neg hsid] at hp
        exact (Attends.refl st).participant p hp
    refine hdrop.trans ?_
    unfold leaveStart
    generalize midsToDeactivate _ pid' = entries
    generalize setSession _ sid' (dropParticipant s pid') = st₁
    have hloop : Attends sid pid st₁ (entries.foldl (deactivate sid') st₁) :=
      .foldl (fun st e _ => attends_deactivate sid' st e) st₁
    refine hloop.trans ?_
    generalize entries.foldl (deactivate sid') st₁ = st₂
    split
    · exact .refl st₂
    · rename_i s₂ hs₂
      split
      · refine ⟨fun p hp => ?_, rfl⟩
        rw [participant?, session?, Dict.lookup_erase_eq] at hp
        split at hp
        · cases hp
        · exact (Attends.refl st₂).participant p hp
      · exact .refl st₂

theorem pendingFlush_addParticipant (st : SfuShard S) (sid' : SessionId) (pid' : ParticipantId)
    (userId : String) (replyTx : WsTx) (rtc : S.Rtc) (answer : S.SdpAnswer) (creds : IceCreds)
    (now : Instant) :
    (st.addParticipant sid' pid' userId replyTx rtc answer creds now).pendingFlush =
      st.pendingFlush := by
  unfold addParticipant
  dsimp only
  split <;> rfl

theorem attends_kickPrior (st : SfuShard S) (sid' : SessionId) (pid' : ParticipantId) :
    Attends sid pid st (st.kickPrior sid' pid') := by
  unfold kickPrior
  split
  · exact .refl st
  · exact (Attends.wsTrySend st _ _).trans (attends_handleLeave _ sid' pid')

/-- A Join brings in one participant. -/
theorem attends_handleJoin (st : SfuShard S) (creds : IceCreds) (now : Instant)
    {sid' : SessionId} {pid' : ParticipantId} (hne : ¬ (sid' = sid ∧ pid' = pid))
    (userId sdpOffer : String) (replyTx : WsTx) :
    Attends sid pid st (st.handleJoin creds now sid' pid' userId sdpOffer replyTx).1 := by
  have hkick : Attends sid pid st (st.kickPrior sid' pid') := attends_kickPrior st sid' pid'
  unfold handleJoin
  generalize st.kickPrior sid' pid' = st₁ at hkick ⊢
  dsimp only
  split
  · exact hkick.trans (.wsTrySend _ _ _)
  · split
    · exact hkick.trans (.wsTrySend _ _ _)
    · refine hkick.trans (.of_eq ?_ (pendingFlush_addParticipant ..))
      rw [participant?_addParticipant, if_neg fun h => hne ⟨h.1.symm, h.2.symm⟩]

/-! ### Ticks and offers -/

theorem participant?_timeouts (st : SfuShard S) (now : Instant) (sid : SessionId)
    (pid : ParticipantId) : (st.timeouts now).participant? sid pid =
      (st.participant? sid pid).map fun p => { p with rtc := S.handleTimeout p.rtc now } := by
  have hsession : (st.timeouts now).session? sid =
      (st.session? sid).map fun s => handleTimeouts s.recomputeTopAudio now :=
    Dict.lookup_mapVals _ st.sessions sid
  rw [participant?, participant?, hsession]
  cases st.session? sid with
  | none => rfl
  | some s => exact Dict.lookup_mapVals _ s.participants pid

theorem attends_tick (st : SfuShard S) (now : Instant) : Attends sid pid st (st.tick now) := by
  have hstart : Attends sid pid st (st.timeouts now) := by
    refine ⟨fun p' hp' => ?_, rfl⟩
    rw [participant?_timeouts] at hp'
    obtain ⟨p, hp, rfl⟩ := Option.map_eq_some_iff.mp hp'
    exact ⟨p, hp, .single (.handleTimeout p.rtc now), rfl⟩
  exact hstart.trans (.foldl (fun st e _ => attends_handleLeave st e.1 e.2) _)

theorem attends_negotiateOne (st : SfuShard S) (e : SessionId × ParticipantId) :
    Attends sid pid st (negotiateOne st e) := by
  have hstaged (p : SfuParticipant S) :
      S.Staged p.rtc (stageTracks (S.sdpApi p.rtc) p.tracksOut).1 :=
    SfuSession.staged_stageTracks .sdpApi p.tracksOut
  refine negotiateOne_cases (.refl st) (fun _ => .of_eq rfl rfl)
    (fun hp => .set hp ⟨.single (.dropChange .sdpApi), rfl⟩)
    (fun {p _} hp _ _ heq => ?_) fun {p _ _ _ _} hp _ _ heq => ?_
  · have htend := Str0m.Tend.apply (hstaged p)
    rw [heq] at htend
    exact .set hp ⟨.single htend, rfl⟩
  · have htend := Str0m.Tend.apply (hstaged p)
    rw [heq] at htend
    refine (Attends.set hp ?_).trans (.wsTrySend _ _ _)
    exact ⟨.single htend, rfl⟩

theorem attends_negotiatePendingTracks (st : SfuShard S) :
    Attends sid pid st st.negotiatePendingTracks := by
  have htaken : Attends sid pid st { st with pendingNegotiation := ∅ } := .of_eq rfl rfl
  exact htaken.trans (.foldl (fun st e _ => attends_negotiateOne st e) _)

end SfuShard

end Video

end MateHub
