import MateHub.Video.Sfu.Effects
import MateHub.Video.Sfu.Unwind

/-!
# What polling one participant does to the others

A turn of `poll_participant` works on the participant it polls, and reaches the others in
three ways only: a packet is written into the transport of a subscriber, a keyframe is asked of
the transport of a publisher, a new track is queued for everyone. So whoever is not polled keeps
all it has (`MateHub.Video.SfuShard.spares_pollCaught`), whether the turn returns or is unwound,
and from wherever it is unwound.
-/

namespace MateHub

namespace Video

variable {S : Str0m} {leaves : S.Rtc → S.Rtc → Prop}

/-- A call on the transport of somebody who is not polled, whether it returns or panics:
`leaves` is what a call that panics may leave. -/
inductive Str0m.Touch (leaves : S.Rtc → S.Rtc → Prop) : S.Rtc → S.Rtc → Prop
  | writeRtp {rtc rtc' : S.Rtc} {mid : Mid} {w : RtpWrite} :
      S.writeRtp rtc mid w = some rtc' → Touch leaves rtc rtc'
  | requestKeyframe {rtc rtc' : S.Rtc} {mid : Mid} :
      S.requestKeyframe rtc mid = some rtc' → Touch leaves rtc rtc'
  | panicked {rtc rtc' : S.Rtc} : leaves rtc rtc' → Touch leaves rtc rtc'

abbrev Str0m.Touched (leaves : S.Rtc → S.Rtc → Prop) : S.Rtc → S.Rtc → Prop :=
  Relation.ReflTransGen (Str0m.Touch leaves)

/-- **A bystander**: its transport has been touched, and it may have more subscriptions. -/
structure Bystander (leaves : S.Rtc → S.Rtc → Prop) (p p' : SfuParticipant S) : Prop where
  tracksOut : p.tracksOut.map TrackOut.subscription <+: p'.tracksOut.map TrackOut.subscription
  rtc : Str0m.Touched leaves p.rtc p'.rtc
  /-- Everything else is as it was. -/
  rest : { p' with rtc := p.rtc, tracksOut := p.tracksOut } = p

namespace Bystander

theorem refl (p : SfuParticipant S) : Bystander leaves p p := ⟨List.prefix_rfl, .refl, rfl⟩

theorem trans {p p' p'' : SfuParticipant S} (h : Bystander leaves p p')
    (h' : Bystander leaves p' p'') : Bystander leaves p p'' where
  tracksOut := h.tracksOut.trans h'.tracksOut
  rtc := h.rtc.trans h'.rtc
  rest := (congrArg (fun q : SfuParticipant S => { q with rtc := p.rtc, tracksOut := p.tracksOut })
    h'.rest).trans h.rest

theorem touch (p : SfuParticipant S) {rtc : S.Rtc} (h : Str0m.Touched leaves p.rtc rtc) :
    Bystander leaves p { p with rtc := rtc } :=
  ⟨List.prefix_rfl, h, rfl⟩

theorem owner {p p' : SfuParticipant S} (h : Bystander leaves p p') :
    SfuShard.SameOwner p p' := by
  have hid := congrArg SfuParticipant.id h.rest
  have htx := congrArg SfuParticipant.wsTx h.rest
  exact ⟨hid, htx⟩

theorem iceDisconnected {p p' : SfuParticipant S} (h : Bystander leaves p p') :
    p'.iceDisconnected = p.iceDisconnected := by
  have hice := congrArg SfuParticipant.iceDisconnected h.rest
  exact hice

theorem lastActivityAt {p p' : SfuParticipant S} (h : Bystander leaves p p') :
    p'.lastActivityAt = p.lastActivityAt := by
  have hactive := congrArg SfuParticipant.lastActivityAt h.rest
  exact hactive

end Bystander

namespace SfuShard

variable {sid : SessionId} {pid : ParticipantId} {st st' st'' : SfuShard S}

/-- **Everybody else is spared**: whoever is not the one polled is a bystander, and nobody that
waits for an offer is forgotten. -/
structure Spares (leaves : S.Rtc → S.Rtc → Prop) (sid : SessionId) (pid : ParticipantId)
    (st st' : SfuShard S) : Prop where
  others : ∀ sid' q, ¬ (sid' = sid ∧ q = pid) →
    Option.Rel (Bystander leaves) (st.participant? sid' q) (st'.participant? sid' q)
  own : Option.Rel SameOwner (st.participant? sid pid) (st'.participant? sid pid)
  pendingNegotiation : ∀ e, e ∈ st.pendingNegotiation → e ∈ st'.pendingNegotiation

namespace Spares

/-- A change of the tables beside the participants. -/
theorem of_eq (h : ∀ sid q, st'.participant? sid q = st.participant? sid q)
    (hp : ∀ e, e ∈ st.pendingNegotiation → e ∈ st'.pendingNegotiation) :
    Spares leaves sid pid st st' where
  others := fun sid' q _ => by
    rw [h]
    exact Option.Rel.refl Bystander.refl _
  own := by
    rw [h]
    exact Option.Rel.refl SameOwner.refl _
  pendingNegotiation := hp

theorem refl (st : SfuShard S) : Spares leaves sid pid st st :=
  of_eq (fun _ _ => rfl) fun _ he => he

theorem trans (h : Spares leaves sid pid st st') (h' : Spares leaves sid pid st' st'') :
    Spares leaves sid pid st st'' where
  others := fun sid' q hq =>
    Option.Rel.trans (R := Bystander leaves) (·.trans) (h.others sid' q hq) (h'.others sid' q hq)
  own := Option.Rel.trans (R := SameOwner) (·.trans) h.own h'.own
  pendingNegotiation := fun e he => h'.pendingNegotiation e (h.pendingNegotiation e he)

/-- The one polled is written back. -/
theorem set_own {p p' : SfuParticipant S} (hp : st.participant? sid pid = some p)
    (ho : SameOwner p p') : Spares leaves sid pid st (st.setParticipant sid pid p') where
  others := fun sid' q hq => by
    rw [participant?_setParticipant hp, if_neg hq]
    exact Option.Rel.refl Bystander.refl _
  own := by
    rw [participant?_setParticipant hp, if_pos ⟨rfl, rfl⟩, hp]
    exact .some ho
  pendingNegotiation := fun _ he => he

/-- Somebody is written back as a bystander. -/
theorem set_other {q : ParticipantId} {p p' : SfuParticipant S}
    (hp : st.participant? sid q = some p) (h : Bystander leaves p p') :
    Spares leaves sid pid st (st.setParticipant sid q p') where
  others := fun sid' q' _ => by
    rw [participant?_setParticipant hp]
    by_cases heq : sid' = sid ∧ q' = q
    · rw [if_pos heq, heq.1, heq.2, hp]
      exact .some h
    · rw [if_neg heq]
      exact Option.Rel.refl Bystander.refl _
  own := by
    rw [participant?_setParticipant hp]
    by_cases heq : sid = sid ∧ pid = q
    · rw [if_pos heq, heq.2, hp]
      exact .some h.owner
    · rw [if_neg heq]
      exact Option.Rel.refl SameOwner.refl _
  pendingNegotiation := fun _ he => he

/-- The session is rewritten. -/
theorem session {s s' : SfuSession S} (hs : st.session? sid = some s)
    (hst : ∀ sid' q, st'.participant? sid' q =
      if sid' = sid then s'.participants.lookup q else st.participant? sid' q)
    (hothers : ∀ q, q ≠ pid →
      Option.Rel (Bystander leaves) (s.participants.lookup q) (s'.participants.lookup q))
    (hown : Option.Rel SameOwner (s.participants.lookup pid) (s'.participants.lookup pid))
    (hp : ∀ e, e ∈ st.pendingNegotiation → e ∈ st'.pendingNegotiation) :
    Spares leaves sid pid st st' where
  others := fun sid' q hq => by
    rw [hst]
    by_cases hsid : sid' = sid
    · rw [if_pos hsid, hsid, participant?, hs, Option.bind_some]
      exact hothers q fun hpid => hq ⟨hsid, hpid⟩
    · rw [if_neg hsid]
      exact Option.Rel.refl Bystander.refl _
  own := by
    rw [hst, if_pos rfl, participant?, hs, Option.bind_some]
    exact hown
  pendingNegotiation := hp

end Spares

/-! ### What the parts of a turn do -/

theorem spares_poisoned {poison : S.Rtc → S.Rtc}
    (hpoison : ∀ rtc, Str0m.Touched leaves rtc (poison rtc)) (st : SfuShard S)
    (q : ParticipantId) : Spares leaves sid pid st (st.poisoned poison sid q) := by
  rw [poisoned]
  split
  · exact .refl st
  · rename_i p hp
    exact .set_other hp (.touch p (hpoison p.rtc))

theorem bystander_advanceSeq (p : SfuParticipant S) (mid : Mid) (pkt : RtpPacket) :
    Bystander leaves p (advanceSeq p mid pkt) :=
  ⟨(frame_advanceSeq p mid pkt).tracksOut ▸ List.prefix_rfl, .refl, rfl⟩

theorem participant?_setTargets (st : SfuShard S) (sid sid' : SessionId) (key : TrackKey)
    (targets : List TrackKey) (q : ParticipantId) :
    (st.setTargets sid key targets).participant? sid' q = st.participant? sid' q := by
  rw [participant?, participant?, session?_setTargets]
  split
  · cases st.session? sid' <;> rfl
  · rfl

/-- A keyframe is asked of a publisher. -/
theorem bystander_requestKeyframe (s : SfuSession S) (now : Instant) (key : TrackKey)
    (q : ParticipantId) : Option.Rel (Bystander leaves) (s.participants.lookup q)
      ((s.requestKeyframeThrottled now key.1 key.2).1.participants.lookup q) := by
  have hrefl := Option.Rel.refl (R := Bystander leaves) Bystander.refl (s.participants.lookup q)
  unfold SfuSession.requestKeyframeThrottled
  dsimp only
  split
  · exact hrefl
  · split
    · exact hrefl
    · rename_i p hp
      split
      · exact hrefl
      · rename_i rtc hrtc
        simp only [SfuSession.setParticipant, Dict.lookup_insert_eq]
        by_cases hq : q = key.1
        · rw [if_pos hq, hq, hp]
          exact .some (.touch p (.single (.requestKeyframe hrtc)))
        · rw [if_neg hq]
          exact hrefl

theorem spares_requestKeyframe {s : SfuSession S} (hs : st.session? sid = some s) (now : Instant)
    (key : TrackKey) : Spares leaves sid pid st
      (st.setSession sid (s.requestKeyframeThrottled now key.1 key.2).1) :=
  have hrel : ∀ q, Option.Rel (Bystander leaves) (s.participants.lookup q) _ :=
    bystander_requestKeyframe s now key
  .session hs (participant?_setSession st sid _) (fun q _ => hrel q)
    ((hrel pid).imp Bystander.owner) fun _ he => he

/-- A new track is recorded on its publisher, and queued for the others. -/
theorem spares_mediaAdded (st : SfuShard S) (mid : Mid) (kind : MediaKind) :
    Spares leaves sid pid st (st.mediaAdded sid pid mid kind) := by
  unfold mediaAdded
  split
  · exact .refl st
  · rename_i s hs
    dsimp only
    refine .session hs
      (fun sid' q => (participant?_recordTrack st sid _ pid mid kind _ sid' q).trans
        (by rw [← lookup_addTrack])) (fun q hq => ?_) ?_ fun e he => ?_
    · rw [lookup_addTrack, Dict.lookup_modify, if_neg hq]
      cases s.participants.lookup q with
      | none => exact .none
      | some p =>
        refine .some ?_
        dsimp only
        rw [if_neg hq]
        split
        · exact .refl p
        · refine ⟨?_, .refl, rfl⟩
          rw [List.map_append]
          exact List.prefix_append _ _
    · rw [lookup_addTrack, Dict.lookup_modify, if_pos rfl]
      cases s.participants.lookup pid with
      | none => exact .none
      | some p =>
        refine .some ?_
        dsimp only
        rw [if_pos rfl, popSourceHint]
        split <;> exact ⟨rfl, rfl⟩
    · rw [recordTrack, Dict.mem_foldl_insert]
      exact .inl he

/-! ### A turn, however it ends -/

theorem spares_markDead (st : SfuShard S) (now : Instant) :
    Spares leaves sid pid st (st.markDead now sid pid) := by
  unfold markDead
  split
  · exact .refl st
  · rename_i p hp
    have hown : Spares leaves sid pid st
        (st.setParticipant sid pid (deadParticipant st.zombieTimeout now p)) :=
      .set_own hp ⟨rfl, rfl⟩
    exact hown.trans (.of_eq (fun _ _ => rfl) fun _ he => he)

theorem endsIn_forwardLoop {forward : Option ℕ → SfuShard S → TrackKey → Unwinding S}
    (h : ∀ panicAt st target, (forward panicAt st target).EndsIn (Spares leaves sid pid st))
    (targets : List TrackKey) (panicAt : Option ℕ) (st : SfuShard S) :
    (forwardLoop forward targets panicAt st).EndsIn (Spares leaves sid pid st) := by
  induction targets generalizing panicAt st with
  | nil => exact .refl st
  | cons target targets ih =>
    exact (h panicAt st target).bind fun st' m hst' => (ih m st').imp fun _ => hst'.trans

theorem endsIn_forwardToAll {forward : Option ℕ → SfuShard S → TrackKey → Unwinding S}
    (h : ∀ panicAt st target, (forward panicAt st target).EndsIn (Spares leaves sid pid st))
    (panicAt : Option ℕ) (st : SfuShard S) (key : TrackKey) :
    (forwardToAllPanics panicAt st sid key forward).EndsIn (Spares leaves sid pid st) := by
  have hset : ∀ (st : SfuShard S) targets,
      Spares leaves sid pid st (st.setTargets sid key targets) := fun st targets =>
    .of_eq (fun sid' q => participant?_setTargets st sid sid' key targets q) fun _ he => he
  unfold forwardToAllPanics
  split
  · exact .refl st
  · refine Spares.of_eq (fun sid' q => ?_) fun _ he => he
    simp only [participant?, session?, Dict.lookup_modify]
    split
    · cases st.sessions.lookup sid' <;> rfl
    · rfl
  · rename_i targets _ _
    exact ((endsIn_forwardLoop h targets panicAt _).imp fun _ => (hset st []).trans).bind
      fun st' m hst' => hst'.trans (hset st' targets)

section Turn

variable {poison : S.Rtc → S.Rtc} (hpoison : ∀ rtc, Str0m.Touched leaves rtc (poison rtc))

include hpoison

theorem endsIn_forwardTo (pid : ParticipantId) (pkt : RtpPacket) (kind : MediaKind)
    (pp : S.PayloadParams) (panicAt : Option ℕ) (st : SfuShard S) (target : TrackKey) :
    (forwardToPanics poison sid pkt kind pp panicAt st target).EndsIn
      (Spares leaves sid pid st) := by
  unfold forwardToPanics
  split
  · exact .refl st
  · rename_i p hp
    refine endsIn_atCall (spares_poisoned hpoison st _) fun m => ?_
    split
    · exact .refl st
    · split
      · exact .refl st
      · have hadv : Bystander leaves p (advanceSeq p target.2 pkt) :=
          bystander_advanceSeq p target.2 pkt
        refine endsIn_atCall ((Spares.set_other hp hadv).trans (spares_poisoned hpoison _ _))
          fun m => ?_
        split
        · exact .set_other hp hadv
        · rename_i rtc hrtc
          refine (Spares.set_other hp (hadv.trans (.touch _ (.single (.writeRtp hrtc))))).trans ?_
          exact .of_eq (fun _ _ => rfl) fun _ he => he

theorem endsIn_forwardRtp (panicAt : Option ℕ) (st : SfuShard S) (mid : Mid) (pkt : RtpPacket) :
    (forwardRtpPanics poison panicAt st sid pid mid pkt).EndsIn (Spares leaves sid pid st) := by
  unfold forwardRtpPanics
  split
  · exact .refl st
  · rename_i s hs
    split
    · exact .refl st
    · rename_i p hp
      split
      · exact .refl st
      · have hheard : Spares leaves sid pid st (st.setParticipant sid pid (hearPacket p mid pkt)) :=
          .set_own (participant?_eq_some.mpr ⟨s, hs, hp⟩) ⟨rfl, rfl⟩
        refine endsIn_atCall (hheard.trans (spares_poisoned hpoison _ _)) fun m => ?_
        split
        · exact hheard
        · split_ifs
          · exact hheard
          · exact hheard
          · exact (endsIn_forwardToAll (endsIn_forwardTo hpoison pid pkt _ _) m _ _).imp
              fun _ => hheard.trans

theorem endsIn_handleEvent (panicAt : Option ℕ) (st : SfuShard S) (now : Instant) (e : Event) :
    (handleEventPanics poison panicAt st now sid pid e).EndsIn (Spares leaves sid pid st) := by
  cases e with
  | rtpPacket pkt =>
    dsimp only [handleEventPanics]
    split
    · exact .refl st
    · refine endsIn_atCall (spares_poisoned hpoison st _) fun m => ?_
      split
      · exact .refl st
      · split
        · exact endsIn_forwardRtp hpoison m st _ pkt
        · exact .refl st
  | keyframeRequest mid =>
    dsimp only [handleEventPanics]
    split
    · exact .refl st
    · rename_i s hs
      split
      · exact .refl st
      · rename_i t _
        have hasked : Spares leaves sid pid st (st.setSession sid _) :=
          spares_requestKeyframe hs now (t.origin, t.originMid)
        split
        · exact endsIn_atCall (spares_poisoned hpoison st _) fun m => hasked
        · exact hasked
  | iceConnectionStateChange state =>
    dsimp only [handleEventPanics, handleEvent]
    split
    · exact .refl st
    · rename_i p hp
      exact .set_own hp ⟨rfl, rfl⟩
  | mediaAdded mid kind => exact spares_mediaAdded st mid kind
  | egressBitrateEstimate kind =>
    dsimp only [handleEventPanics, handleEvent]
    split
    · rename_i hp
      exact .set_own hp ⟨rfl, rfl⟩
    · rename_i hp
      exact .set_own hp ⟨rfl, rfl⟩
    · exact .refl st
  | other => exact .refl st

/-- **A turn spares everybody else**, wherever it is cut short. -/
theorem endsIn_pollTurn (panicAt : Option ℕ) (now : Instant) (sid : SessionId)
    (pid : ParticipantId) (st : SfuShard S) :
    (pollTurnPanics poison panicAt now sid pid st).EndsIn (Spares leaves sid pid st) := by
  unfold pollTurnPanics
  split
  · exact .refl st
  · rename_i p hp
    have hpolled : ∀ rtc, Spares leaves sid pid st
        (st.setParticipant sid pid { p with rtc := rtc }) := fun rtc => .set_own hp ⟨rfl, rfl⟩
    refine endsIn_atCall (spares_poisoned hpoison st _) fun m => ?_
    split
    · exact .refl st
    · refine endsIn_atCall (spares_poisoned hpoison st _) fun m => ?_
      split
      · exact hpolled _
      · exact (endsIn_handleEvent hpoison m _ now _).imp fun _ => (hpolled _).trans
      · exact hpolled _
      · exact endsIn_atCall ((hpolled _).trans (spares_poisoned hpoison _ _)) fun m => hpolled _

/-- **A turn spares everybody else**, with what is done about a panic. -/
theorem spares_pollCaught (panicAt : Option ℕ) (now : Instant) (sid : SessionId)
    (pid : ParticipantId) (st : SfuShard S) :
    Spares leaves sid pid st (pollCaught poison panicAt now sid pid st) := by
  have h := endsIn_pollTurn hpoison panicAt now sid pid st
  rw [pollCaught]
  split
  · rename_i heq
    rwa [heq] at h
  · rename_i st' heq
    rw [heq] at h
    exact Spares.trans h (spares_markDead st' now)

end Turn

theorem spares_pollParticipant (now : Instant) (sid : SessionId) (pid : ParticipantId)
    (st : SfuShard S) : Spares leaves sid pid st (pollParticipant now sid pid 1 st) := by
  rw [← pollCaught_none id]
  exact spares_pollCaught (fun _ => .refl) none now sid pid st

end SfuShard

end Video

end MateHub
