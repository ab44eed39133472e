import MateHub.Video.Sfu.Pump

/-!
# What handling an event pours into the transports

Whatever event a shard handles, the transports get nothing but packets and requests for
keyframes. So no event is added to any of them, and whoever is written to is marked for the
flush (`MateHub.Video.SfuShard.pours_handleEvent`).
-/

namespace MateHub

namespace Video

variable {S : Str0m} {Q : S.Pump}

/-- Packets may have been written to a participant, if it is marked, and keyframes asked of it. -/
structure SfuParticipant.Pours (Q : S.Pump) (marked : Prop) (p p' : SfuParticipant S) : Prop where
  alive : S.isAlive p'.rtc = true → S.isAlive p.rtc = true
  rtc : Q.Pours p.rtc p'.rtc
  unsent : Q.unsent p'.rtc = Q.unsent p.rtc ∨ marked

namespace SfuParticipant.Pours

variable {marked marked' : Prop} {p p' p'' : SfuParticipant S}

theorem of_rtc (h : p'.rtc = p.rtc) : p.Pours Q marked p' := by
  refine ⟨fun ha => h ▸ ha, ?_, .inl (by rw [h])⟩
  rw [h]
  exact .refl _

theorem trans (h : p.Pours Q marked p') (h' : p'.Pours Q marked' p'') (hm : marked → marked') :
    p.Pours Q marked' p'' where
  alive := h.alive ∘ h'.alive
  rtc := h.rtc.trans h'.rtc
  unsent := by
    rcases h'.unsent with heq | hmarked
    · rw [heq]
      exact h.unsent.imp_right hm
    · exact .inr hmarked

end SfuParticipant.Pours

namespace SfuShard

variable {st st' st'' : SfuShard S} {sid : SessionId} {pid : ParticipantId}

/-- Nothing but packets and requests for keyframes has been poured into the transports, and
whoever has been written to is marked. -/
structure Pours (Q : S.Pump) (st st' : SfuShard S) : Prop where
  participants : ∀ sid pid, Option.Rel (SfuParticipant.Pours Q ((sid, pid) ∈ st'.pendingFlush))
    (st.participant? sid pid) (st'.participant? sid pid)
  pendingFlush : ∀ e ∈ st.pendingFlush, e ∈ st'.pendingFlush

namespace Pours

theorem trans (h : st.Pours Q st') (h' : st'.Pours Q st'') : st.Pours Q st'' where
  participants := fun sid pid => by
    have hrel := h.participants sid pid
    have hrel' := h'.participants sid pid
    rcases hp : st.participant? sid pid with _ | p
    · rw [hp] at hrel
      rw [hrel.none_left] at hrel'
      rw [hrel'.none_left]
      exact .none
    · rw [hp] at hrel
      obtain ⟨p', hp', hpours⟩ := hrel.some_left
      rw [hp'] at hrel'
      obtain ⟨p'', hp'', hpours'⟩ := hrel'.some_left
      rw [hp'']
      exact .some (hpours.trans hpours' (h'.pendingFlush _))
  pendingFlush := fun e he => h'.pendingFlush e (h.pendingFlush e he)

/-- No transport is touched. -/
theorem of_rtc (h : ∀ sid pid, Option.Rel (fun p p' : SfuParticipant S => p'.rtc = p.rtc)
    (st.participant? sid pid) (st'.participant? sid pid))
    (hflush : st'.pendingFlush = st.pendingFlush) : st.Pours Q st' where
  participants := fun sid pid => (h sid pid).imp .of_rtc
  pendingFlush := fun _ he => hflush ▸ he

theorem refl (st : SfuShard S) : st.Pours Q st :=
  ⟨fun _ _ => Option.Rel.refl (fun _ => .of_rtc rfl) _, fun _ he => he⟩

/-- One participant is written back. -/
theorem set {p p' : SfuParticipant S} (hp : st.participant? sid pid = some p)
    (hst : ∀ sid' q, st'.participant? sid' q = (st.setParticipant sid pid p').participant? sid' q)
    (hflush : ∀ e ∈ st.pendingFlush, e ∈ st'.pendingFlush)
    (h : p.Pours Q ((sid, pid) ∈ st'.pendingFlush) p') : st.Pours Q st' where
  participants := fun sid' q => by
    rw [hst, participant?_setParticipant hp]
    by_cases heq : sid' = sid ∧ q = pid
    · obtain ⟨rfl, rfl⟩ := heq
      rw [if_pos ⟨rfl, rfl⟩, hp]
      exact .some h
    · rw [if_neg heq]
      exact Option.Rel.refl (fun _ => .of_rtc rfl) _
  pendingFlush := hflush

theorem set_of_rtc {p p' : SfuParticipant S} (hp : st.participant? sid pid = some p)
    (h : p'.rtc = p.rtc) : st.Pours Q (st.setParticipant sid pid p') :=
  set hp (fun _ _ => rfl) (fun _ he => he) (.of_rtc h)

/-- A session is written back. -/
theorem setSession {s s' : SfuSession S} (hs : st.session? sid = some s)
    (h : ∀ q, Option.Rel (SfuParticipant.Pours Q ((sid, q) ∈ st.pendingFlush))
      (s.participants.lookup q) (s'.participants.lookup q)) :
    st.Pours Q (st.setSession sid s') where
  participants := fun sid' q => by
    rw [participant?_setSession]
    by_cases hsid : sid' = sid
    · subst hsid
      rw [if_pos rfl, participant?, hs, Option.bind_some]
      exact h q
    · rw [if_neg hsid]
      exact Option.Rel.refl (fun _ => .of_rtc rfl) _
  pendingFlush := fun _ he => he

theorem foldl {α : Type*} {f : SfuShard S → α → SfuShard S}
    (h : ∀ (st : SfuShard S) a, st.Pours Q (f st a)) (l : List α) (st : SfuShard S) :
    st.Pours Q (l.foldl f st) :=
  List.foldlRecOn l f (refl st) fun st' hst a _ => hst.trans (h st' a)

end Pours

variable (hfinal : Str0m.Final (S := S) Eq)

include hfinal

/-! ### Packets -/

theorem pours_forwardTo (sid : SessionId) (pkt : RtpPacket) (kind : MediaKind)
    (pp : S.PayloadParams) (st : SfuShard S) (target : TrackKey) :
    st.Pours Q (forwardTo sid pkt kind pp st target) := by
  unfold forwardTo
  split
  · exact .refl st
  · rename_i p hp
    split
    · exact .refl st
    · split
      · exact .refl st
      · dsimp only
        split
        · exact .set_of_rtc hp rfl
        · rename_i rtc hrtc
          exact .set hp (fun _ _ => rfl) (fun e he => (AList.mem_insert _).mpr (.inr he))
            ⟨hfinal.alive (.writeRtp hrtc), Str0m.Pump.pours_writeRtp hrtc,
              .inr ((AList.mem_insert _).mpr (.inl rfl))⟩

omit hfinal in
/-- A change of the tables beside the participants of a session. -/
theorem participant?_modify (st : SfuShard S) (sid : SessionId) {f : SfuSession S → SfuSession S}
    (hf : ∀ s, (f s).participants = s.participants) (sid' : SessionId) (q : ParticipantId) :
    participant? { st with sessions := st.sessions.modify sid f } sid' q =
      st.participant? sid' q := by
  have hsession : session? { st with sessions := st.sessions.modify sid f } sid' =
      if sid' = sid then (st.session? sid').map f else st.session? sid' :=
    Dict.lookup_modify st.sessions sid sid' f
  rw [participant?, hsession, participant?]
  split
  · rcases st.session? sid' with _ | s
    · rfl
    · exact congrArg (AList.lookup q) (hf s)
  · rfl

omit hfinal in
theorem pours_modify (st : SfuShard S) (sid : SessionId) {f : SfuSession S → SfuSession S}
    (hf : ∀ s, (f s).participants = s.participants) :
    st.Pours Q { st with sessions := st.sessions.modify sid f } := by
  refine ⟨fun sid' q => ?_, fun _ he => he⟩
  rw [participant?_modify st sid hf]
  exact Option.Rel.refl (fun _ => .of_rtc rfl) _

omit hfinal in
theorem pours_forwardToAll {forward : SfuShard S → TrackKey → SfuShard S}
    (h : ∀ (st : SfuShard S) t, st.Pours Q (forward st t)) (st : SfuShard S) (sid : SessionId)
    (key : TrackKey) : st.Pours Q (st.forwardToAll sid key forward) := by
  unfold forwardToAll
  split
  · exact .refl st
  · exact pours_modify st sid fun _ => rfl
  · have hset (st : SfuShard S) (targets : List TrackKey) :
        st.Pours Q (st.setTargets sid key targets) := pours_modify st sid fun _ => rfl
    exact ((hset st []).trans (.foldl h _ _)).trans (hset _ _)

theorem pours_forwardRtp (st : SfuShard S) (sid : SessionId) (pid : ParticipantId) (mid : Mid)
    (pkt : RtpPacket) : st.Pours Q (st.forwardRtp sid pid mid pkt) := by
  unfold forwardRtp
  split
  · exact .refl st
  · rename_i s hs
    split
    · exact .refl st
    · rename_i p hp
      split
      · exact .refl st
      · have hheard : st.Pours Q (st.setParticipant sid pid (hearPacket p mid pkt)) :=
          .set_of_rtc (participant?_eq_some.mpr ⟨s, hs, hp⟩) rfl
        dsimp only
        split
        · exact hheard
        · split_ifs
          · exact hheard
          · exact hheard
          · exact hheard.trans (pours_forwardToAll (pours_forwardTo hfinal sid pkt _ _) _ sid _)

/-! ### Other events -/

theorem pours_requestKeyframe {s : SfuSession S} (hs : st.session? sid = some s) (now : Instant)
    (origin : ParticipantId) (mid : Mid) :
    st.Pours Q (st.setSession sid (s.requestKeyframeThrottled now origin mid).1) := by
  have hrefl (q : ParticipantId) := Option.Rel.refl
    (R := SfuParticipant.Pours Q ((sid, q) ∈ st.pendingFlush)) (fun _ => .of_rtc rfl)
    (s.participants.lookup q)
  refine .setSession hs fun q => ?_
  unfold SfuSession.requestKeyframeThrottled
  dsimp only
  split
  · exact hrefl q
  · split
    · exact hrefl q
    · rename_i p hp
      split
      · exact hrefl q
      · rename_i rtc hrtc
        simp only [SfuSession.setParticipant, Dict.lookup_insert_eq]
        split
        · rename_i hq
          rw [hq, hp]
          exact .some ⟨hfinal.alive (.requestKeyframe hrtc),
            Str0m.Pump.pours_requestKeyframe hrtc, .inl (Q.tend (.requestKeyframe hrtc)).2.1⟩
        · exact hrefl q

omit hfinal in
theorem pours_mediaAdded (st : SfuShard S) (sid : SessionId) (pid : ParticipantId) (mid : Mid)
    (kind : MediaKind) : st.Pours Q (st.mediaAdded sid pid mid kind) := by
  unfold mediaAdded
  split
  · exact .refl st
  · rename_i s hs
    refine .of_rtc (fun sid' q => ?_) rfl
    rw [participant?_recordTrack]
    by_cases hsid : sid' = sid
    · subst hsid
      rw [if_pos rfl, participant?, hs, Option.bind_some, Dict.lookup_modify]
      have hhint (p : SfuParticipant S) : (popSourceHint p kind).1.rtc = p.rtc := by
        unfold popSourceHint
        split <;> rfl
      rcases s.participants.lookup q with _ | p
      · split <;> exact .none
      · split
        · exact .some (hhint p)
        · refine .some ?_
          dsimp only
          split_ifs <;> rfl
    · rw [if_neg hsid]
      exact Option.Rel.refl (R := fun p p' : SfuParticipant S => p'.rtc = p.rtc) (fun _ => rfl) _

/-- **An event is handled**: nothing but packets and requests for keyframes is poured out. -/
theorem pours_handleEvent (st : SfuShard S) (now : Instant) (sid : SessionId)
    (pid : ParticipantId) (e : Event) : st.Pours Q (st.handleEvent now sid pid e) := by
  cases e with
  | iceConnectionStateChange state =>
    dsimp only [handleEvent]
    split
    · exact .refl st
    · rename_i p hp
      exact .set_of_rtc hp rfl
  | mediaAdded mid kind => exact pours_mediaAdded st sid pid mid kind
  | rtpPacket pkt =>
    dsimp only [handleEvent]
    split
    · exact .refl st
    · split_ifs
      · exact pours_forwardRtp hfinal st sid pid _ pkt
      · exact .refl st
  | egressBitrateEstimate kind =>
    dsimp only [handleEvent]
    split
    · rename_i p hp
      exact .set_of_rtc hp rfl
    · rename_i p hp
      exact .set_of_rtc hp rfl
    · exact .refl st
  | keyframeRequest mid =>
    dsimp only [handleEvent]
    split
    · exact .refl st
    · rename_i s hs
      split
      · exact .refl st
      · exact pours_requestKeyframe hfinal hs now _ _
  | other => exact .refl st

end SfuShard

end Video

end MateHub
