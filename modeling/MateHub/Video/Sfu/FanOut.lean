import MateHub.Video.Scripted
import MateHub.Video.Sfu.Effects

/-!
# The fan-out lists and the forwarding map

A session is a `Room`: what each participant publishes is its `tracks_in`, what it
subscribes to its `tracks_out`, and `forwarding_map` is the index of the open
subscriptions. Every move of the shard is an update of that room – a leave is
`Room.leave`, an announced track `Room.publish`, and so on – so the room of every
session of every reachable state is coherent, and the two results of this file are
what coherence says of the maps of the service: the lists that subscribers keep
are complete (`MateHub.Video.fanOut_complete`), and the forwarding map is exact
(`MateHub.Video.forwardingMap_exact`).

Both rest on str0m announcing no media section twice: that is what makes the
tracks of a publisher differ in their mid.
-/

namespace MateHub

namespace Video

variable {S : Str0m}

/-! ### A session as a room -/

/-- The session as a room. -/
def SfuSession.room (s : SfuSession S) : Room ParticipantId Mid (MediaKind × Source) where
  published := fun q => (s.participants.lookup q).map fun p => p.tracksIn.map TrackIn.track
  subs := fun q =>
    ((s.participants.lookup q).map fun p => p.tracksOut.map TrackOut.subscription).getD []
  targets := fun o m => s.targets (o, m)

/-- **The session is in order**: its room is coherent, participants are kept under
their own id, what they publish has been announced by their transport, and no
forwarding list is empty. -/
structure SfuSession.Sound (R : S.MediaRecord) (s : SfuSession S) : Prop where
  room : s.room.Coherent
  id : ∀ pid p, s.participants.lookup pid = some p → p.id = pid
  announced : ∀ pid p, s.participants.lookup pid = some p →
    ∀ t ∈ p.tracksIn.map TrackIn.track, t.mid ∈ R.announced p.rtc
  noStale : ∀ k, s.forwardingMap.lookup k ≠ some []

/-- Every session of the shard is in order. -/
def SfuShard.Sound (R : S.MediaRecord) (st : SfuShard S) : Prop :=
  ∀ sid s, st.session? sid = some s → s.Sound R

namespace SfuSession

variable {R : S.MediaRecord} {s s' : SfuSession S}

theorem room_published {q : ParticipantId} {p : SfuParticipant S}
    (hp : s.participants.lookup q = some p) :
    s.room.published q = some (p.tracksIn.map TrackIn.track) := by
  simp [room, hp]

theorem room_subs {q : ParticipantId} {p : SfuParticipant S}
    (hp : s.participants.lookup q = some p) :
    s.room.subs q = p.tracksOut.map TrackOut.subscription := by
  simp [room, hp]

theorem live_iff {q : ParticipantId} :
    s.room.Live q ↔ ∃ p, s.participants.lookup q = some p := by
  simp [Room.Live, room]

/-- A room is what the two lookups say. -/
theorem room_congr
    (hin : ∀ q, (s'.participants.lookup q).map (fun p => p.tracksIn.map TrackIn.track) =
      (s.participants.lookup q).map fun p => p.tracksIn.map TrackIn.track)
    (hout : ∀ q, (s'.participants.lookup q).map (fun p => p.tracksOut.map TrackOut.subscription) =
      (s.participants.lookup q).map fun p => p.tracksOut.map TrackOut.subscription)
    (ht : ∀ k, s'.targets k = s.targets k) : s'.room = s.room := by
  rw [room, room, Room.mk.injEq]
  exact ⟨funext hin, funext fun q => congrArg (Option.getD · []) (hout q),
    funext fun o => funext fun m => ht (o, m)⟩

/-- What leaves the frame alone leaves the session in order. -/
theorem Sound.frame (h : s.Sound R) (hf : s.Frame s') : s'.Sound R := by
  have hrel : ∀ {pid p'}, s'.participants.lookup pid = some p' →
      ∃ p, s.participants.lookup pid = some p ∧ p.Frame p' := by
    intro pid p' hp'
    have hrel := hf.participants pid
    rw [hp'] at hrel
    exact hrel.some_right
  have hmap : ∀ {α : Type} (f : SfuParticipant S → α), (∀ p p', SfuParticipant.Frame p p' →
      f p' = f p) → ∀ q, (s'.participants.lookup q).map f = (s.participants.lookup q).map f := by
    intro α f hff q
    have hrel := hf.participants q
    cases hq : s.participants.lookup q with
    | none =>
      rw [hq] at hrel
      rw [hrel.none_left]
    | some p =>
      rw [hq] at hrel
      obtain ⟨p', hp', hpf⟩ := hrel.some_left
      rw [hp', Option.map_some, Option.map_some, hff p p' hpf]
  have hroom : s'.room = s.room :=
    room_congr (hmap _ fun _ _ hpf => hpf.tracksIn) (hmap _ fun _ _ hpf => hpf.tracksOut) hf.targets
  exact {
    room := hroom ▸ h.room
    id := fun pid p' hp' => by
      obtain ⟨p, hp, hpf⟩ := hrel hp'
      exact hpf.id.trans (h.id pid p hp)
    announced := fun pid p' hp' t ht => by
      obtain ⟨p, hp, hpf⟩ := hrel hp'
      rw [hpf.tracksIn] at ht
      exact R.evolves hpf.rtc (h.announced pid p hp t ht)
    noStale := fun k hk => h.noStale k (hf.noStale k hk) }

/-- Writing back a participant, with its subscriptions in another state. -/
theorem Sound.setParticipant (h : s.Sound R) {pid : ParticipantId} {p p' : SfuParticipant S}
    (hp : s.participants.lookup pid = some p) (hid : p'.id = p.id)
    (hin : p'.tracksIn.map TrackIn.track = p.tracksIn.map TrackIn.track)
    (hrtc : R.announced p.rtc ⊆ R.announced p'.rtc)
    (hroom : (s.setParticipant pid p').room.Coherent) : (s.setParticipant pid p').Sound R where
  room := hroom
  id := fun q p'' hp'' => by
    rw [SfuSession.setParticipant, Dict.lookup_insert_eq] at hp''
    by_cases hq : q = pid
    · rw [if_pos hq] at hp''
      rw [← Option.some.inj hp'', hid, hq, h.id pid p hp]
    · rw [if_neg hq] at hp''
      exact h.id q p'' hp''
  announced := fun q p'' hp'' t ht => by
    rw [SfuSession.setParticipant, Dict.lookup_insert_eq] at hp''
    by_cases hq : q = pid
    · rw [if_pos hq] at hp''
      rw [← Option.some.inj hp''] at ht ⊢
      rw [hin] at ht
      exact hrtc (h.announced pid p hp t ht)
    · rw [if_neg hq] at hp''
      exact h.announced q p'' hp'' t ht
  noStale := h.noStale

/-! ### Leaving -/

theorem targets_dropFromForwarding (s : SfuSession S) (gone o : ParticipantId) (m : Mid) :
    (s.dropFromForwarding gone).targets (o, m) =
      if o = gone then [] else (s.targets (o, m)).filter fun t => t.1 ≠ gone := by
  rw [targets, targets, dropFromForwarding]
  simp only [Dict.lookup_retain, Dict.lookup_mapVals]
  cases s.forwardingMap.lookup (o, m) with
  | none => simp
  | some ts =>
    by_cases ho : o = gone
    · simp [ho]
    · simp only [ho, Option.filter_some, Option.getD_some, ne_eq, not_false_eq_true, decide_true,
        ↓reduceIte, Option.map_some]
      split
      · rfl
      · rename_i hempty
        simp only [Bool.not_eq_true', Bool.not_eq_false, List.isEmpty_iff] at hempty
        rw [hempty, Option.getD_none]

/-- A leave is a leave of the room. -/
theorem room_dropParticipant (s : SfuSession S) (gone : ParticipantId) :
    (SfuShard.dropParticipant s gone).room = s.room.leave gone := by
  rw [room, Room.leave, Room.mk.injEq]
  refine ⟨funext fun q => ?_, funext fun q => ?_, funext fun o => funext fun m => ?_⟩
  · rw [SfuShard.lookup_dropParticipant]
    by_cases hq : q = gone
    · simp [hq]
    · simp only [hq, ↓reduceIte, Option.map_map]
      rfl
  · rw [SfuShard.lookup_dropParticipant]
    by_cases hq : q = gone
    · simp [hq]
    · simp only [hq, ↓reduceIte, room]
      cases s.participants.lookup q with
      | none => rfl
      | some p =>
        simp only [Option.map_some, Option.getD_some, List.filter_map]
        rfl
  · exact targets_dropFromForwarding s gone o m

theorem Sound.dropParticipant (h : s.Sound R) (gone : ParticipantId) :
    (SfuShard.dropParticipant s gone).Sound R where
  room := room_dropParticipant s gone ▸ h.room.leave gone
  id := fun pid p' hp' => by
    rw [SfuShard.lookup_dropParticipant] at hp'
    by_cases hq : pid = gone
    · rw [if_pos hq] at hp'
      cases hp'
    · rw [if_neg hq] at hp'
      obtain ⟨p, hp, rfl⟩ := Option.map_eq_some_iff.mp hp'
      exact h.id pid p hp
  announced := fun pid p' hp' t ht => by
    rw [SfuShard.lookup_dropParticipant] at hp'
    by_cases hq : pid = gone
    · rw [if_pos hq] at hp'
      cases hp'
    · rw [if_neg hq] at hp'
      obtain ⟨p, hp, rfl⟩ := Option.map_eq_some_iff.mp hp'
      exact h.announced pid p hp t ht
  noStale := fun k hk => by
    have hk : (((s.forwardingMap.retain fun k _ => k.1 ≠ gone).mapVals fun _ targets =>
        targets.filter fun t => t.1 ≠ gone).retain fun _ targets => !targets.isEmpty).lookup k =
        some [] := hk
    rw [Dict.lookup_retain, Option.filter_eq_some_iff] at hk
    exact absurd hk.2 (by simp)

/-! ### Joining -/

theorem sound_new (sid : SessionId) : (SfuSession.new (S := S) sid).Sound R where
  room := Room.coherent_empty
  id := fun _ _ hp => by cases hp
  announced := fun _ _ hp => by cases hp
  noStale := fun _ hk => by cases hk

/-- The existing tracks of one publisher. -/
theorem filter_existingTracks (h : s.Sound R) {o : ParticipantId} {p : SfuParticipant S}
    (hp : s.participants.lookup o = some p) :
    (((SfuShard.existingTracks s).map fun e => (e.1, e.2.track)).filter fun t => t.1 = o).map
      Prod.snd = p.tracksIn.map TrackIn.track := by
  have hflat : (SfuShard.existingTracks s).map (fun e => (e.1, e.2.track)) =
      s.participants.pairs.flatMap fun e => e.2.tracksIn.map fun t => (e.2.id, t.track) := by
    rw [SfuShard.existingTracks, List.map_flatMap]
    simp only [List.map_map]
    rfl
  rw [hflat, Dict.filter_flatMap hp _ _ fun e he w hw => ?_, List.map_map]
  · rfl
  · obtain ⟨t, -, rfl⟩ := List.mem_map.mp hw
    rw [decide_eq_true_iff, h.id e.1 e.2 (Dict.mem_pairs.mp he)]

/-- A join is a join of the room. -/
theorem Sound.join (h : s.Sound R) {pid : ParticipantId} (hnone : s.participants.lookup pid = none)
    (userId : String) (rtc : S.Rtc) (tx : WsTx) (now : Instant) :
    (s.setParticipant pid (SfuShard.newParticipant pid userId rtc tx now
      (SfuShard.existingTracks s))).Sound R := by
  set p' := SfuShard.newParticipant pid userId rtc tx now (SfuShard.existingTracks s)
  have hlook : ∀ q, (s.setParticipant pid p').participants.lookup q =
      if q = pid then some p' else s.participants.lookup q :=
    fun q => Dict.lookup_insert_eq s.participants pid q p'
  have hroom : (s.setParticipant pid p').room =
      s.room.join pid ((SfuShard.existingTracks s).map fun e => (e.1, e.2.track)) := by
    rw [SfuSession.room, Room.join, Room.mk.injEq]
    refine ⟨funext fun q => ?_, funext fun q => ?_, rfl⟩
    · rw [hlook]
      by_cases hq : q = pid
      · simp [hq, p', SfuShard.newParticipant]
      · simp [hq, SfuSession.room]
    · rw [hlook]
      by_cases hq : q = pid
      · simp only [hq, ↓reduceIte, Option.map_some, Option.getD_some, p', SfuShard.newParticipant,
          List.map_map]
        rfl
      · simp [hq, SfuSession.room]
  have hlive : ∀ e ∈ SfuShard.existingTracks s, s.room.Live e.1 := by
    intro e he
    obtain ⟨⟨k, p⟩, hk, he⟩ := List.mem_flatMap.mp he
    obtain ⟨t, -, rfl⟩ := List.mem_map.mp he
    have hk := Dict.mem_pairs.mp hk
    rw [h.id k p hk]
    exact live_iff.mpr ⟨p, hk⟩
  refine ⟨?_, fun q p hp => ?_, fun q p hp t ht => ?_, h.noStale⟩
  · rw [hroom]
    refine h.room.join (fun hl => ?_) (fun t ht => ?_) fun o ts hts => ?_
    · obtain ⟨p, hp⟩ := live_iff.mp hl
      rw [hnone] at hp
      cases hp
    · obtain ⟨e, he, rfl⟩ := List.mem_map.mp ht
      exact hlive e he
    · obtain ⟨p, hp, rfl⟩ := Option.map_eq_some_iff.mp hts
      exact filter_existingTracks h hp
  · rw [hlook] at hp
    by_cases hq : q = pid
    · rw [if_pos hq] at hp
      rw [← Option.some.inj hp, hq]
      rfl
    · rw [if_neg hq] at hp
      exact h.id q p hp
  · rw [hlook] at hp
    by_cases hq : q = pid
    · rw [if_pos hq] at hp
      rw [← Option.some.inj hp] at ht
      exact absurd ht List.not_mem_nil
    · rw [if_neg hq] at hp
      exact h.announced q p hp t ht

/-! ### Answering -/

theorem targets_foldl_register (l : List (TrackKey × TrackKey)) (m : Dict TrackKey (List TrackKey))
    (k : TrackKey) : ((l.foldl SfuShard.register m).lookup k).getD [] =
      (m.lookup k).getD [] ++ (l.filter fun e => e.1 = k).map Prod.snd := by
  induction l generalizing m with
  | nil => simp
  | cons e l ih =>
    rw [List.foldl_cons, ih, SfuShard.register, Dict.lookup_insert_eq]
    by_cases hk : k = e.1
    · subst hk
      simp
    · simp [hk, Ne.symm hk]

theorem noStale_foldl_register {l : List (TrackKey × TrackKey)}
    {m : Dict TrackKey (List TrackKey)} (h : ∀ k, m.lookup k ≠ some []) (k : TrackKey) :
    (l.foldl SfuShard.register m).lookup k ≠ some [] := by
  induction l generalizing m with
  | nil => exact h k
  | cons e l ih =>
    refine ih fun k' => ?_
    rw [SfuShard.register, Dict.lookup_insert_eq]
    split
    · simp
    · exact h k'

/-- What an answer registers is what it opens. -/
theorem map_toRegister (pid : ParticipantId) (p : SfuParticipant S) (o : ParticipantId) (m : Mid) :
    ((SfuShard.toRegister pid p).filter fun e => e.1 = (o, m)).map Prod.snd =
      Room.answers pid (p.tracksOut.map TrackOut.subscription) o m := by
  rw [SfuShard.toRegister, Room.answers]
  induction p.tracksOut with
  | nil => rfl
  | cons t ts ih =>
    rcases hst : t.state with _ | n | n <;>
      by_cases ho : t.origin = o <;> by_cases hm : t.originMid = m <;>
        simp [hst, ho, hm, TrackOut.subscription, TrackOutState.stage] <;> exact ih

theorem subscription_answered (t : TrackOut) : (SfuShard.TrackOut.answered t).subscription =
    { t.subscription with stage := t.subscription.stage.answered } := by
  rcases hst : t.state with _ | n | n <;>
    simp [SfuShard.TrackOut.answered, TrackOut.subscription, TrackOutState.stage, hst,
      Room.Stage.answered]

/-- An accepted answer is an answer of the room. -/
theorem Sound.answer (h : s.Sound R) {pid : ParticipantId} {p : SfuParticipant S}
    (hp : s.participants.lookup pid = some p) {rtc : S.Rtc} (hrtc : S.Evolves p.rtc rtc) :
    (SfuShard.registerTracks s pid p rtc).Sound R := by
  have hlook := SfuShard.lookup_registerTracks s pid p rtc
  have hroom : (SfuShard.registerTracks s pid p rtc).room = s.room.answer pid := by
    rw [SfuSession.room, Room.answer, Room.mk.injEq]
    refine ⟨funext fun q => ?_, funext fun q => ?_, funext fun o => funext fun m => ?_⟩
    · rw [hlook]
      by_cases hq : q = pid
      · simp [hq, SfuSession.room, hp, SfuShard.answeredParticipant]
      · simp [hq, SfuSession.room]
    · rw [hlook]
      by_cases hq : q = pid
      · simp only [hq, ↓reduceIte, room_subs hp, Option.map_some, Option.getD_some,
          SfuShard.answeredParticipant, List.map_map]
        exact List.map_congr_left fun t _ => subscription_answered t
      · simp [hq, SfuSession.room]
    · rw [room_subs hp, ← map_toRegister]
      exact targets_foldl_register (SfuShard.toRegister pid p) s.forwardingMap (o, m)
  refine ⟨?_, fun q p' hp' => ?_, fun q p' hp' t ht => ?_, noStale_foldl_register h.noStale⟩
  · rw [hroom]
    exact h.room.answer pid
  · rw [hlook] at hp'
    by_cases hq : q = pid
    · rw [if_pos hq] at hp'
      rw [← Option.some.inj hp', hq]
      exact h.id pid p hp
    · rw [if_neg hq] at hp'
      exact h.id q p' hp'
  · rw [hlook] at hp'
    by_cases hq : q = pid
    · rw [if_pos hq] at hp'
      rw [← Option.some.inj hp'] at ht ⊢
      exact R.evolves hrtc (h.announced pid p hp t ht)
    · rw [if_neg hq] at hp'
      exact h.announced q p' hp' t ht

/-! ### Publishing -/

/-- A new track is a publication in the room; nobody subscribes to it yet, since its
mid is fresh. -/
theorem Sound.addTrack (h : s.Sound R) {pid : ParticipantId} {p : SfuParticipant S}
    (hp : s.participants.lookup pid = some p) {mid : Mid} (hmid : mid ∈ R.announced p.rtc)
    (hfresh : mid ∉ (p.tracksIn.map TrackIn.track).map Room.Track.mid) (kind : MediaKind)
    (source : Source) : (SfuShard.addTrack s pid mid kind source).Sound R := by
  have hsub : ∀ q p', s.participants.lookup q = some p' → q ≠ pid →
      SfuShard.subscribesTo p' pid mid = false := by
    intro q p' hp' hq
    rw [SfuShard.subscribesTo, List.any_eq_false]
    intro t ht htrue
    obtain ⟨ho, hm⟩ : t.origin = pid ∧ t.originMid = mid := by simpa using htrue
    refine hfresh ?_
    rw [← h.room.complete q pid _ (live_iff.mpr ⟨p', hp'⟩) hq (room_published hp), room_subs hp',
      Room.tracksFrom_eq, List.map_map]
    exact List.mem_map.mpr ⟨t.subscription, List.mem_filter.mpr
      ⟨List.mem_map_of_mem ht, decide_eq_true ho⟩, hm⟩
  have hroom : (SfuShard.addTrack s pid mid kind source).room =
      s.room.publish pid ⟨mid, (kind, source)⟩ := by
    rw [SfuSession.room, Room.publish, Room.mk.injEq]
    refine ⟨funext fun q => ?_, funext fun q => ?_, rfl⟩
    · rw [SfuShard.lookup_addTrack]
      by_cases hq : q = pid
      · subst hq
        simp [hp, SfuSession.room, TrackIn.track]
      · simp only [hq, ↓reduceIte, SfuSession.room, Option.map_map]
        cases s.participants.lookup q with
        | none => rfl
        | some p' =>
          simp only [Option.map_some, Function.comp_apply, Option.some.injEq]
          split <;> rfl
    · rw [SfuShard.lookup_addTrack]
      by_cases hq : q = pid
      · subst hq
        simp [hp, SfuSession.room]
      · rcases Option.eq_none_or_eq_some (s.participants.lookup q) with hq' | ⟨p', hq'⟩
        · simp [hq', SfuSession.room]
        · simp [hq, hq', hsub q p' hq' hq, SfuSession.room, SfuShard.queuedTrack,
            TrackOut.subscription, TrackOutState.stage]
  refine ⟨?_, fun q p' hp' => ?_, fun q p' hp' t ht => ?_, h.noStale⟩
  · rw [hroom]
    exact h.room.publish (room_published hp) hfresh
  · rw [SfuShard.lookup_addTrack] at hp'
    obtain ⟨p₀, hp₀, rfl⟩ := Option.map_eq_some_iff.mp hp'
    refine Eq.trans ?_ (h.id q p₀ hp₀)
    split
    · rfl
    · split <;> rfl
  · rw [SfuShard.lookup_addTrack] at hp'
    obtain ⟨p₀, hp₀, rfl⟩ := Option.map_eq_some_iff.mp hp'
    by_cases hq : q = pid
    · subst hq
      obtain rfl : p = p₀ := Option.some.inj (hp.symm.trans hp₀)
      simp only [↓reduceIte, List.map_append, List.map_singleton, List.mem_append,
        List.mem_singleton] at ht ⊢
      rcases ht with ht | rfl
      · exact h.announced q p hp t ht
      · exact hmid
    · simp only [hq, ↓reduceIte] at ht ⊢
      split at ht <;> rename_i hsub' <;> simp only [hsub', ↓reduceIte] <;>
        exact h.announced q p₀ hp₀ t ht

/-! ### Offering -/

theorem key_stageTracks (api : S.SdpApi) (ts : List TrackOut) :
    ((SfuShard.stageTracks api ts).2.map TrackOut.subscription).map Room.Subscription.key =
      (ts.map TrackOut.subscription).map Room.Subscription.key := by
  induction ts generalizing api with
  | nil => rfl
  | cons t ts ih =>
    unfold SfuShard.stageTracks
    split
    · exact congrArg (_ :: ·) (ih _)
    · exact congrArg (_ :: ·) (ih _)

/-- Staging opens nothing and closes nothing. -/
theorem mem_stageTracks (api : S.SdpApi) (ts : List TrackOut)
    (u : Room.Subscription ParticipantId Mid (MediaKind × Source)) (n : Mid)
    (hu : u.stage = .opened n) :
    u ∈ (SfuShard.stageTracks api ts).2.map TrackOut.subscription ↔
      u ∈ ts.map TrackOut.subscription := by
  induction ts generalizing api with
  | nil => rfl
  | cons t ts ih =>
    unfold SfuShard.stageTracks
    split
    · rename_i hst
      have hne : ∀ st : TrackOutState, (∀ n, st ≠ .opened n) →
          u ≠ ({ t with state := st } : TrackOut).subscription := by
        rintro st hst rfl
        rcases st with _ | m | m
        · cases hu
        · cases hu
        · exact hst m rfl
      have ht : u ≠ t.subscription := by
        have := hne .toOpen (fun n hn => by cases hn)
        rwa [← hst] at this
      rw [List.map_cons, List.map_cons, List.mem_cons, List.mem_cons, ih,
        iff_false_intro (hne _ fun n hn => by cases hn), iff_false_intro ht]
    · rw [List.map_cons, List.map_cons, List.mem_cons, List.mem_cons, ih]

theorem staged_stageTracks {rtc : S.Rtc} {api : S.SdpApi} (h : S.Staged rtc api)
    (ts : List TrackOut) : S.Staged rtc (SfuShard.stageTracks api ts).1 := by
  induction ts generalizing api with
  | nil => exact h
  | cons t ts ih =>
    unfold SfuShard.stageTracks
    split
    · exact ih (.addMedia t.kind .sendOnly _ h)
    · exact ih h

/-- Writing back a participant whose subscriptions are in another state, none of
them opened or closed. -/
theorem Sound.offer (h : s.Sound R) {pid : ParticipantId} {p p' : SfuParticipant S}
    (hp : s.participants.lookup pid = some p) (hid : p'.id = p.id)
    (hin : p'.tracksIn = p.tracksIn) (hrtc : R.announced p.rtc ⊆ R.announced p'.rtc)
    (hkey : (p'.tracksOut.map TrackOut.subscription).map Room.Subscription.key =
      (p.tracksOut.map TrackOut.subscription).map Room.Subscription.key)
    (hopen : ∀ u n, u.stage = Room.Stage.opened n →
      (u ∈ p'.tracksOut.map TrackOut.subscription ↔ u ∈ p.tracksOut.map TrackOut.subscription)) :
    (s.setParticipant pid p').Sound R := by
  refine h.setParticipant hp hid (by rw [hin]) hrtc ?_
  have hroom : (s.setParticipant pid p').room =
      s.room.offer pid (p'.tracksOut.map TrackOut.subscription) := by
    rw [SfuSession.room, Room.offer, Room.mk.injEq]
    refine ⟨funext fun q => ?_, funext fun q => ?_, rfl⟩
    · rw [SfuSession.setParticipant, Dict.lookup_insert_eq]
      by_cases hq : q = pid
      · simp [hq, SfuSession.room, hp, hin]
      · simp [hq, SfuSession.room]
    · rw [SfuSession.setParticipant, Dict.lookup_insert_eq]
      by_cases hq : q = pid
      · simp [hq]
      · simp [hq, SfuSession.room]
  rw [hroom]
  rw [← room_subs hp] at hkey
  exact h.room.offer hkey fun u n hu => by rw [room_subs hp]; exact hopen u n hu

end SfuSession

/-! ### Every move keeps the sessions in order -/

namespace SfuShard

variable {R : S.MediaRecord} {st st' : SfuShard S}

theorem Sound.setSession (h : st.Sound R) {sid : SessionId} {s : SfuSession S} (hs : s.Sound R) :
    (st.setSession sid s).Sound R := by
  intro sid' s' hs'
  rw [session?_setSession] at hs'
  split at hs'
  · exact Option.some.inj hs' ▸ hs
  · exact h sid' s' hs'

/-- One participant of a session is written back. -/
theorem Sound.setParticipant (h : st.Sound R) {sid : SessionId} {pid : ParticipantId}
    {p : SfuParticipant S}
    (hs : ∀ s, st.session? sid = some s → (s.setParticipant pid p).Sound R) :
    (st.setParticipant sid pid p).Sound R := by
  intro sid' s' hs'
  rw [session?_setParticipant] at hs'
  split at hs'
  · rename_i hsid
    obtain ⟨s, hs'', rfl⟩ := Option.map_eq_some_iff.mp hs'
    exact hs s (hsid ▸ hs'')
  · exact h sid' s' hs'

/-- A participant whose tracks and subscriptions stay as they are. -/
theorem Sound.keep (h : st.Sound R) {sid : SessionId} {pid : ParticipantId}
    {p p' : SfuParticipant S} (hp : st.participant? sid pid = some p) (hid : p'.id = p.id)
    (hin : p'.tracksIn = p.tracksIn) (hout : p'.tracksOut = p.tracksOut)
    (hrtc : R.announced p.rtc ⊆ R.announced p'.rtc) : (st.setParticipant sid pid p').Sound R := by
  obtain ⟨s, hs, hp⟩ := participant?_eq_some.mp hp
  refine h.setParticipant fun s' hs' => ?_
  obtain rfl : s = s' := Option.some.inj (hs.symm.trans hs')
  exact (h sid s hs).offer hp hid hin hrtc (by rw [hout]) fun _ _ _ => by rw [hout]

/-- A participant whose queued tracks are staged for an offer. -/
theorem Sound.stage (h : st.Sound R) {sid : SessionId} {pid : ParticipantId}
    {p p' : SfuParticipant S} (hp : st.participant? sid pid = some p) (hid : p'.id = p.id)
    (hin : p'.tracksIn = p.tracksIn)
    (hout : p'.tracksOut = (stageTracks (S.sdpApi p.rtc) p.tracksOut).2)
    (hrtc : p'.rtc = (S.apply (stageTracks (S.sdpApi p.rtc) p.tracksOut).1).1) :
    (st.setParticipant sid pid p').Sound R := by
  obtain ⟨s, hs, hp⟩ := participant?_eq_some.mp hp
  refine h.setParticipant fun s' hs' => ?_
  obtain rfl : s = s' := Option.some.inj (hs.symm.trans hs')
  refine (h sid s hs).offer hp hid hin ?_ ?_ fun u n hu => ?_
  · rw [hrtc]
    exact R.call (.apply (SfuSession.staged_stageTracks .sdpApi p.tracksOut))
  · rw [hout, SfuSession.key_stageTracks]
  · rw [hout, SfuSession.mem_stageTracks _ _ u n hu]

/-- An announced track keeps the session in order: its mid was not on record before
the announcement, so no track has it, and it is on record now. -/
theorem Sound.announce (h : st.Sound R) {sid : SessionId} {pid : ParticipantId}
    {p : SfuParticipant S} {rtc : S.Rtc} {mid : Mid} {kind : MediaKind}
    (hp : st.participant? sid pid = some p)
    (hpoll : S.pollOutput p.rtc = (rtc, .ok (.event (.mediaAdded mid kind)))) :
    ((st.setParticipant sid pid { p with rtc := rtc }).mediaAdded sid pid mid kind).Sound R := by
  obtain ⟨hnew, hold⟩ := R.announce hpoll
  have hcall : S.Call p.rtc rtc := by
    have hcall := Str0m.Call.pollOutput p.rtc
    rwa [hpoll] at hcall
  have hpolled : (st.setParticipant sid pid { p with rtc := rtc }).Sound R :=
    h.keep hp rfl rfl rfl (R.call hcall)
  have hfresh : mid ∉ (p.tracksIn.map TrackIn.track).map Room.Track.mid := by
    intro hmem
    obtain ⟨t, ht, rfl⟩ := List.mem_map.mp hmem
    obtain ⟨s, hs, hp⟩ := participant?_eq_some.mp hp
    exact hnew ((h sid s hs).announced pid p hp t ht)
  unfold mediaAdded
  split
  · exact hpolled
  · rename_i s hs
    dsimp only
    have hpid : s.participants.lookup pid = some { p with rtc := rtc } := by
      have hpart := participant?_setParticipant hp { p with rtc := rtc } sid pid
      rw [if_pos ⟨rfl, rfl⟩, participant?, hs] at hpart
      exact hpart
    have hpopped := (hpolled sid s hs).frame (frame_popSourceHint s pid kind)
    have hlook : (s.participants.modify pid fun p => (popSourceHint p kind).1).lookup pid =
        some (popSourceHint { p with rtc := rtc } kind).1 := by
      rw [Dict.lookup_modify, if_pos rfl, hpid]
      rfl
    refine fun sid' s' hs' => hpolled.setSession (hpopped.addTrack hlook ?_ ?_ kind _) sid' s' hs'
    · rw [show (popSourceHint { p with rtc := rtc } kind).1.rtc = rtc from by
        unfold popSourceHint; split <;> rfl]
      exact hold
    · rw [show (popSourceHint { p with rtc := rtc } kind).1.tracksIn = p.tracksIn from by
        unfold popSourceHint; split <;> rfl]
      exact hfresh

/-- **Every move keeps every session in order.** -/
theorem Sound.move (h : st.Sound R) {e : Effect} (hm : Move e st st') : st'.Sound R := by
  cases hm with
  | framed hf =>
    intro sid s' hs'
    have hrel := hf.sessions sid
    rw [hs'] at hrel
    obtain ⟨s, hs, hsf⟩ := hrel.some_right
    exact (h sid s hs).frame hsf
  | announced hp hpoll => exact h.announce hp hpoll
  | left _ sid pid =>
    intro sid' s' hs'
    rw [show (st.leaveMove sid pid).session? sid' = _ from
      Dict.lookup_modify st.sessions sid sid' _] at hs'
    split at hs'
    · obtain ⟨s, hs, rfl⟩ := Option.map_eq_some_iff.mp hs'
      exact (h sid' s hs).dropParticipant pid
    · exact h sid' s' hs'
  | deactivated pending hp _ hrtc => exact h.keep hp rfl rfl rfl (R.evolves hrtc)
  | @closed _ sid _ _ _ =>
    intro sid' s' hs'
    rw [show SfuShard.session? { st with sessions := st.sessions.erase sid } sid' = _ from
      Dict.lookup_erase_eq st.sessions sid sid'] at hs'
    split at hs'
    · cases hs'
    · exact h sid' s' hs'
  | @admitted _ sid pid userId tx rtc answer creds now hnone =>
    intro sid' s' hs'
    rw [session?_addParticipant] at hs'
    split at hs'
    · rw [← Option.some.inj hs']
      rw [participant?] at hnone
      cases hs : st.session? sid with
      | none => exact (SfuSession.sound_new sid).join rfl userId rtc tx now
      | some s =>
        rw [hs] at hnone
        exact (h sid s hs).join hnone userId rtc tx now
    · exact h sid' s' hs'
  | @opened _ sid pid s p pending answer rtc hs hp _ haccept =>
    have hcall := Str0m.Call.acceptAnswer p.rtc pending answer
    rw [haccept] at hcall
    exact h.setSession ((h sid s hs).answer hp (.single hcall))
  | @refused _ sid pid p pending answer rtc e hp _ haccept =>
    have hcall := Str0m.Call.acceptAnswer p.rtc pending answer
    rw [haccept] at hcall
    exact h.keep hp rfl rfl rfl (R.call hcall)
  | taken => exact h
  | offered hp _ happly => exact h.stage hp rfl rfl rfl (by rw [happly])
  | unsent hp _ _ happly => exact h.stage hp rfl rfl rfl (by rw [happly])

theorem Sound.moves (h : st.Sound R) {E : Effect → Prop} (hm : Moves E st st') : st'.Sound R :=
  hm.invariant (fun _ _ _ _ hm h => h.move hm) h

theorem sound_of_reachable (R : S.MediaRecord) (hst : (system S).Reachable st) : st.Sound R := by
  refine hst.invariant (fun st hinit => ?_) fun st i st' h _ hstep => ?_
  · obtain ⟨_, _, _, rfl⟩ := hinit
    exact fun _ _ hs => by cases hs
  · exact h.moves (moves_of_step hstep)

end SfuShard

/-! ### What order says of the maps -/

namespace SfuSession

/-- **The forwarding map is exact**: a subscriber and its mid are listed for a track exactly if
the subscriber is in the session and has the track open under that mid; they are listed once;
and every list there is is non-empty and that of a publisher in the session. -/
def ForwardsExactly (s : SfuSession S) : Prop :=
  (∀ o m q n, (q, n) ∈ s.targets (o, m) ↔ ∃ p, s.participants.lookup q = some p ∧
    ∃ t ∈ p.tracksOut, t.origin = o ∧ t.originMid = m ∧ t.state = .opened n) ∧
  (∀ k t, t ∈ s.targets k → (s.targets k).count t = 1) ∧
  ∀ k targets, s.forwardingMap.lookup k = some targets →
    targets ≠ [] ∧ (s.participants.lookup k.1).isSome

/-- **The fan-out lists are complete and unique**: what a participant subscribes to from another
is what the other publishes, with the same mids, kinds and sources in the same order, each mid
once; and a participant subscribes to nobody outside the session and not to itself. -/
def FansOut (s : SfuSession S) : Prop :=
  (∀ P Q p q, P ≠ Q → s.participants.lookup P = some p → s.participants.lookup Q = some q →
    ((p.tracksOut.filter fun t => t.origin = Q).map fun t => (t.originMid, t.kind, t.source)) =
      (q.tracksIn.map fun t => (t.mid, t.kind, t.source)) ∧
    (q.tracksIn.map fun t => t.mid).Nodup) ∧
  ∀ P p, s.participants.lookup P = some p → ∀ t ∈ p.tracksOut,
    t.origin ≠ P ∧ (s.participants.lookup t.origin).isSome

variable {R : S.MediaRecord} {s : SfuSession S}

theorem Sound.forwardsExactly (h : s.Sound R) : s.ForwardsExactly := by
  have hstage : ∀ (t : TrackOut) n, t.subscription.stage = .opened n ↔ t.state = .opened n := by
    intro t n
    rcases hst : t.state with _ | m | m <;>
      simp [TrackOut.subscription, TrackOutState.stage, hst]
  have hmem : ∀ o m q n, (q, n) ∈ s.targets (o, m) ↔ ∃ p, s.participants.lookup q = some p ∧
      ∃ t ∈ p.tracksOut, t.origin = o ∧ t.originMid = m ∧ t.state = .opened n := by
    intro o m q n
    refine (h.room.mem_targets o m q n).trans ⟨?_, ?_⟩
    · rintro ⟨u, hu, ho, hm, hn⟩
      obtain ⟨p, hp⟩ := live_iff.mp (h.room.live q u hu)
      rw [room_subs hp] at hu
      obtain ⟨t, ht, rfl⟩ := List.mem_map.mp hu
      exact ⟨p, hp, t, ht, ho, hm, (hstage t n).mp hn⟩
    · rintro ⟨p, hp, t, ht, ho, hm, hn⟩
      refine ⟨t.subscription, ?_, ho, hm, (hstage t n).mpr hn⟩
      rw [room_subs hp]
      exact List.mem_map_of_mem ht
  refine ⟨hmem, fun k t ht => ?_, fun k targets hk => ?_⟩
  · exact List.count_eq_one_of_mem (h.room.nodup_targets k.1 k.2) ht
  · have hne : targets ≠ [] := fun hnil => h.noStale k (hnil ▸ hk)
    obtain ⟨⟨q, n⟩, hqn⟩ := List.exists_mem_of_ne_nil targets hne
    have hin : (q, n) ∈ s.room.targets k.1 k.2 := by
      rw [show s.room.targets k.1 k.2 = targets from by simp [SfuSession.room, SfuSession.targets, hk]]
      exact hqn
    obtain ⟨u, hu, ho, -⟩ := (h.room.mem_targets k.1 k.2 q n).mp hin
    obtain ⟨p, hp⟩ := live_iff.mp (ho ▸ h.room.origin_live q u hu)
    exact ⟨hne, by rw [hp]; rfl⟩

theorem Sound.fansOut (h : s.Sound R) : s.FansOut := by
  refine ⟨fun P Q p q hne hp hq => ⟨?_, ?_⟩, fun P p hp t ht => ?_⟩
  · have hc := h.room.complete P Q _ (live_iff.mpr ⟨p, hp⟩) hne
      (room_published hq)
    rw [room_subs hp, Room.tracksFrom_eq, List.filter_map, List.map_map] at hc
    have hc := congrArg (List.map fun t => (t.mid, t.label.1, t.label.2)) hc
    rw [List.map_map, List.map_map] at hc
    exact hc
  · have hnd := h.room.nodup_published Q _ (room_published hq)
    rw [List.map_map] at hnd
    exact hnd
  · have hu : t.subscription ∈ s.room.subs P := by
      rw [room_subs hp]
      exact List.mem_map_of_mem ht
    obtain ⟨q, hq⟩ := live_iff.mp (h.room.origin_live P t.subscription hu)
    exact ⟨h.room.origin_ne P t.subscription hu,
      by rw [show s.participants.lookup t.origin = some q from hq]; rfl⟩

end SfuSession

/-! ### A call of two

Participant 1 joins publishing audio and video, participant 2 joins publishing
audio, and both answer the offers for each other's tracks. -/

def twoParty : List SfuShard.Input :=
  [.command (.join 7 1 "alice" "av" 11) ⟨"ua", "pa"⟩ 0 9,
    .command (.join 7 2 "bob" "a" 12) ⟨"ub", "pb"⟩ 0 9,
    .negotiate,
    .command (.answer 7 2 "accept") ⟨"", ""⟩ 40 9,
    .command (.answer 7 1 "accept") ⟨"", ""⟩ 60 9]

/-- The state of the shard in that call. -/
def twoPartyCall : SfuShard scripted := .run [(1, 2)] 12000 twoParty

/-- Its session. -/
def twoPartySession : SfuSession scripted := (twoPartyCall.session? 7).get (by decide)

theorem session?_twoPartyCall : twoPartyCall.session? 7 = some twoPartySession :=
  (Option.some_get _).symm

/-! ### The results -/

/-- **The forwarding map is exact.** Between any two steps of any run, a subscriber
and its mid are listed for a track exactly if the subscriber is in the session and
has the track open under that mid; they are listed once; and every list there is is
non-empty and that of a publisher in the session. -/
theorem forwardingMap_exact (hmedia : S.MediaAddedOnce) {st : SfuShard S}
    (hst : (SfuShard.system S).Reachable st) {sid : SessionId} {s : SfuSession S}
    (hs : st.session? sid = some s) :
    (∀ o m q n, (q, n) ∈ s.targets (o, m) ↔ ∃ p, s.participants.lookup q = some p ∧
      ∃ t ∈ p.tracksOut, t.origin = o ∧ t.originMid = m ∧ t.state = .opened n) ∧
    (∀ k t, t ∈ s.targets k → (s.targets k).count t = 1) ∧
    ∀ k targets, s.forwardingMap.lookup k = some targets →
      targets ≠ [] ∧ (s.participants.lookup k.1).isSome := by
  obtain ⟨R⟩ := hmedia
  exact (SfuShard.sound_of_reachable R hst sid s hs).forwardsExactly

/-- In the call of two, the entry of participant 2 for the audio of participant 1
stands for a track it has open. -/
theorem forwardingMap_exact_twoParty : ∃ p, twoPartySession.participants.lookup 2 = some p ∧
    ∃ t ∈ p.tracksOut, t.origin = 1 ∧ t.originMid = 0 ∧ t.state = .opened 1000 :=
  ((forwardingMap_exact Scripted.mediaAddedOnce (SfuShard.reachable_run _ _ twoParty)
    session?_twoPartyCall).1 1 0 2 1000).mp (by decide)

/-- **The fan-out lists are complete and unique.** Between any two steps of any run,
what a participant subscribes to from another is what the other publishes, with the
same mids, kinds and sources in the same order, each mid once; and a participant
subscribes to nobody outside the session and not to itself. -/
theorem fanOut_complete (hmedia : S.MediaAddedOnce) {st : SfuShard S}
    (hst : (SfuShard.system S).Reachable st) {sid : SessionId} {s : SfuSession S}
    (hs : st.session? sid = some s) :
    (∀ P Q p q, P ≠ Q → s.participants.lookup P = some p → s.participants.lookup Q = some q →
      ((p.tracksOut.filter fun t => t.origin = Q).map fun t => (t.originMid, t.kind, t.source)) =
        (q.tracksIn.map fun t => (t.mid, t.kind, t.source)) ∧
      (q.tracksIn.map fun t => t.mid).Nodup) ∧
    ∀ P p, s.participants.lookup P = some p → ∀ t ∈ p.tracksOut,
      t.origin ≠ P ∧ (s.participants.lookup t.origin).isSome := by
  obtain ⟨R⟩ := hmedia
  exact (SfuShard.sound_of_reachable R hst sid s hs).fansOut

/-- In the call of two, participant 2 subscribes to what participant 1 publishes. -/
theorem fanOut_complete_twoParty : ∃ p q, twoPartySession.participants.lookup 2 = some p ∧
    twoPartySession.participants.lookup 1 = some q ∧ q.tracksIn.length = 2 ∧
    ((p.tracksOut.filter fun t => t.origin = 1).map fun t => (t.originMid, t.kind, t.source)) =
      (q.tracksIn.map fun t => (t.mid, t.kind, t.source)) := by
  have hp := Option.some_get (show (twoPartySession.participants.lookup 2).isSome from by decide)
  have hq := Option.some_get (show (twoPartySession.participants.lookup 1).isSome from by decide)
  exact ⟨_, _, hp.symm, hq.symm, by decide,
    ((fanOut_complete Scripted.mediaAddedOnce (SfuShard.reachable_run _ _ twoParty)
      session?_twoPartyCall).1 2 1 _ _ (by decide) hp.symm hq.symm).1⟩

end Video

end MateHub
