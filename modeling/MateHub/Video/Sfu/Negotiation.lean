import MateHub.Video.Scripted
import MateHub.Video.Sfu.Effects

/-!
# Subscriptions on their way to being open

A subscription that is not open is either `ToOpen`, and its participant is in
`pending_negotiation`, which the next pass of `negotiate_pending_tracks` takes up,
or `Negotiating`, and it is part of the offer the participant is to answer. The
negotiation state is spread over these two and `pending_offer`, and the handlers
keep it together – with two exceptions, both on an error exit:

* `handle_answer` takes the pending offer before str0m is asked to accept the
  answer, and on a refusal leaves the tracks `Negotiating` with no offer pending;
* `negotiate_pending_tracks` marks the tracks `Negotiating` before the change is
  applied, and leaves them so when `apply` gives no offer.

`MateHub.Video.SfuShard.Strands` is exactly that: it is what a step must not do for
the tracks to stay accounted for (`MateHub.Video.noStranded_of_reach`), and a step
that does it leaves a track stranded (`MateHub.Video.SfuShard.NoStranded.step_iff`).
-/

namespace MateHub

namespace Video

variable {S : Str0m}

/-- The subscriptions of a participant are accounted for: one that waits to be
offered has its participant queued, one that was offered is covered by the offer
that is pending. -/
structure SfuParticipant.Settled (p : SfuParticipant S) (queued : Prop) : Prop where
  queued : ∀ t ∈ p.tracksOut, t.state = .toOpen → queued
  covered : ∀ t ∈ p.tracksOut, ∀ mid, t.state = .negotiating mid →
    ∃ pending, p.pendingOffer = some pending ∧ S.Covers pending mid

namespace SfuParticipant.Settled

variable {p p' : SfuParticipant S} {q q' : Prop}

theorem imp (h : p.Settled q) (hq : q → q') : p.Settled q' :=
  ⟨fun t ht hst => hq (h.queued t ht hst), h.covered⟩

/-- Subscriptions that were there before, in the same state, under the same offer. -/
theorem keep (h : p.Settled q) (hpending : p'.pendingOffer = p.pendingOffer)
    (hout : ∀ t' ∈ p'.tracksOut, ∃ t ∈ p.tracksOut, t.state = t'.state) : p'.Settled q where
  queued := fun t' ht' hst => by
    obtain ⟨t, ht, heq⟩ := hout t' ht'
    exact h.queued t ht (heq.trans hst)
  covered := fun t' ht' mid hst => by
    obtain ⟨t, ht, heq⟩ := hout t' ht'
    rw [hpending]
    exact h.covered t ht mid (heq.trans hst)

/-- With no offer pending, no subscription is negotiating. -/
theorem not_negotiating (h : p.Settled q) (hpending : p.pendingOffer = none) {t : TrackOut}
    (ht : t ∈ p.tracksOut) (mid : Mid) : t.state ≠ .negotiating mid := by
  intro hst
  obtain ⟨pending, hp, -⟩ := h.covered t ht mid hst
  rw [hpending] at hp
  cases hp

/-- Where nothing is negotiating, the pending offer does not matter. -/
theorem repend (h : p.Settled q) (hnone : ∀ t ∈ p.tracksOut, ∀ mid, t.state ≠ .negotiating mid)
    (hout : p'.tracksOut = p.tracksOut) : p'.Settled q where
  queued := fun t ht hst => h.queued t (hout ▸ ht) hst
  covered := fun t ht mid hst => absurd hst (hnone t (hout ▸ ht) mid)

theorem stage_injective {a b : TrackOutState} (h : a.stage = b.stage) : a = b := by
  cases a <;> cases b <;> simp_all [TrackOutState.stage]

theorem frame (h : p.Settled q) (hf : p.Frame p') : p'.Settled q := by
  refine h.keep hf.pendingOffer fun t' ht' => ?_
  have hmem : t'.subscription ∈ p.tracksOut.map TrackOut.subscription :=
    hf.tracksOut ▸ List.mem_map_of_mem ht'
  obtain ⟨t, ht, heq⟩ := List.mem_map.mp hmem
  exact ⟨t, ht, stage_injective (congrArg Room.Subscription.stage heq)⟩

end SfuParticipant.Settled

namespace SfuShard

/-- **No subscription is stranded**, counting as queued also the participants that a
pass of `negotiate_pending_tracks` has taken and not reached yet. -/
def NoStranded (st : SfuShard S) (todo : List (SessionId × ParticipantId)) : Prop :=
  ∀ sid pid p, st.participant? sid pid = some p →
    p.Settled ((sid, pid) ∈ st.pendingNegotiation ∨ (sid, pid) ∈ todo)

/-- A participant whose queued tracks give no offer when they are staged. -/
def StrandingOffer (st : SfuShard S) (e : SessionId × ParticipantId) : Prop :=
  ∃ p rtc, st.participant? e.1 e.2 = some p ∧ p.pendingOffer = none ∧ hasToOpen p = true ∧
    S.apply (stageTracks (S.sdpApi p.rtc) p.tracksOut).1 = (rtc, none)

/-- **The steps that strand a subscription**: an answer that str0m refuses while
tracks wait for it, and a negotiation whose change gives no offer. -/
def Strands (st : SfuShard S) : Input → Prop
  | .command (.answer sid pid sdpAnswer) _ _ _ => StrandingAnswer st sid pid sdpAnswer
  | .negotiate => ∃ e ∈ st.pendingNegotiation, StrandingOffer st e
  | _ => False

/-! ### Moves that strand nothing -/

namespace NoStranded

variable {st st' : SfuShard S} {todo : List (SessionId × ParticipantId)}

/-- One participant is written back. -/
theorem setParticipant (h : st.NoStranded todo) {sid : SessionId} {pid : ParticipantId}
    {p p' : SfuParticipant S} (hp : st.participant? sid pid = some p)
    (hp' : p'.Settled ((sid, pid) ∈ st.pendingNegotiation ∨ (sid, pid) ∈ todo)) :
    (st.setParticipant sid pid p').NoStranded todo := by
  intro sid' pid' q hq
  rw [participant?_setParticipant hp] at hq
  split at hq
  · rename_i heq
    rw [← Option.some.inj hq, heq.1, heq.2]
    exact hp'
  · exact h sid' pid' q hq

theorem frame (h : st.NoStranded todo) (hf : st.Frame st') : st'.NoStranded todo := by
  intro sid pid p' hp'
  have hrel := hf.participant sid pid
  rw [hp'] at hrel
  obtain ⟨p, hp, hpf⟩ := hrel.some_right
  exact ((h sid pid p hp).frame hpf).imp (Or.imp_left (hf.pendingNegotiation _))

/-- Whoever is given a subscription to the new track is among the newly queued. -/
theorem mem_newlyQueued {s : SfuSession S} {origin q : ParticipantId} {mid : Mid}
    {p : SfuParticipant S} (hp : s.participants.lookup q = some p) (hq : q ≠ origin)
    (hsub : ¬ subscribesTo p origin mid = true) : q ∈ newlyQueued s origin mid :=
  List.mem_filterMap.mpr ⟨(q, p), Dict.mem_pairs.mpr hp, by simp [hq, hsub]⟩

/-- A new track is queued for everyone that has to subscribe. -/
theorem mediaAdded (h : st.NoStranded todo) (sid : SessionId) (origin : ParticipantId) (mid : Mid)
    (kind : MediaKind) : (st.mediaAdded sid origin mid kind).NoStranded todo := by
  unfold SfuShard.mediaAdded
  split
  · exact h
  · rename_i s hs
    dsimp only
    -- popping the source hint changes no subscription
    have hpop : ∀ q p', (s.participants.modify origin fun p => (popSourceHint p kind).1).lookup q =
        some p' → p'.Settled ((sid, q) ∈ st.pendingNegotiation ∨ (sid, q) ∈ todo) := by
      intro q p' hp'
      have hrel := (frame_popSourceHint s origin kind).participants q
      rw [hp'] at hrel
      obtain ⟨p, hp, hpf⟩ := hrel.some_right
      exact (h sid q p (participant?_eq_some.mpr ⟨s, hs, hp⟩)).frame hpf
    generalize s.participants.modify origin (fun p => (popSourceHint p kind).1) = ps at hpop ⊢
    intro sid' q p' hp'
    rw [participant?_recordTrack] at hp'
    rw [recordTrack, Dict.mem_foldl_insert]
    split at hp'
    · rename_i hsid
      subst hsid
      obtain ⟨p, hp, rfl⟩ := Option.map_eq_some_iff.mp hp'
      have hsettled := hpop q p hp
      split
      · exact (hsettled.imp (Or.imp_left .inl)).keep rfl fun t ht => ⟨t, ht, rfl⟩
      · rename_i hq
        split
        · exact hsettled.imp (Or.imp_left .inl)
        · rename_i hsub
          have hmem := mem_newlyQueued (s := { s with participants := ps }) hp hq hsub
          refine ⟨fun t ht hst => .inl (.inr ⟨q, hmem, rfl⟩), fun t ht n hst => ?_⟩
          rcases List.mem_append.mp ht with ht | ht
          · exact hsettled.covered t ht n hst
          · rw [List.mem_singleton.mp ht] at hst
            cases hst
    · exact (h sid' q p' hp').imp (Or.imp_left .inl)

theorem leaveMove (h : st.NoStranded todo) (sid : SessionId) (pid : ParticipantId) :
    (st.leaveMove sid pid).NoStranded todo := by
  intro sid' pid' p' hp'
  rw [participant?_leaveMove] at hp'
  have herase : (sid', pid') ∈ (st.leaveMove sid pid).pendingNegotiation ↔
      (sid', pid') ≠ (sid, pid) ∧ (sid', pid') ∈ st.pendingNegotiation := AList.mem_erase
  rw [herase]
  split at hp'
  · split at hp'
    · cases hp'
    · rename_i hpid
      obtain ⟨p, hp, rfl⟩ := Option.map_eq_some_iff.mp hp'
      refine ((h sid' pid' p hp).imp (Or.imp_left fun hq => ⟨?_, hq⟩)).keep rfl fun t ht =>
        ⟨t, List.mem_of_mem_filter ht, rfl⟩
      exact fun heq => hpid (congrArg Prod.snd heq)
  · rename_i hsid
    refine (h sid' pid' p' hp').imp (Or.imp_left fun hq => ⟨?_, hq⟩)
    exact fun heq => hsid (congrArg Prod.fst heq)

/-- A participant that is admitted subscribes to existing tracks only if it is
queued. -/
theorem addParticipant (h : st.NoStranded todo) (sid : SessionId) (pid : ParticipantId) (userId : String)
    (tx : WsTx) (rtc : S.Rtc) (answer : S.SdpAnswer) (creds : IceCreds) (now : Instant) :
    (st.addParticipant sid pid userId tx rtc answer creds now).NoStranded todo := by
  intro sid' pid' p' hp'
  rw [participant?_addParticipant] at hp'
  set existing := existingTracks ((st.session? sid).getD (.new sid)) with hexisting
  have hpending : (st.addParticipant sid pid userId tx rtc answer creds now).pendingNegotiation =
      if existing.isEmpty then st.pendingNegotiation
      else st.pendingNegotiation.insert (sid, pid) () := by
    unfold SfuShard.addParticipant
    dsimp only
    rw [← hexisting]
    split <;> rfl
  rw [hpending]
  split at hp'
  · rename_i heq
    obtain rfl := Option.some.inj hp'
    have hwaiting : ∀ t ∈ (newParticipant (S := S) pid userId rtc tx now existing).tracksOut,
        t.state = .toOpen := by
      intro t ht
      obtain ⟨e, -, rfl⟩ := List.mem_map.mp ht
      rfl
    refine ⟨fun t ht _ => .inl ?_, fun t ht mid hst => ?_⟩
    · obtain ⟨e, he, -⟩ := List.mem_map.mp ht
      rw [if_neg (by simpa using List.ne_nil_of_mem he), heq.1, heq.2]
      exact (AList.mem_insert _).mpr (.inl rfl)
    · rw [hwaiting t ht] at hst
      cases hst
  · refine (h sid' pid' p' hp').imp (Or.imp_left fun hq => ?_)
    split
    · exact hq
    · exact (AList.mem_insert _).mpr (.inr hq)

/-- An accepted answer opens what was negotiating. -/
theorem registerTracks (h : st.NoStranded todo) {sid : SessionId} {pid : ParticipantId}
    {s : SfuSession S} {p : SfuParticipant S} (hs : st.session? sid = some s)
    (hp : s.participants.lookup pid = some p) (rtc : S.Rtc) :
    (st.setSession sid (registerTracks s pid p rtc)).NoStranded todo := by
  intro sid' pid' p' hp'
  rw [participant?_setSession] at hp'
  have hpending : (st.setSession sid (SfuShard.registerTracks s pid p rtc)).pendingNegotiation =
      st.pendingNegotiation := rfl
  rw [hpending]
  split at hp'
  · rename_i hsid
    subst hsid
    rw [lookup_registerTracks] at hp'
    split at hp'
    · rename_i hpid
      subst hpid
      obtain rfl := Option.some.inj hp'
      have hsettled := h sid' pid' p (participant?_eq_some.mpr ⟨s, hs, hp⟩)
      refine ⟨fun t' ht' hst => ?_, fun t' ht' mid hst => ?_⟩ <;>
        obtain ⟨t, ht, rfl⟩ := List.mem_map.mp ht' <;> unfold TrackOut.answered at hst
      · split at hst
        · cases hst
        · exact hsettled.queued t ht hst
      · split at hst
        · cases hst
        · rename_i hne
          exact absurd hst (hne mid)
    · exact h sid' pid' p' (participant?_eq_some.mpr ⟨s, hs, hp'⟩)
  · exact h sid' pid' p' hp'

/-- **Every move but three keeps the subscriptions accounted for**: the refusal of an
answer that tracks wait for, and the two moves of `negotiate_pending_tracks` that
do so only together. -/
theorem move (h : st.NoStranded todo) {e : Effect} (hm : Move e st st')
    (hrefused : ∀ sid pid, e ≠ .refused sid pid true) (htaken : e ≠ .taken)
    (hoffered : ∀ sid pid, e ≠ .offered sid pid) (hunsent : ∀ sid pid, e ≠ .unsent sid pid) :
    st'.NoStranded todo := by
  cases hm with
  | framed hf => exact h.frame hf
  | announced hp hpoll =>
    refine mediaAdded ?_ _ _ _ _
    exact h.setParticipant hp ((h _ _ _ hp).keep rfl fun t ht => ⟨t, ht, rfl⟩)
  | left _ sid pid => exact h.leaveMove sid pid
  | deactivated pending hp hnone _ =>
    exact h.setParticipant hp ((h _ _ _ hp).repend
      (fun t ht mid => (h _ _ _ hp).not_negotiating hnone ht mid) rfl)
  | @closed _ sid s hs hempty =>
    intro sid' pid p hp
    refine h sid' pid p ?_
    obtain ⟨s', hs', hp⟩ := participant?_eq_some.mp hp
    have hs' : (st.sessions.erase sid).lookup sid' = some s' := hs'
    rw [Dict.lookup_erase_eq] at hs'
    split at hs'
    · cases hs'
    · exact participant?_eq_some.mpr ⟨s', hs', hp⟩
  | admitted userId tx rtc answer creds now _ => exact h.addParticipant _ _ userId tx rtc answer creds now
  | opened hs hp _ _ => exact h.registerTracks hs hp _
  | @refused _ sid pid p pending answer rtc e hp _ _ =>
    refine h.setParticipant hp ((h _ _ _ hp).repend (fun t ht mid hst => ?_) rfl)
    refine hrefused sid pid (congrArg (Effect.refused sid pid) ?_)
    exact List.any_eq_true.mpr ⟨t, ht, by rw [hst]⟩
  | taken => exact absurd rfl htaken
  | offered _ _ _ => exact absurd rfl (hoffered _ _)
  | unsent _ _ _ _ => exact absurd rfl (hunsent _ _)

end NoStranded

/-! ### Negotiating -/

theorem adds_stageTracks {api : S.SdpApi} {mid : Mid} (h : S.Adds api mid) (ts : List TrackOut) :
    S.Adds (stageTracks api ts).1 mid := by
  induction ts generalizing api with
  | nil => exact h
  | cons t ts ih =>
    unfold stageTracks
    split
    · exact ih (.addMedia_of _ _ _ h)
    · exact ih h

/-- After staging, no track waits, and what is negotiating was so before or has been
added to the change. -/
theorem mem_stageTracks_state {api : S.SdpApi} {ts : List TrackOut} {t : TrackOut}
    (ht : t ∈ (stageTracks api ts).2) : t.state ≠ .toOpen ∧ ∀ mid, t.state = .negotiating mid →
      t ∈ ts ∨ S.Adds (stageTracks api ts).1 mid := by
  induction ts generalizing api with
  | nil => cases ht
  | cons u ts ih =>
    unfold stageTracks at ht ⊢
    split at ht
    · rcases List.mem_cons.mp ht with rfl | ht
      · refine ⟨by simp, fun mid hst => .inr ?_⟩
        rw [← TrackOutState.negotiating.inj hst]
        exact adds_stageTracks (.addMedia _ _ _ _) ts
      · obtain ⟨hne, hadds⟩ := ih ht
        exact ⟨hne, fun mid hst => (hadds mid hst).imp_left (List.mem_cons_of_mem u)⟩
    · rename_i hu
      rcases List.mem_cons.mp ht with rfl | ht
      · exact ⟨hu, fun mid hst => .inl List.mem_cons_self⟩
      · obtain ⟨hne, hadds⟩ := ih ht
        exact ⟨hne, fun mid hst => (hadds mid hst).imp_left (List.mem_cons_of_mem u)⟩

variable {st st' : SfuShard S}

/-- One turn of the loop settles one of the participants taken, unless its change
gives no offer. -/
theorem NoStranded.negotiateOne {e : SessionId × ParticipantId}
    {todo : List (SessionId × ParticipantId)} (h : st.NoStranded (e :: todo))
    (hoffer : ¬ StrandingOffer st e) : (SfuShard.negotiateOne st e).NoStranded todo := by
  have hother : ∀ {sid pid p}, st.participant? sid pid = some p → (sid, pid) ≠ e →
      p.Settled ((sid, pid) ∈ st.pendingNegotiation ∨ (sid, pid) ∈ todo) := by
    intro sid pid p hp hne
    exact (h sid pid p hp).imp (Or.imp_right fun hmem => (List.mem_cons.mp hmem).resolve_left hne)
  unfold SfuShard.negotiateOne
  split
  · rename_i hs
    intro sid pid p hp
    refine hother hp fun heq => ?_
    rw [participant?, show sid = e.1 from congrArg Prod.fst heq, hs] at hp
    cases hp
  · rename_i s hs
    split
    · rename_i hp₀
      intro sid pid p hp
      refine hother hp fun heq => ?_
      rw [participant?, show sid = e.1 from congrArg Prod.fst heq, hs, Option.bind_some,
        show pid = e.2 from congrArg Prod.snd heq, hp₀] at hp
      cases hp
    · rename_i p hp₀
      have hp : st.participant? e.1 e.2 = some p := participant?_eq_some.mpr ⟨s, hs, hp₀⟩
      have hsettled := h e.1 e.2 p hp
      have hwrite : ∀ p' : SfuParticipant S, p'.Settled
          ((e.1, e.2) ∈ st.pendingNegotiation ∨ (e.1, e.2) ∈ todo) →
          (st.setParticipant e.1 e.2 p').NoStranded todo := by
        intro p' hp' sid pid q hq
        rw [participant?_setParticipant hp] at hq
        split at hq
        · rename_i heq
          rw [← Option.some.inj hq, heq.1, heq.2]
          exact hp'
        · rename_i hne
          exact hother hq fun heq => hne ⟨congrArg Prod.fst heq, congrArg Prod.snd heq⟩
      split
      · intro sid pid q hq
        refine (h sid pid q hq).imp fun hmem => ?_
        rw [AList.mem_insert, List.mem_cons] at *
        rcases hmem with hmem | hmem | hmem
        · exact .inl (.inr hmem)
        · exact .inl (.inl hmem)
        · exact .inr hmem
      · rename_i hpending
        have hpending : p.pendingOffer = none := by simpa using hpending
        split
        · rename_i hnone
          have hnone : ∀ t ∈ p.tracksOut, t.state ≠ .toOpen := by
            simpa [hasToOpen] using hnone
          exact hwrite _ ⟨fun t ht hst => absurd hst (hnone t ht), hsettled.covered⟩
        · rename_i htoOpen
          dsimp only
          split
          · rename_i heq
            exact absurd ⟨p, _, hp, hpending, by simpa using htoOpen, heq⟩ hoffer
          · rename_i heq
            refine (hwrite _ ⟨fun t ht hst => ?_, fun t ht mid hst => ?_⟩).frame (.wsTrySend _ _ _)
            · exact absurd hst (mem_stageTracks_state ht).1
            · rcases (mem_stageTracks_state ht).2 mid hst with hmem | hadds
              · exact absurd hst (hsettled.not_negotiating hpending hmem mid)
              · exact ⟨_, rfl, _, _, _, hadds, heq⟩

/-- One turn of the loop touches one participant. -/
theorem participant?_negotiateOne (st : SfuShard S) {e e' : SessionId × ParticipantId}
    (hne : e' ≠ e) : (SfuShard.negotiateOne st e).participant? e'.1 e'.2 =
      st.participant? e'.1 e'.2 := by
  have hset : ∀ {p} (p' : SfuParticipant S), st.participant? e.1 e.2 = some p →
      (st.setParticipant e.1 e.2 p').participant? e'.1 e'.2 = st.participant? e'.1 e'.2 := by
    intro p p' hp
    rw [participant?_setParticipant hp, if_neg fun heq => hne (Prod.ext heq.1 heq.2)]
  unfold SfuShard.negotiateOne
  split
  · rfl
  · rename_i s hs
    split
    · rfl
    · rename_i p hp
      have hp : st.participant? e.1 e.2 = some p := participant?_eq_some.mpr ⟨s, hs, hp⟩
      split
      · rfl
      · split
        · exact hset _ hp
        · dsimp only
          split
          · exact hset _ hp
          · exact hset _ hp

/-- The whole pass: the participants not reached yet are as they were at its start. -/
theorem NoStranded.foldl_negotiateOne {todo : List (SessionId × ParticipantId)}
    (hnd : todo.Nodup) (h : st.NoStranded todo) (hoffer : ∀ e ∈ todo, ¬ StrandingOffer st e) :
    (todo.foldl SfuShard.negotiateOne st).NoStranded [] := by
  induction todo generalizing st with
  | nil => exact h
  | cons e todo ih =>
    obtain ⟨hmem, hnd⟩ := List.nodup_cons.mp hnd
    refine ih hnd (h.negotiateOne (hoffer e List.mem_cons_self)) fun e' he' hst => ?_
    have hne : e' ≠ e := fun heq => hmem (heq ▸ he')
    obtain ⟨p, rtc, hp, hrest⟩ := hst
    rw [participant?_negotiateOne st hne] at hp
    exact hoffer e' (List.mem_cons_of_mem e he') ⟨p, rtc, hp, hrest⟩

theorem NoStranded.negotiatePendingTracks (h : st.NoStranded [])
    (hoffer : ∀ e ∈ st.pendingNegotiation, ¬ StrandingOffer st e) :
    st.negotiatePendingTracks.NoStranded [] := by
  refine NoStranded.foldl_negotiateOne st.pendingNegotiation.keys_nodup (fun sid pid p hp => ?_)
    fun e he => hoffer e he
  exact (h sid pid p hp).imp fun hmem => .inr (hmem.resolve_right List.not_mem_nil)

/-! ### Runs -/

/-- **A step that strands nothing leaves no subscription stranded.** -/
theorem NoStranded.step {i : Input} (h : st.NoStranded []) (hstep : Step st i st')
    (hok : ¬ Strands st i) : st'.NoStranded [] := by
  by_cases hi : i = .negotiate
  · subst hi
    cases hstep
    exact h.negotiatePendingTracks fun e he hst => hok ⟨e, he, hst⟩
  · refine (moves_of_step hstep).invariant (I := fun st => st.NoStranded [])
      (fun e st₁ st₂ he hm h => h.move hm ?_ ?_ ?_ ?_) h
    · rintro sid pid rfl
      cases i with
      | command cmd creds now fuel =>
        cases cmd with
        | answer sid' pid' sdpAnswer =>
          obtain ⟨rfl, rfl, hstranding⟩ := he
          exact hok (hstranding rfl)
        | _ => exact he
      | _ => exact he
    all_goals
      intros
      rintro rfl
      cases i with
      | negotiate => exact hi rfl
      | _ => exact he

/-! ### The condition is exact -/

/-- A participant with a track that is negotiating while no offer is pending. -/
def Stranded (st : SfuShard S) (e : SessionId × ParticipantId) : Prop :=
  ∃ p, st.participant? e.1 e.2 = some p ∧ p.pendingOffer = none ∧
    ∃ t ∈ p.tracksOut, ∃ mid, t.state = .negotiating mid

theorem Stranded.not_noStranded {e : SessionId × ParticipantId} (h : st.Stranded e) :
    ¬ st.NoStranded [] := by
  intro hno
  obtain ⟨p, hp, hpending, t, ht, mid, hst⟩ := h
  exact (hno e.1 e.2 p hp).not_negotiating hpending ht mid hst

theorem stranded_setParticipant {sid : SessionId} {pid : ParticipantId} {p p' : SfuParticipant S}
    (hp : st.participant? sid pid = some p) (hpending : p'.pendingOffer = none)
    (ht : ∃ t ∈ p'.tracksOut, ∃ mid, t.state = .negotiating mid) :
    (st.setParticipant sid pid p').Stranded (sid, pid) :=
  ⟨p', by rw [participant?_setParticipant hp, if_pos ⟨rfl, rfl⟩], hpending, ht⟩

theorem Stranded.frame {e : SessionId × ParticipantId} (h : st.Stranded e) (hf : st.Frame st') :
    st'.Stranded e := by
  obtain ⟨p, hp, hpending, t, ht, mid, hst⟩ := h
  have hrel := hf.participant e.1 e.2
  rw [hp] at hrel
  obtain ⟨p', hp', hpf⟩ := hrel.some_left
  have hmem : t.subscription ∈ p'.tracksOut.map TrackOut.subscription :=
    hpf.tracksOut ▸ List.mem_map_of_mem ht
  obtain ⟨t', ht', heq⟩ := List.mem_map.mp hmem
  refine ⟨p', hp', hpf.pendingOffer.trans hpending, t', ht', mid, ?_⟩
  rw [SfuParticipant.Settled.stage_injective (congrArg Room.Subscription.stage heq), hst]

theorem Stranded.mediaAdded {e : SessionId × ParticipantId} (h : st.Stranded e) (sid : SessionId)
    (origin : ParticipantId) (mid : Mid) (kind : MediaKind) :
    (st.mediaAdded sid origin mid kind).Stranded e := by
  unfold SfuShard.mediaAdded
  split
  · exact h
  · rename_i s hs
    have h' := h.frame (.setSession hs (frame_popSourceHint s origin kind))
    obtain ⟨p, hp, hpending, t, ht, n, hst⟩ := h'
    rw [participant?_setSession] at hp
    dsimp only at hp ⊢
    unfold Stranded
    simp only [participant?_recordTrack]
    split at hp
    · rename_i hsid
      rw [if_pos hsid, hp, Option.map_some]
      refine ⟨_, rfl, ?_⟩
      split
      · exact ⟨hpending, t, ht, n, hst⟩
      · split
        · exact ⟨hpending, t, ht, n, hst⟩
        · exact ⟨hpending, t, List.mem_append_left _ ht, n, hst⟩
    · rename_i hsid
      rw [if_neg hsid]
      exact ⟨p, hp, hpending, t, ht, n, hst⟩

/-- Polling does not help a stranded participant. -/
theorem Stranded.pollTarget {e : SessionId × ParticipantId} (h : st.Stranded e) (now : Instant)
    (fuel : ℕ) (target : Option PollTarget) : (pollTarget now fuel st target).Stranded e := by
  refine ((moves_polls (E := fun e => e = .framed ∨ ∃ sid pid, e = .announced sid pid) (.inl rfl)
    fun sid pid => .inr ⟨sid, pid, rfl⟩).pollTarget now fuel st target).invariant
    (I := fun st => st.Stranded e) (fun ef st₁ st₂ hef hm h => ?_) h
  cases hm with
  | framed hf => exact h.frame hf
  | @announced _ _ _ p rtc mid kind hp hpoll =>
    have hcall := Str0m.Call.pollOutput p.rtc
    rw [hpoll] at hcall
    exact (h.frame (.setParticipant hp (.call hcall))).mediaAdded _ _ _ _
  | _ => simp at hef

theorem stranded_handleAnswer {sid : SessionId} {pid : ParticipantId} {sdpAnswer : String}
    (h : st.StrandingAnswer sid pid sdpAnswer) (now : Instant) :
    (st.handleAnswer now sid pid sdpAnswer).1.Stranded (sid, pid) := by
  obtain ⟨p, pending, answer, rtc, e, hp, hpending, hanswer, heq, hneg⟩ := h
  obtain ⟨s, hs, hlook⟩ := participant?_eq_some.mp hp
  have hrefused : (st.setParticipant sid pid { p with rtc := rtc, pendingOffer := none }).Stranded
      (sid, pid) := by
    refine stranded_setParticipant hp rfl ?_
    obtain ⟨t, ht, hst⟩ := List.any_eq_true.mp hneg
    rcases hstate : t.state with _ | mid | mid <;> rw [hstate] at hst
    · cases hst
    · exact ⟨t, ht, mid, hstate⟩
    · cases hst
  simp only [handleAnswer, hs, hlook, hanswer, hpending, heq]
  exact hrefused.frame (frame_drainQueuedOffer _ _ _)

theorem stranded_negotiateOne {e : SessionId × ParticipantId} (h : st.StrandingOffer e) :
    (SfuShard.negotiateOne st e).Stranded e := by
  obtain ⟨p, rtc, hp, hpending, htoOpen, happly⟩ := h
  obtain ⟨s, hs, hlook⟩ := participant?_eq_some.mp hp
  have hne : ∀ (ts : List TrackOut) (api : S.SdpApi), (ts.any fun t => t.state = .toOpen) = true →
      ∃ t ∈ (stageTracks api ts).2, ∃ mid, t.state = .negotiating mid := by
    intro ts
    induction ts with
    | nil => intro api h; cases h
    | cons t ts ih =>
      intro api h
      unfold stageTracks
      split
      · exact ⟨_, List.mem_cons_self, _, rfl⟩
      · rename_i hst
        have h : (ts.any fun t => t.state = .toOpen) = true := by
          rw [List.any_cons, Bool.or_eq_true] at h
          exact h.resolve_left fun h => hst (of_decide_eq_true h)
        obtain ⟨t', ht', hmid⟩ := ih api h
        exact ⟨t', List.mem_cons_of_mem _ ht', hmid⟩
  have hone : SfuShard.negotiateOne st e = st.setParticipant e.1 e.2
      { p with rtc := rtc, tracksOut := (stageTracks (S.sdpApi p.rtc) p.tracksOut).2 } := by
    simp only [SfuShard.negotiateOne, hs, hlook, hpending, htoOpen, happly, Option.isSome_none,
      Bool.false_eq_true, Bool.not_true, ↓reduceIte]
  rw [hone]
  exact stranded_setParticipant hp hpending (hne p.tracksOut (S.sdpApi p.rtc) htoOpen)

/-- What a pass does to one participant, it does in that participant's turn. -/
theorem participant?_foldl_negotiateOne {l : List (SessionId × ParticipantId)}
    {e : SessionId × ParticipantId} (he : e ∉ l) (st : SfuShard S) :
    (l.foldl SfuShard.negotiateOne st).participant? e.1 e.2 = st.participant? e.1 e.2 := by
  induction l generalizing st with
  | nil => rfl
  | cons e' l ih =>
    obtain ⟨hne, he⟩ := not_or.mp (mt List.mem_cons.mpr he)
    rw [List.foldl_cons, ih he, participant?_negotiateOne st hne]

theorem stranded_negotiatePendingTracks {e : SessionId × ParticipantId}
    (he : e ∈ st.pendingNegotiation) (h : st.StrandingOffer e) :
    st.negotiatePendingTracks.Stranded e := by
  obtain ⟨l, r, hlr⟩ := List.append_of_mem (show e ∈ st.pendingNegotiation.keys from he)
  have hnd := hlr ▸ st.pendingNegotiation.keys_nodup
  obtain ⟨-, hnd, hdisj⟩ := List.nodup_append.mp hnd
  have hl : e ∉ l := fun hmem => hdisj e hmem e List.mem_cons_self rfl
  unfold SfuShard.negotiatePendingTracks Stranded
  rw [hlr, List.foldl_append, List.foldl_cons,
    participant?_foldl_negotiateOne (List.nodup_cons.mp hnd).1]
  refine stranded_negotiateOne ?_
  unfold StrandingOffer
  rw [participant?_foldl_negotiateOne hl]
  exact h

/-- **The condition is exact**: from a state with no subscription stranded, a step
leads to another one if and only if it strands nothing. -/
theorem NoStranded.step_iff {i : Input} (h : st.NoStranded []) (hstep : Step st i st') :
    st'.NoStranded [] ↔ ¬ Strands st i := by
  refine ⟨fun hno hstrands => ?_, h.step hstep⟩
  cases i with
  | command cmd creds now fuel =>
    cases cmd with
    | answer sid pid sdpAnswer =>
      cases hstep
      exact ((stranded_handleAnswer hstrands now).pollTarget now fuel _).not_noStranded hno
    | _ => exact hstrands
  | negotiate =>
    cases hstep
    obtain ⟨e, he, hoffer⟩ := hstrands
    exact (stranded_negotiatePendingTracks he hoffer).not_noStranded hno
  | _ => exact hstrands

end SfuShard

/-- **No stranded subscription.** In every run none of whose steps has an answer
refused that tracks wait for, or a change that gives no offer, every subscription of
every participant in a session is open, or waits with its participant queued for
negotiation, or is covered by the offer its participant is to answer. -/
theorem noStranded_of_reach {st : SfuShard S}
    (hst : (SfuShard.system S).Reach (fun st i => ¬ SfuShard.Strands st i) st) {sid : SessionId}
    {pid : ParticipantId} {p : SfuParticipant S} (hp : st.participant? sid pid = some p) :
    ∀ t ∈ p.tracksOut,
      (t.state = .toOpen → (sid, pid) ∈ st.pendingNegotiation) ∧
      ∀ mid, t.state = .negotiating mid →
        ∃ pending, p.pendingOffer = some pending ∧ S.Covers pending mid := by
  have h : st.NoStranded [] := by
    refine hst.invariant (I := fun st => st.NoStranded []) (fun st hinit => ?_)
      fun st i st' h hok hstep => h.step hstep hok
    obtain ⟨_, _, _, rfl⟩ := hinit
    exact fun _ _ _ hp => by cases hp
  intro t ht
  exact ⟨fun hst => ((h sid pid p hp).queued t ht hst).resolve_right List.not_mem_nil,
    (h sid pid p hp).covered t ht⟩

/-! ### A refused answer

Participant 1 joins publishing audio, participant 2 joins publishing nothing, the
shard offers the track to participant 2, and participant 2 answers with an answer
that is refused. -/

/-- Bob is offered Alice's track. -/
def subscribed : List SfuShard.Input :=
  [.command (.join 7 1 "alice" "a" 11) ⟨"ua", "pa"⟩ 0 9,
    .command (.join 7 2 "bob" "" 12) ⟨"ub", "pb"⟩ 0 9,
    .negotiate]

/-- The state in which the offer is pending. -/
def subscribedCall : SfuShard scripted := .run [(1, 2)] 12000 subscribed

theorem reach_subscribedCall : (SfuShard.system scripted).Reach
    (fun st i => ¬ SfuShard.Strands st i) subscribedCall := by
  refine .step (l := .negotiate) (.step (l := .command (.join 7 2 "bob" "" 12) ⟨"ub", "pb"⟩ 0 9)
    (.step (l := .command (.join 7 1 "alice" "a" 11) ⟨"ua", "pa"⟩ 0 9)
      (.start ⟨0, [(1, 2)], 12000, rfl⟩) id (.next _ _)) id (.next _ _)) ?_ (.next _ _)
  set st : SfuShard scripted := .run [(1, 2)] 12000 (subscribed.take 2)
  rintro ⟨e, he, p, rtc, hp, -, -, happly⟩
  have hkeys : st.pendingNegotiation.keys = [(7, 2)] := by decide
  obtain rfl : e = (7, 2) := by
    have he : e ∈ st.pendingNegotiation.keys := he
    rwa [hkeys, List.mem_singleton] at he
  have hoffer : ((st.participant? 7 2).map fun p =>
      (scripted.apply (SfuShard.stageTracks (scripted.sdpApi p.rtc) p.tracksOut).1).2.isSome) =
        some true := by decide
  rw [show st.participant? 7 2 = some p from hp, Option.map_some, happly] at hoffer
  cases hoffer

/-- While the offer is pending, the track of participant 2 is covered by it. -/
theorem noStranded_subscribedCall : ∃ p, subscribedCall.participant? 7 2 = some p ∧
    ∃ t ∈ p.tracksOut, t.state = .negotiating 1000 ∧
      ∃ pending, p.pendingOffer = some pending ∧ scripted.Covers pending 1000 := by
  have hp := Option.some_get (show (subscribedCall.participant? 7 2).isSome from by decide)
  have ht : ∃ t ∈ ((subscribedCall.participant? 7 2).get (by decide)).tracksOut,
      t.state = .negotiating 1000 := by decide
  obtain ⟨t, ht, hst⟩ := ht
  exact ⟨_, hp.symm, t, ht, hst,
    (noStranded_of_reach reach_subscribedCall hp.symm t ht).2 1000 hst⟩

/-- **A refused answer strands the track**: it is negotiating, no offer is pending,
and nothing is queued. -/
theorem stranded_of_refused_answer : ∃ st, (SfuShard.system scripted).Reachable st ∧
    ∃ p, st.participant? 7 2 = some p ∧ p.pendingOffer = none ∧ st.pendingNegotiation.keys = [] ∧
      ∃ t ∈ p.tracksOut, t.state = .negotiating 1000 := by
  refine ⟨_, SfuShard.reachable_run [(1, 2)] 12000
    (subscribed ++ [.command (.answer 7 2 "reject") ⟨"", ""⟩ 40 9]), ?_⟩
  exact ⟨_, (Option.some_get (by decide)).symm, by decide, by decide, by decide⟩

end Video

end MateHub
