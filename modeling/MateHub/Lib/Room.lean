import Mathlib.Data.List.Pairwise
import Mathlib.Data.List.Nodup
import Mathlib.Logic.Function.Basic

/-!
# Publish and subscribe, with an index of the open subscriptions

A room has members, each of which publishes tracks; every member subscribes to
every track of every other member. A subscription opens in two stages – it is
offered under an identifier of the subscriber's own, then opened – and an index,
from the publisher's side, lists the open subscriptions of each track, so that a
packet finds its targets without a scan.

The lists are kept from both sides by hand: a member that joins imports the tracks
of everyone, a track that is published is pushed to everyone, a member that leaves
is removed from every list. `Room.Coherent` says what these updates are to keep:
the subscriptions to a publisher are its tracks, in order, and the index is exact.
Each update of the room keeps it.

Members, track identifiers and labels are arbitrary.
-/

namespace Room

/-- How far a subscription has got. -/
inductive Stage (μ : Type*)
  | waiting
  | offered (mid : μ)
  | opened (mid : μ)

/-- What an answer makes of it. -/
def Stage.answered {μ : Type*} : Stage μ → Stage μ
  | .waiting => .waiting
  | .offered mid => .opened mid
  | .opened mid => .opened mid

/-- A published track. -/
structure Track (μ δ : Type*) where
  mid : μ
  label : δ

/-- A subscription to the track of a publisher. -/
structure Subscription (π μ δ : Type*) where
  origin : π
  track : Track μ δ
  stage : Stage μ

variable {π μ δ : Type*}

/-- What a subscription is to. -/
def Subscription.key (s : Subscription π μ δ) : π × Track μ δ := (s.origin, s.track)

/-- The tracks of one publisher that a list of subscriptions is to. -/
def tracksFrom [DecidableEq π] (l : List (Subscription π μ δ)) (q : π) : List (Track μ δ) :=
  ((l.map Subscription.key).filter fun k => k.1 = q).map Prod.snd

end Room

open Room in
/-- Who publishes what, who subscribes to what, and the index. A member that is
not in the room publishes `none`. -/
structure Room (π μ δ : Type*) where
  published : π → Option (List (Track μ δ))
  subs : π → List (Subscription π μ δ)
  targets : π → μ → List (π × μ)

namespace Room

variable {π μ δ : Type*}

/-- The room with no member. -/
def empty : Room π μ δ where
  published := fun _ => none
  subs := fun _ => []
  targets := fun _ _ => []

/-- Being in the room. -/
def Live (r : Room π μ δ) (p : π) : Prop := ∃ ts, r.published p = some ts

/-! ### The updates -/

variable [DecidableEq π]

/-- A member leaves: its own lists go, and every mention of it. -/
def leave (r : Room π μ δ) (q : π) : Room π μ δ where
  published := fun p => if p = q then none else r.published p
  subs := fun p => if p = q then [] else (r.subs p).filter fun s => s.origin ≠ q
  targets := fun o m => if o = q then [] else (r.targets o m).filter fun t => t.1 ≠ q

/-- A member joins, publishing nothing yet, and subscribes to the tracks it is
given. -/
def join (r : Room π μ δ) (q : π) (tracks : List (π × Track μ δ)) : Room π μ δ where
  published := fun p => if p = q then some [] else r.published p
  subs := fun p => if p = q then tracks.map fun t => ⟨t.1, t.2, .waiting⟩ else r.subs p
  targets := r.targets

/-- A member publishes a track: everyone else subscribes. -/
def publish (r : Room π μ δ) (q : π) (t : Track μ δ) : Room π μ δ where
  published := fun p => if p = q then (r.published q).map (· ++ [t]) else r.published p
  subs := fun p =>
    if p ≠ q ∧ (r.published p).isSome then r.subs p ++ [⟨q, t, .waiting⟩] else r.subs p
  targets := r.targets

/-- The subscriptions of one member are put in another state. -/
def offer (r : Room π μ δ) (p : π) (l : List (Subscription π μ δ)) : Room π μ δ where
  published := r.published
  subs := fun p' => if p' = p then l else r.subs p'
  targets := r.targets

/-- The entries of the index that an answer of `p` adds for a track. -/
def answers [DecidableEq μ] (p : π) (l : List (Subscription π μ δ)) (o : π) (m : μ) :
    List (π × μ) :=
  (l.filter fun s => s.origin = o).filterMap fun s =>
    match s.stage with
    | .offered n => if s.track.mid = m then some (p, n) else none
    | _ => none

/-- A member answers: what was offered to it is open, and enters the index. -/
def answer [DecidableEq μ] (r : Room π μ δ) (p : π) : Room π μ δ where
  published := r.published
  subs := fun p' =>
    if p' = p then (r.subs p).map fun s => { s with stage := s.stage.answered } else r.subs p'
  targets := fun o m => r.targets o m ++ answers p (r.subs p) o m

/-! ### Coherence -/

/-- **Coherence of a room.** -/
structure Coherent (r : Room π μ δ) : Prop where
  /-- The tracks of a publisher differ in their identifier. -/
  nodup_published : ∀ q ts, r.published q = some ts → (ts.map Track.mid).Nodup
  /-- Who subscribes to something is in the room. -/
  live : ∀ p, ∀ s ∈ r.subs p, r.Live p
  /-- A subscription is to the track of a member of the room … -/
  origin_live : ∀ p, ∀ s ∈ r.subs p, r.Live s.origin
  /-- … and not to one's own. -/
  origin_ne : ∀ p, ∀ s ∈ r.subs p, s.origin ≠ p
  /-- The subscriptions to a publisher are its tracks. -/
  complete : ∀ p q ts, r.Live p → p ≠ q → r.published q = some ts → tracksFrom (r.subs p) q = ts
  /-- The index lists the open subscriptions. -/
  mem_targets : ∀ o m p n, (p, n) ∈ r.targets o m ↔
    ∃ s ∈ r.subs p, s.origin = o ∧ s.track.mid = m ∧ s.stage = .opened n
  /-- The index lists nothing twice. -/
  nodup_targets : ∀ o m, (r.targets o m).Nodup

theorem coherent_empty : (empty : Room π μ δ).Coherent where
  nodup_published := fun _ _ h => by simp [empty] at h
  live := fun _ _ hs => absurd hs List.not_mem_nil
  origin_live := fun _ _ hs => absurd hs List.not_mem_nil
  origin_ne := fun _ _ hs => absurd hs List.not_mem_nil
  complete := fun _ _ _ _ _ h => by simp [empty] at h
  mem_targets := fun _ _ _ _ => by simp [empty]
  nodup_targets := fun _ _ => List.nodup_nil

theorem tracksFrom_eq (l : List (Subscription π μ δ)) (q : π) :
    tracksFrom l q = (l.filter fun s => s.origin = q).map Subscription.track := by
  rw [tracksFrom, List.filter_map, List.map_map]
  rfl

/-- Nobody subscribes twice to a track. -/
theorem Coherent.nodup_subscribers {r : Room π μ δ} (h : r.Coherent) (o : π) (m : μ) :
    ((r.targets o m).map Prod.fst).Nodup := by
  refine (h.nodup_targets o m).map_on ?_
  rintro ⟨p, n⟩ hn ⟨p', n'⟩ hn' hp
  obtain rfl : p = p' := hp
  obtain ⟨s, hs, ho, hm, hstage⟩ := (h.mem_targets o m p n).mp hn
  obtain ⟨s', hs', ho', hm', hstage'⟩ := (h.mem_targets o m p n').mp hn'
  obtain ⟨ts, hts⟩ : r.Live o := ho ▸ h.origin_live p s hs
  have hnodup := h.nodup_published o ts hts
  rw [← h.complete p o ts (h.live p s hs) (fun heq => h.origin_ne p s hs (ho.trans heq.symm)) hts,
    tracksFrom_eq, List.map_map] at hnodup
  have hsame : s = s' := List.inj_on_of_nodup_map hnodup
    (List.mem_filter.mpr ⟨hs, decide_eq_true ho⟩) (List.mem_filter.mpr ⟨hs', decide_eq_true ho'⟩)
    (hm.trans hm'.symm)
  rw [← hsame, hstage] at hstage'
  exact congrArg (Prod.mk p) (Stage.opened.inj hstage')

@[simp] theorem tracksFrom_append (l l' : List (Subscription π μ δ)) (q : π) :
    tracksFrom (l ++ l') q = tracksFrom l q ++ tracksFrom l' q := by
  simp only [tracksFrom, List.map_append, List.filter_append]

theorem tracksFrom_eq_nil {l : List (Subscription π μ δ)} {q : π}
    (h : ∀ s ∈ l, s.origin ≠ q) : tracksFrom l q = [] := by
  rw [tracksFrom_eq, List.filter_eq_nil_iff.mpr (by simpa using h), List.map_nil]

namespace Coherent

variable {r : Room π μ δ} (h : r.Coherent)

include h

/-- The subscriptions of a member to one publisher differ in their track. -/
theorem pairwise_subs (p q : π) :
    ((r.subs p).filter fun s => s.origin = q).Pairwise fun s s' => s.track.mid ≠ s'.track.mid := by
  by_cases hl : ∃ s ∈ r.subs p, s.origin = q
  · obtain ⟨s, hs, rfl⟩ := hl
    obtain ⟨ts, hts⟩ := h.origin_live p s hs
    have hnd := h.nodup_published s.origin ts hts
    rw [← h.complete p s.origin ts (h.live p s hs) (h.origin_ne p s hs).symm hts, tracksFrom_eq,
      List.map_map] at hnd
    exact List.pairwise_map.mp hnd
  · rw [List.filter_eq_nil_iff.mpr fun s hs hq => hl ⟨s, hs, of_decide_eq_true hq⟩]
    exact .nil

/-- A member has one subscription to a track. -/
theorem sub_unique {p : π} {s s' : Subscription π μ δ} (hs : s ∈ r.subs p) (hs' : s' ∈ r.subs p)
    (ho : s.origin = s'.origin) (hm : s.track.mid = s'.track.mid) : s = s' := by
  have hsymm : Std.Symm fun s s' : Subscription π μ δ => s.track.mid ≠ s'.track.mid :=
    ⟨fun _ _ hab => hab.symm⟩
  by_contra hne
  exact (h.pairwise_subs p s'.origin).forall (List.mem_filter.mpr ⟨hs, decide_eq_true ho⟩)
    (List.mem_filter.mpr ⟨hs', decide_eq_true rfl⟩) hne hm

/-- A leave keeps the room coherent. -/
theorem leave (q : π) : (r.leave q).Coherent where
  nodup_published := fun p ts hts => by
    by_cases hp : p = q <;> simp only [Room.leave, hp, ↓reduceIte, reduceCtorEq] at hts
    exact h.nodup_published p ts hts
  live := fun p s hs => by
    by_cases hp : p = q
    · simp [Room.leave, hp] at hs
    · simp only [Room.leave, hp, ↓reduceIte] at hs
      simpa [Live, Room.leave, hp] using h.live p s (List.mem_of_mem_filter hs)
  origin_live := fun p s hs => by
    by_cases hp : p = q
    · simp [Room.leave, hp] at hs
    · simp only [Room.leave, hp, ↓reduceIte] at hs
      obtain ⟨hs, ho⟩ := List.mem_filter.mp hs
      simpa [Live, Room.leave, of_decide_eq_true ho] using h.origin_live p s hs
  origin_ne := fun p s hs => by
    by_cases hp : p = q
    · simp [Room.leave, hp] at hs
    · simp only [Room.leave, hp, ↓reduceIte] at hs
      exact h.origin_ne p s (List.mem_of_mem_filter hs)
  complete := fun p o ts ⟨tp, hp⟩ hne hts => by
    by_cases ho : o = q <;> simp only [Room.leave, ho, ↓reduceIte, reduceCtorEq] at hts
    by_cases hpq : p = q <;> simp only [Room.leave, hpq, ↓reduceIte, reduceCtorEq] at hp
    rw [← h.complete p o ts ⟨tp, hp⟩ hne hts, tracksFrom_eq, tracksFrom_eq]
    simp only [Room.leave, hpq, ↓reduceIte, List.filter_filter]
    congr 1
    refine List.filter_congr fun s _ => ?_
    by_cases hso : s.origin = o <;> simp [hso, ho]
  mem_targets := fun o m p n => by
    by_cases ho : o = q
    · simp only [Room.leave, ho, ↓reduceIte, List.not_mem_nil, false_iff]
      rintro ⟨s, hs, hso, -⟩
      by_cases hp : p = q <;> simp_all
    · by_cases hp : p = q
      · simp [Room.leave, ho, hp]
      · simp only [Room.leave, ho, hp, ↓reduceIte, List.mem_filter, h.mem_targets]
        constructor
        · rintro ⟨⟨s, hs, rfl, hm⟩, -⟩
          exact ⟨s, ⟨hs, by simpa using ho⟩, rfl, hm⟩
        · rintro ⟨s, ⟨hs, -⟩, hso⟩
          exact ⟨⟨s, hs, hso⟩, by simpa using hp⟩
  nodup_targets := fun o m => by
    by_cases ho : o = q
    · simp [Room.leave, ho]
    · simp only [Room.leave, ho, ↓reduceIte]
      exact (h.nodup_targets o m).filter _

/-- A join keeps the room coherent, if the new member subscribes to everything. -/
theorem join {q : π} {tracks : List (π × Track μ δ)} (hq : ¬ r.Live q)
    (hlive : ∀ t ∈ tracks, r.Live t.1)
    (hall : ∀ o ts, r.published o = some ts → (tracks.filter fun t => t.1 = o).map Prod.snd = ts) :
    (r.join q tracks).Coherent where
  nodup_published := fun p ts hts => by
    by_cases hp : p = q
    · obtain rfl : [] = ts := by simpa [Room.join, hp] using hts
      exact .nil
    · exact h.nodup_published p ts (by simpa [Room.join, hp] using hts)
  live := fun p s hs => by
    by_cases hp : p = q
    · exact ⟨[], by simp [Room.join, hp]⟩
    · simp only [Room.join, hp, ↓reduceIte] at hs
      simpa [Live, Room.join, hp] using h.live p s hs
  origin_live := fun p s hs => by
    have hs' : r.Live s.origin := by
      by_cases hp : p = q
      · simp only [Room.join, hp, ↓reduceIte] at hs
        obtain ⟨t, ht, rfl⟩ := List.mem_map.mp hs
        exact hlive t ht
      · simp only [Room.join, hp, ↓reduceIte] at hs
        exact h.origin_live p s hs
    by_cases ho : s.origin = q
    · exact absurd (ho ▸ hs') hq
    · simpa [Live, Room.join, ho] using hs'
  origin_ne := fun p s hs => by
    by_cases hp : p = q
    · simp only [Room.join, hp, ↓reduceIte] at hs
      obtain ⟨t, ht, rfl⟩ := List.mem_map.mp hs
      exact fun heq => hq ((heq.trans hp) ▸ hlive t ht)
    · simp only [Room.join, hp, ↓reduceIte] at hs
      exact h.origin_ne p s hs
  complete := fun p o ts ⟨tp, hp⟩ hne hts => by
    by_cases hpq : p = q
    · have ho : o ≠ q := fun ho => hne (hpq.trans ho.symm)
      simp only [Room.join, ho, ↓reduceIte] at hts
      simp only [Room.join, hpq, ↓reduceIte, tracksFrom, List.map_map]
      rw [show Subscription.key ∘ (fun t : π × Track μ δ => ⟨t.1, t.2, Stage.waiting⟩) = id from rfl,
        List.map_id]
      exact hall o ts hts
    · simp only [Room.join, hpq, ↓reduceIte] at hp ⊢
      by_cases ho : o = q
      · obtain rfl : [] = ts := by simpa [Room.join, ho] using hts
        exact tracksFrom_eq_nil fun s hs heq => hq ((heq.trans ho) ▸ h.origin_live p s hs)
      · exact h.complete p o ts ⟨tp, hp⟩ hne (by simpa [Room.join, ho] using hts)
  mem_targets := fun o m p n => by
    rw [show (r.join q tracks).targets = r.targets from rfl, h.mem_targets]
    by_cases hp : p = q
    · constructor
      · rintro ⟨s, hs, -⟩
        exact absurd (hp ▸ h.live p s hs) hq
      · rintro ⟨s, hs, -, -, hst⟩
        simp only [Room.join, hp, ↓reduceIte] at hs
        obtain ⟨t, -, rfl⟩ := List.mem_map.mp hs
        simp at hst
    · simp [Room.join, hp]
  nodup_targets := h.nodup_targets

/-- Publishing a track under a fresh identifier keeps the room coherent. -/
theorem publish {q : π} {t : Track μ δ} {tq : List (Track μ δ)} (hq : r.published q = some tq)
    (ht : t.mid ∉ tq.map Track.mid) : (r.publish q t).Coherent := by
  have hpub : ∀ p, (r.publish q t).Live p ↔ r.Live p := by
    intro p
    by_cases hp : p = q
    · simp [Live, Room.publish, hp, hq]
    · simp [Live, Room.publish, hp]
  have hmem : ∀ {p s}, s ∈ (r.publish q t).subs p →
      s ∈ r.subs p ∨ (s = ⟨q, t, .waiting⟩ ∧ p ≠ q ∧ r.Live p) := by
    intro p s hs
    by_cases hc : p ≠ q ∧ (r.published p).isSome
    · simp only [Room.publish, hc, not_false_eq_true, and_self, ↓reduceIte, ne_eq,
        List.mem_append, List.mem_singleton] at hs
      exact hs.imp id fun hs => ⟨hs, hc.1, Option.isSome_iff_exists.mp hc.2⟩
    · simp only [Room.publish, hc, ↓reduceIte] at hs
      exact .inl hs
  have hsub : ∀ {p s}, s ∈ r.subs p → s ∈ (r.publish q t).subs p := by
    intro p s hs
    simp only [Room.publish]
    split
    · exact List.mem_append_left _ hs
    · exact hs
  exact {
    nodup_published := fun p ts hts => by
      by_cases hp : p = q
      · obtain rfl : tq ++ [t] = ts := by simpa [Room.publish, hp, hq] using hts
        rw [List.map_append, List.map_singleton]
        exact List.nodup_append_comm.mp (List.nodup_cons.mpr ⟨ht, h.nodup_published q tq hq⟩)
      · exact h.nodup_published p ts (by simpa [Room.publish, hp] using hts)
    live := fun p s hs => (hpub p).mpr <| (hmem hs).elim (h.live p s) fun hs => hs.2.2
    origin_live := fun p s hs => (hpub _).mpr <|
      (hmem hs).elim (h.origin_live p s) fun hs => ⟨tq, hs.1 ▸ hq⟩
    origin_ne := fun p s hs => (hmem hs).elim (h.origin_ne p s) fun hs => hs.1 ▸ hs.2.1.symm
    complete := fun p o ts hp hne hts => by
      obtain ⟨tp, hp⟩ := (hpub p).mp hp
      by_cases ho : o = q
      · obtain rfl : tq ++ [t] = ts := by simpa [Room.publish, ho, hq] using hts
        have hpq : p ≠ q := ho ▸ hne
        rw [← h.complete p q tq ⟨tp, hp⟩ hpq hq]
        simp [Room.publish, hp, hpq, ho, tracksFrom, Subscription.key]
      · rw [← h.complete p o ts ⟨tp, hp⟩ hne (by simpa [Room.publish, ho] using hts)]
        simp only [Room.publish]
        split
        · rw [tracksFrom_append, tracksFrom_eq_nil (l := [_]) (by simpa using Ne.symm ho),
            List.append_nil]
        · rfl
    mem_targets := fun o m p n => by
      rw [show (r.publish q t).targets = r.targets from rfl, h.mem_targets]
      constructor
      · rintro ⟨s, hs, hso⟩
        exact ⟨s, hsub hs, hso⟩
      · rintro ⟨s, hs, hso, hm, hst⟩
        rcases hmem hs with hs | ⟨rfl, -⟩
        · exact ⟨s, hs, hso, hm, hst⟩
        · simp at hst
    nodup_targets := h.nodup_targets }

/-- Putting subscriptions in another state keeps the room coherent, as long as none
opens or closes. -/
theorem offer {p : π} {l : List (Subscription π μ δ)}
    (hkey : l.map Subscription.key = (r.subs p).map Subscription.key)
    (hopen : ∀ s n, s.stage = .opened n → (s ∈ l ↔ s ∈ r.subs p)) : (r.offer p l).Coherent := by
  have hmem : ∀ {p' s}, s ∈ (r.offer p l).subs p' → ∃ s' ∈ r.subs p', s'.origin = s.origin := by
    intro p' s hs
    by_cases hp : p' = p
    · simp only [Room.offer, hp, ↓reduceIte] at hs
      have hs : s.key ∈ l.map Subscription.key := List.mem_map_of_mem hs
      rw [hkey] at hs
      obtain ⟨s', hs', heq⟩ := List.mem_map.mp hs
      exact ⟨s', hp ▸ hs', congrArg Prod.fst heq⟩
    · exact ⟨s, by simpa [Room.offer, hp] using hs, rfl⟩
  exact {
    nodup_published := h.nodup_published
    live := fun p' s hs => by
      obtain ⟨s', hs', -⟩ := hmem hs
      exact h.live p' s' hs'
    origin_live := fun p' s hs => by
      obtain ⟨s', hs', heq⟩ := hmem hs
      exact heq ▸ h.origin_live p' s' hs'
    origin_ne := fun p' s hs => by
      obtain ⟨s', hs', heq⟩ := hmem hs
      exact heq ▸ h.origin_ne p' s' hs'
    complete := fun p' o ts hp hne hts => by
      rw [← h.complete p' o ts hp hne hts]
      by_cases hp : p' = p
      · simp only [Room.offer, hp, ↓reduceIte, tracksFrom, hkey]
      · simp only [Room.offer, hp, ↓reduceIte]
    mem_targets := fun o m p' n => by
      rw [show (r.offer p l).targets = r.targets from rfl, h.mem_targets]
      by_cases hp : p' = p
      · simp only [Room.offer, hp, ↓reduceIte]
        exact exists_congr fun s => by
          constructor
          · rintro ⟨hs, ho, hm, hst⟩
            exact ⟨(hopen s n hst).mpr hs, ho, hm, hst⟩
          · rintro ⟨hs, ho, hm, hst⟩
            exact ⟨(hopen s n hst).mp hs, ho, hm, hst⟩
      · simp only [Room.offer, hp, ↓reduceIte]
    nodup_targets := h.nodup_targets }

/-- **An answer keeps the room coherent**: what it adds to the index is what it
opens. -/
theorem answer [DecidableEq μ] (p : π) : (r.answer p).Coherent := by
  have hkey : ∀ p', ((r.answer p).subs p').map Subscription.key =
      (r.subs p').map Subscription.key := by
    intro p'
    by_cases hp : p' = p
    · simp only [Room.answer, hp, ↓reduceIte, List.map_map]
      rfl
    · simp only [Room.answer, hp, ↓reduceIte]
  have hmem : ∀ {p' s}, s ∈ (r.answer p).subs p' → ∃ s' ∈ r.subs p', s'.origin = s.origin := by
    intro p' s hs
    have hs : s.key ∈ ((r.answer p).subs p').map Subscription.key := List.mem_map_of_mem hs
    rw [hkey] at hs
    obtain ⟨s', hs', heq⟩ := List.mem_map.mp hs
    exact ⟨s', hs', congrArg Prod.fst heq⟩
  have hans : ∀ {o m p' n}, (p', n) ∈ answers p (r.subs p) o m ↔
      p' = p ∧ ∃ s ∈ r.subs p, s.origin = o ∧ s.track.mid = m ∧ s.stage = .offered n := by
    intro o m p' n
    rw [answers, List.mem_filterMap]
    constructor
    · rintro ⟨s, hs, hsn⟩
      obtain ⟨hs, ho⟩ := List.mem_filter.mp hs
      rcases hst : s.stage with _ | n' | _ <;> rw [hst] at hsn
      · cases hsn
      · obtain ⟨hm, rfl, rfl⟩ : s.track.mid = m ∧ p = p' ∧ n' = n := by simpa using hsn
        exact ⟨rfl, s, hs, of_decide_eq_true ho, hm, hst⟩
      · cases hsn
    · rintro ⟨rfl, s, hs, ho, hm, hst⟩
      exact ⟨s, List.mem_filter.mpr ⟨hs, decide_eq_true ho⟩, by simp [hst, hm]⟩
  have hnd : ∀ o m, (answers p (r.subs p) o m).Nodup := by
    intro o m
    refine (h.pairwise_subs p o).filterMap _ fun s s' hne t ht t' ht' => ?_
    have hmid : ∀ {s : Subscription π μ δ} {t : π × μ}, (match s.stage with
        | .offered n => if s.track.mid = m then some (p, n) else none
        | _ => none) = some t → s.track.mid = m := by
      intro s t ht
      rcases hst : s.stage with _ | n | _ <;> rw [hst] at ht
      · cases ht
      · exact (Option.ite_none_right_eq_some.mp ht).1
      · cases ht
    exact absurd ((hmid ht).trans (hmid ht').symm) hne
  exact {
    nodup_published := h.nodup_published
    live := fun p' s hs => by
      obtain ⟨s', hs', -⟩ := hmem hs
      exact h.live p' s' hs'
    origin_live := fun p' s hs => by
      obtain ⟨s', hs', heq⟩ := hmem hs
      exact heq ▸ h.origin_live p' s' hs'
    origin_ne := fun p' s hs => by
      obtain ⟨s', hs', heq⟩ := hmem hs
      exact heq ▸ h.origin_ne p' s' hs'
    complete := fun p' o ts hp hne hts => by
      rw [← h.complete p' o ts hp hne hts, tracksFrom, tracksFrom, hkey]
    mem_targets := fun o m p' n => by
      rw [show (r.answer p).targets o m = r.targets o m ++ answers p (r.subs p) o m from rfl,
        List.mem_append, h.mem_targets, hans]
      by_cases hp : p' = p
      · subst hp
        simp only [Room.answer, ↓reduceIte, true_and]
        constructor
        · rintro (⟨s, hs, ho, hm, hst⟩ | ⟨s, hs, ho, hm, hst⟩)
          all_goals exact ⟨_, List.mem_map_of_mem hs, ho, hm, by simp [hst, Stage.answered]⟩
        · rintro ⟨s', hs', ho, hm, hst⟩
          obtain ⟨s, hs, rfl⟩ := List.mem_map.mp hs'
          rcases hsg : s.stage with _ | n' | n' <;> simp only [hsg, Stage.answered] at hst
          · cases hst
          · exact .inr ⟨s, hs, ho, hm, hsg.trans (by simpa using hst)⟩
          · exact .inl ⟨s, hs, ho, hm, hsg.trans hst⟩
      · simp [Room.answer, hp]
    nodup_targets := fun o m => by
      refine (h.nodup_targets o m).append (hnd o m) fun t ht ht' => ?_
      -- an open and an offered subscription to the same track would be two
      obtain ⟨p', n⟩ := t
      obtain ⟨rfl, s', hs', ho', hm', hst'⟩ := hans.mp ht'
      obtain ⟨s, hs, ho, hm, hst⟩ := (h.mem_targets o m p' n).mp ht
      have heq : s = s' := h.sub_unique hs hs' (ho.trans ho'.symm) (hm.trans hm'.symm)
      rw [heq, hst'] at hst
      cases hst }

end Coherent

end Room
