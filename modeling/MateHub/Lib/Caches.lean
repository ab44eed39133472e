import Mathlib.Data.Nat.Notation
import Mathlib.Logic.Function.Basic

/-!
# Caches

A store in which a key is set for some time, after which it is as if it had never been set.
Setting it again starts the time anew, whoever sets it and to whatever. A key lasts until
some time (`Expiring.Lasts`) if it has been set for so long, and then it is there before.

A cache keeps answers that may change behind its back. Whatever changes an answer, or writes
one that is not the current one, sees to it that the entry is about to be deleted. So a stale
entry is always one that is about to be deleted, and when no entry is, the cache is right
(`Invalidation.Guarded.settled`).
-/

/-! ### Keys that expire -/

/-- A store and its clock. Each entry has the time at which it expires. -/
structure Expiring (κ ω : Type*) where
  now : ℕ
  entry : κ → Option (ω × ℕ)

namespace Expiring

variable {κ ω : Type*}

/-- Nothing is set. -/
def empty : Expiring κ ω := ⟨0, fun _ => none⟩

/-- What a key is set to, if it has not expired. -/
def get (r : Expiring κ ω) (k : κ) : Option ω :=
  match r.entry k with
  | none => none
  | some (v, expiry) => if r.now < expiry then some v else none

/-- Time passes. -/
def wait (r : Expiring κ ω) (d : ℕ) : Expiring κ ω := { r with now := r.now + d }

/-- A key does not expire before some time. -/
def Lasts (r : Expiring κ ω) (k : κ) (t : ℕ) : Prop :=
  ∃ v expiry, r.entry k = some (v, expiry) ∧ t ≤ expiry

section Write

variable [DecidableEq κ] (r : Expiring κ ω) (k : κ)

/-- Setting a key for some time. -/
def setEx (v : ω) (ttl : ℕ) : Expiring κ ω :=
  { r with entry := Function.update r.entry k (some (v, r.now + ttl)) }

/-- Deleting a key. -/
def del : Expiring κ ω := { r with entry := Function.update r.entry k none }

end Write

variable {r : Expiring κ ω} {k k' : κ} {v v' : ω} {t d ttl : ℕ}

/-- **What is read was set, and has not expired.** -/
theorem get_eq_some :
    r.get k = some v ↔ ∃ expiry, r.entry k = some (v, expiry) ∧ r.now < expiry := by
  rw [get]
  cases hentry : r.entry k with
  | none => exact ⟨nofun, fun ⟨_, h, _⟩ => nomatch h⟩
  | some p =>
    obtain ⟨v', expiry⟩ := p
    dsimp only
    split
    · rename_i hlt
      refine ⟨fun h => ⟨expiry, by rw [Option.some.inj h], hlt⟩, fun ⟨expiry', h, _⟩ => ?_⟩
      rw [(Prod.mk.inj (Option.some.inj h)).1]
    · rename_i hlt
      refine ⟨nofun, fun ⟨expiry', h, hlt'⟩ => absurd ?_ hlt⟩
      rwa [(Prod.mk.inj (Option.some.inj h)).2]

theorem get_isSome (h : r.Lasts k t) (ht : r.now < t) : (r.get k).isSome = true := by
  obtain ⟨v, expiry, hentry, hle⟩ := h
  rw [Option.isSome_iff_exists]
  exact ⟨v, get_eq_some.mpr ⟨expiry, hentry, Nat.lt_of_lt_of_le ht hle⟩⟩

/-- What is there later was there before. -/
theorem get_of_wait (h : (r.wait d).get k = some v) : r.get k = some v := by
  obtain ⟨expiry, hentry, hlt⟩ := get_eq_some.mp h
  exact get_eq_some.mpr ⟨expiry, hentry, Nat.lt_of_le_of_lt (Nat.le_add_right r.now d) hlt⟩

theorem Lasts.wait (h : r.Lasts k t) : (r.wait d).Lasts k t := h

variable [DecidableEq κ]

@[simp] theorem now_setEx : (r.setEx k v ttl).now = r.now := rfl

@[simp] theorem now_del : (r.del k).now = r.now := rfl

@[simp] theorem entry_setEx_self : (r.setEx k v ttl).entry k = some (v, r.now + ttl) :=
  Function.update_self ..

theorem entry_setEx_of_ne (h : k' ≠ k) : (r.setEx k v ttl).entry k' = r.entry k' :=
  Function.update_of_ne h ..

@[simp] theorem entry_del_self : (r.del k).entry k = none := Function.update_self ..

theorem entry_del_of_ne (h : k' ≠ k) : (r.del k).entry k' = r.entry k' :=
  Function.update_of_ne h ..

/-- A key that is set holds that, and the others what they held. -/
theorem get_setEx (h : (r.setEx k v ttl).get k' = some v') :
    (k' = k ∧ v' = v) ∨ (k' ≠ k ∧ r.get k' = some v') := by
  obtain ⟨expiry, hentry, hlt⟩ := get_eq_some.mp h
  rcases eq_or_ne k' k with rfl | hne
  · rw [entry_setEx_self] at hentry
    exact .inl ⟨rfl, (Prod.mk.inj (Option.some.inj hentry)).1.symm⟩
  · rw [entry_setEx_of_ne hne] at hentry
    exact .inr ⟨hne, get_eq_some.mpr ⟨expiry, hentry, hlt⟩⟩

/-- A key that is deleted is not there, and the others hold what they held. -/
theorem get_del (h : (r.del k).get k' = some v) : k' ≠ k ∧ r.get k' = some v := by
  obtain ⟨expiry, hentry, hlt⟩ := get_eq_some.mp h
  rcases eq_or_ne k' k with rfl | hne
  · rw [entry_del_self] at hentry
    cases hentry
  · rw [entry_del_of_ne hne] at hentry
    exact ⟨hne, get_eq_some.mpr ⟨expiry, hentry, hlt⟩⟩

theorem lasts_setEx : (r.setEx k v ttl).Lasts k (r.now + ttl) :=
  ⟨v, r.now + ttl, entry_setEx_self, Nat.le_refl _⟩

/-- **Setting a key makes nothing expire earlier**, if the times to live are all the same. -/
theorem Lasts.setEx (h : r.Lasts k' t) (ht : t ≤ r.now + ttl) : (r.setEx k v ttl).Lasts k' t := by
  rcases eq_or_ne k' k with rfl | hne
  · exact ⟨v, r.now + ttl, entry_setEx_self, ht⟩
  · obtain ⟨v', expiry, hentry, hle⟩ := h
    exact ⟨v', expiry, (entry_setEx_of_ne hne).trans hentry, hle⟩

theorem Lasts.del (h : r.Lasts k' t) (hne : k' ≠ k) : (r.del k).Lasts k' t := by
  obtain ⟨v', expiry, hentry, hle⟩ := h
  exact ⟨v', expiry, (entry_del_of_ne hne).trans hentry, hle⟩

end Expiring

/-! ### Entries that are invalidated -/

namespace Invalidation

variable {κ α : Type*} {truth truth' : κ → α} {cache cache' : κ → Option α} {due due' : κ → Prop}

/-- Every entry that is not the current answer is about to be deleted. -/
def Guarded (truth : κ → α) (cache : κ → Option α) (due : κ → Prop) : Prop :=
  ∀ k v, cache k = some v → v ≠ truth k → due k

/-- An empty cache has no stale entries. -/
theorem Guarded.empty (h : ∀ k, cache k = none) : Guarded truth cache due := by
  intro k v hk
  rw [h k] at hk
  cases hk

/-- More may be due. -/
theorem Guarded.mono (h : Guarded truth cache due) (hdue : ∀ k, due k → due' k) :
    Guarded truth cache due' :=
  fun k v hk hv => hdue k (h k v hk hv)

/-- Answers change, and the entries of those that do are due. -/
theorem Guarded.change (h : Guarded truth cache due) (hdue : ∀ k, due k → due' k)
    (hchange : ∀ k, cache k ≠ none → truth' k ≠ truth k → due' k) :
    Guarded truth' cache due' := by
  intro k v hk hv
  by_cases heq : truth' k = truth k
  · exact hdue k (h k v hk (heq ▸ hv))
  · exact hchange k (by rw [hk]; exact Option.some_ne_none v) heq

/-- An answer is written, which is the current one or is due. -/
theorem Guarded.store (h : Guarded truth cache due) {k₀ : κ} {v₀ : α}
    (hcache : ∀ k v, cache' k = some v → k = k₀ ∧ v = v₀ ∨ cache k = some v)
    (hv₀ : v₀ = truth k₀ ∨ due k₀) : Guarded truth cache' due := by
  intro k v hk hv
  rcases hcache k v hk with ⟨rfl, rfl⟩ | hold
  · exact hv₀.resolve_left hv
  · exact h k v hold hv

/-- Entries go, and only theirs are due no longer. -/
theorem Guarded.drop (h : Guarded truth cache due)
    (hcache : ∀ k v, cache' k = some v → cache k = some v)
    (hdue : ∀ k v, cache' k = some v → due k → due' k) : Guarded truth cache' due' :=
  fun k v hk hv => hdue k v hk (h k v (hcache k v hk) hv)

/-- **When nothing is due, the cache is right.** -/
theorem Guarded.settled (h : Guarded truth cache due) (hnone : ∀ k, ¬ due k) {k : κ} {v : α}
    (hk : cache k = some v) : v = truth k :=
  not_not.mp fun hv => hnone k (h k v hk hv)

end Invalidation
