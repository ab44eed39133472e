import Mathlib.Data.List.Basic
import Mathlib.Data.List.Nodup
import Mathlib.Order.Lattice

/-!
# The largest of a list

The `k` entries of a list with the largest values: the list is sorted by value, the largest
first, and cut. The one thing to know is that whoever is taken is at least as large as whoever
is left (`Largest.le_of_not_mem`). So the place of an entry depends on how many others are ahead
of it: fewer than `k` others that are as large let it in (`Largest.mem_of_countP_lt`), and `k`
that are larger keep it out (`Largest.countP_lt`).
-/

variable {α β : Type*} [LinearOrder β]

/-- The `k` entries with the largest values. -/
def largest (f : α → β) (k : ℕ) (l : List α) : List α :=
  (l.mergeSort fun a b => decide (f b ≤ f a)).take k

namespace Largest

variable {f : α → β} {k : ℕ} {l : List α} {a b : α}

theorem length_largest (f : α → β) (k : ℕ) (l : List α) :
    (largest f k l).length = min k l.length := by
  rw [largest, List.length_take, List.length_mergeSort]

theorem mem_of_mem (h : a ∈ largest f k l) : a ∈ l :=
  List.mem_mergeSort.mp (List.mem_of_mem_take h)

theorem nodup_map {γ : Type*} {g : α → γ} (h : (l.map g).Nodup) :
    ((largest f k l).map g).Nodup := by
  have hsorted : ((l.mergeSort fun a b => decide (f b ≤ f a)).map g).Nodup :=
    ((List.mergeSort_perm l _).map g).nodup_iff.mpr h
  exact hsorted.sublist ((List.take_sublist k _).map g)

/-- What is cut off is no larger than what is taken. -/
theorem le_of_mem_drop (ha : a ∈ largest f k l)
    (hb : b ∈ (l.mergeSort fun a b => decide (f b ≤ f a)).drop k) : f b ≤ f a := by
  have hsorted := @List.pairwise_mergeSort _ (fun a b => decide (f b ≤ f a))
    (fun a b c hab hbc => decide_eq_true (le_trans (of_decide_eq_true hbc) (of_decide_eq_true hab)))
    (fun a b => by simpa using le_total (f b) (f a)) l
  rw [← List.take_append_drop k (l.mergeSort _), List.pairwise_append] at hsorted
  exact of_decide_eq_true (hsorted.2.2 a ha b hb)

/-- **Whoever is taken is at least as large as whoever is left.** -/
theorem le_of_not_mem (ha : a ∈ largest f k l) (hb : b ∈ l) (hleft : b ∉ largest f k l) :
    f b ≤ f a := by
  refine le_of_mem_drop ha ?_
  have hmem : b ∈ l.mergeSort fun a b => decide (f b ≤ f a) := List.mem_mergeSort.mpr hb
  rw [← List.take_append_drop k (l.mergeSort _), List.mem_append] at hmem
  exact hmem.resolve_left hleft

theorem eq_of_length_le (h : l.length ≤ k) :
    largest f k l = l.mergeSort fun a b => decide (f b ≤ f a) :=
  List.take_of_length_le (by rwa [List.length_mergeSort])

/-- The entries of a kind that are taken are among those of the list. -/
theorem countP_le (p : α → Bool) : (largest f k l).countP p ≤ l.countP p :=
  calc (largest f k l).countP p
      ≤ (l.mergeSort fun a b => decide (f b ≤ f a)).countP p :=
        (List.take_sublist k _).countP_le
    _ = l.countP p := (List.mergeSort_perm l _).countP_eq p

/-- Whoever is left has `k` ahead of it, all of which are taken. -/
theorem le_countP (hb : b ∈ l) (hleft : b ∉ largest f k l) {p : α → Bool}
    (hp : ∀ a ∈ largest f k l, f b ≤ f a → p a = true) : k ≤ l.countP p := by
  have hk : k ≤ l.length := by
    by_contra hmore
    refine hleft ?_
    rw [eq_of_length_le (Nat.le_of_not_le hmore)]
    exact List.mem_mergeSort.mpr hb
  have hall : (largest f k l).countP p = (largest f k l).length :=
    List.countP_eq_length.mpr fun a ha => hp a ha (le_of_not_mem ha hb hleft)
  calc k = (largest f k l).length := by rw [length_largest, Nat.min_eq_left hk]
    _ = (largest f k l).countP p := hall.symm
    _ ≤ l.countP p := countP_le p

/-- Whoever is left has `k` others ahead of it, unless another entry under its name is taken. -/
theorem mem_of_countP_lt {γ : Type*} [DecidableEq γ] {g : α → γ} {v : β} (hb : b ∈ l)
    (hv : v ≤ f b) (h : (l.countP fun a => decide (g a ≠ g b ∧ v ≤ f a)) < k) :
    ∃ a ∈ largest f k l, g a = g b := by
  by_contra hnone
  have hother (a : α) (ha : a ∈ largest f k l) : g a ≠ g b := fun heq => hnone ⟨a, ha, heq⟩
  refine Nat.not_le.mpr h (le_countP hb (fun hmem => hother b hmem rfl) fun a ha hle => ?_)
  exact decide_eq_true ⟨hother a ha, le_trans hv hle⟩

/-- **Fewer than `k` larger ones** are ahead of whoever is taken. -/
theorem countP_lt (ha : a ∈ largest f k l) : (l.countP fun b => decide (f a < f b)) < k := by
  have hdrop : ((l.mergeSort fun a b => decide (f b ≤ f a)).drop k).countP
      (fun b => decide (f a < f b)) = 0 :=
    List.countP_eq_zero.mpr fun b hb hlt =>
      absurd (of_decide_eq_true hlt) (not_lt.mpr (le_of_mem_drop ha hb))
  have hahead : (l.countP fun b => decide (f a < f b)) =
      (largest f k l).countP fun b => decide (f a < f b) := by
    rw [← (List.mergeSort_perm l fun a b => decide (f b ≤ f a)).countP_eq,
      ← List.take_append_drop k (l.mergeSort _), List.countP_append, hdrop]
    rfl
  have hself : (largest f k l).countP (fun b => decide (f a < f b)) ≠ (largest f k l).length :=
    fun hall => lt_irrefl (f a) (of_decide_eq_true (List.countP_eq_length.mp hall a ha))
  have hsize := length_largest f k l
  have hle := List.countP_le_length (p := fun b => decide (f a < f b)) (l := largest f k l)
  omega

end Largest
