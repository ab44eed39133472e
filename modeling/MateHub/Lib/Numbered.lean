import Mathlib.Data.List.Basic

/-!
# Consecutive numbers and windows on them

A log whose entries carry the numbers 1, 2, 3, …, and a window on it: the entries after
the first `k`, as a bounded buffer holds them. `Numbered num log` says that the entries
of a log are numbered so. The entries of a window with a number above `s` are then the
log without its first `s` entries, provided that the window reaches that far back
(`Numbered.filter_drop`).
-/

variable {α : Type*} {num : α → ℕ} {log : List α}

/-- The entries of a log carry the numbers 1, 2, 3, … in order. -/
def Numbered (num : α → ℕ) (log : List α) : Prop :=
  ∀ (i : ℕ) (h : i < log.length), num log[i] = i + 1

namespace Numbered

@[simp] theorem nil : Numbered num [] := fun _ h => absurd h (Nat.not_lt_zero _)

/-- The next entry gets the next number. -/
theorem append_iff {a : α} :
    Numbered num (log ++ [a]) ↔ Numbered num log ∧ num a = log.length + 1 := by
  refine ⟨fun h => ⟨fun i hi => ?_, ?_⟩, fun ⟨h, ha⟩ i hi => ?_⟩
  · have := h i (by rw [List.length_append]; omega)
    rwa [List.getElem_append_left hi] at this
  · have := h log.length (by simp)
    simpa using this
  · rcases Nat.lt_or_ge i log.length with hlt | hge
    · rw [List.getElem_append_left hlt]
      exact h i hlt
    · obtain rfl : i = log.length := by
        rw [List.length_append, List.length_singleton] at hi
        omega
      simpa using ha

theorem eq_of_mem (h : Numbered num log) {a b : α} (ha : a ∈ log) (hb : b ∈ log)
    (hab : num a = num b) : a = b := by
  obtain ⟨i, hi, rfl⟩ := List.getElem_of_mem ha
  obtain ⟨j, hj, rfl⟩ := List.getElem_of_mem hb
  rw [h i hi, h j hj] at hab
  obtain rfl : i = j := by omega
  rfl

theorem pairwise_drop (h : Numbered num log) (k : ℕ) :
    (log.drop k).Pairwise fun a b => num a < num b := by
  rw [List.pairwise_iff_getElem]
  intro i j hi hj hij
  rw [List.getElem_drop, List.getElem_drop, h, h]
  omega

/-- The entry at the front of a window. -/
theorem num_head (h : Numbered num log) {k : ℕ} {a : α} {rest : List α}
    (hdrop : log.drop k = a :: rest) : num a = k + 1 := by
  have hlen := congrArg List.length hdrop
  rw [List.length_drop, List.length_cons] at hlen
  have hk : k < log.length := by omega
  rw [List.drop_eq_getElem_cons hk] at hdrop
  rw [← (List.cons.inj hdrop).1]
  exact h k hk

/-- **Reading a window from a number on.** -/
theorem filter_drop (h : Numbered num log) {k s : ℕ} (hks : k ≤ s) :
    ((log.drop k).filter fun a => s < num a) = log.drop s := by
  obtain ⟨d, rfl⟩ := Nat.exists_eq_add_of_le hks
  induction d generalizing k with
  | zero =>
    refine List.filter_eq_self.mpr fun a ha => ?_
    obtain ⟨i, hi, rfl⟩ := List.getElem_of_mem ha
    rw [List.getElem_drop, h]
    exact decide_eq_true (Nat.lt_succ_of_le (Nat.le_add_right k i))
  | succ d ih =>
    rcases Nat.lt_or_ge k log.length with hlt | hge
    · rw [List.drop_eq_getElem_cons hlt, List.filter_cons_of_neg]
      · have := ih (k := k + 1) (by omega)
        rwa [show k + 1 + d = k + (d + 1) by omega] at this
      · rw [h]
        simp
    · rw [List.drop_eq_nil_of_le hge, List.drop_eq_nil_of_le (by omega)]
      rfl

end Numbered
