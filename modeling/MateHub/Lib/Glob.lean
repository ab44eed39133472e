import Mathlib.Data.List.Infix

/-!
# Patterns with stars

A pattern in which a star stands for any text, and every other character for itself.
-/

namespace Glob

/-- A text fits a pattern. -/
def fits : List Char → List Char → Bool
  | [], s => s.isEmpty
  | p :: ps, s =>
    if p = '*' then s.tails.any (fits ps)
    else
      match s with
      | [] => false
      | c :: cs => decide (p = c) && fits ps cs

variable {l p s : List Char}

/-- A start without stars is matched literally. -/
theorem fits_append (h : '*' ∉ l) (p s : List Char) : fits (l ++ p) (l ++ s) = fits p s := by
  induction l with
  | nil => rfl
  | cons c l ih =>
    obtain ⟨hc, hl⟩ := not_or.mp fun hmem => h (List.mem_cons.mpr hmem)
    rw [List.cons_append, List.cons_append, fits, if_neg (Ne.symm hc), decide_eq_true rfl,
      Bool.true_and, ih hl]

/-- A text that fits a start without stars begins with it. -/
theorem fits_append_iff (h : '*' ∉ l) (p s : List Char) :
    fits (l ++ p) s = true ↔ ∃ t, s = l ++ t ∧ fits p t = true := by
  refine ⟨fun hfits => ?_, ?_⟩
  · induction l generalizing s with
    | nil => exact ⟨s, rfl, hfits⟩
    | cons c l ih =>
      obtain ⟨hc, hl⟩ := not_or.mp fun hmem => h (List.mem_cons.mpr hmem)
      rw [List.cons_append, fits.eq_def] at hfits
      dsimp only at hfits
      rw [if_neg (Ne.symm hc)] at hfits
      rcases s with _ | ⟨d, s⟩
      · cases hfits
      · obtain ⟨hd, hrest⟩ := (Bool.and_eq_true _ _).mp hfits
        obtain ⟨t, rfl, ht⟩ := ih hl s hrest
        exact ⟨t, congrArg (· :: (l ++ t)) (of_decide_eq_true hd).symm, ht⟩
  · rintro ⟨t, rfl, ht⟩
    rwa [fits_append h]

/-- What a star takes is a start of the text. -/
theorem fits_star_iff (p s : List Char) :
    fits ('*' :: p) s = true ↔ ∃ m t, s = m ++ t ∧ fits p t = true := by
  rw [fits.eq_def]
  dsimp only
  rw [if_pos rfl, List.any_eq_true]
  constructor
  · rintro ⟨t, ht, hfits⟩
    obtain ⟨m, rfl⟩ := (List.mem_tails _ _).mp ht
    exact ⟨m, t, rfl, hfits⟩
  · rintro ⟨m, t, rfl, hfits⟩
    exact ⟨t, (List.mem_tails _ _).mpr (List.suffix_append m t), hfits⟩

/-- A star takes any text. -/
theorem fits_star (m : List Char) (h : fits p s = true) : fits ('*' :: p) (m ++ s) = true :=
  (fits_star_iff p (m ++ s)).mpr ⟨m, s, rfl, h⟩

/-- A star at the end takes the rest. -/
theorem fits_star_nil (s : List Char) : fits ['*'] s = true := by
  have h := fits_star s (show fits [] [] = true from rfl)
  rwa [List.append_nil] at h

end Glob
