import Mathlib.Algebra.Order.Archimedean.Basic
import Mathlib.Algebra.Order.Field.Basic
import Mathlib.Data.List.Forall2
import Mathlib.Tactic.Linarith
import Mathlib.Tactic.Ring

/-!
# Exponential smoothing

A value follows its inputs: it keeps a share `a` of what it was, and the rest is the input. It
stays between the bounds of its inputs (`Smoothing.smooth_mem_Icc`), it is monotone in all of
them and strictly so (`Smoothing.smoothed_lt_smoothed`), and under one input it goes to that
input, which it has come nearer by the factor `a` each time (`Smoothing.smoothed_replicate`).
-/

variable {K : Type*} [Field K]

/-- What becomes of the value at an input. -/
def smooth (a e x : K) : K := e * a + x * (1 - a)

/-- What becomes of it at one input after another. -/
def smoothed (a e : K) (xs : List K) : K := xs.foldl (smooth a) e

namespace Smoothing

variable {a e e' x b lo hi : K} {xs ys : List K}

@[simp] theorem smoothed_nil (a e : K) : smoothed a e [] = e := rfl

@[simp] theorem smoothed_cons (a e x : K) (xs : List K) :
    smoothed a e (x :: xs) = smoothed a (smooth a e x) xs := rfl

/-- **Under one input** the distance shrinks by the factor. -/
theorem smoothed_replicate (a e x : K) (n : ℕ) :
    smoothed a e (List.replicate n x) = x + (e - x) * a ^ n := by
  induction n generalizing e with
  | zero => simp
  | succ n ih =>
    rw [List.replicate_succ, smoothed_cons, ih, smooth]
    ring

variable [LinearOrder K] [IsStrictOrderedRing K]

/-- **The value stays between the bounds of its inputs.** -/
theorem smooth_mem_Icc (h₀ : 0 ≤ a) (h₁ : a ≤ 1) (he : lo ≤ e ∧ e ≤ hi) (hx : lo ≤ x ∧ x ≤ hi) :
    lo ≤ smooth a e x ∧ smooth a e x ≤ hi := by
  have hrest : 0 ≤ 1 - a := sub_nonneg.mpr h₁
  constructor
  · calc lo = lo * a + lo * (1 - a) := by ring
      _ ≤ e * a + x * (1 - a) := add_le_add (mul_le_mul_of_nonneg_right he.1 h₀)
        (mul_le_mul_of_nonneg_right hx.1 hrest)
  · calc e * a + x * (1 - a) ≤ hi * a + hi * (1 - a) :=
        add_le_add (mul_le_mul_of_nonneg_right he.2 h₀) (mul_le_mul_of_nonneg_right hx.2 hrest)
      _ = hi := by ring

/-- Two values, of which one is never behind and has been ahead once. -/
theorem smooth_lt_smooth (h₀ : 0 < a) (h₁ : a < 1) (he : e ≤ e') {y : K} (hx : x ≤ y)
    (hne : e < e' ∨ x < y) : smooth a e x < smooth a e' y := by
  have hrest : 0 < 1 - a := sub_pos.mpr h₁
  rcases hne with hlt | hlt
  · exact add_lt_add_of_lt_of_le (mul_lt_mul_of_pos_right hlt h₀)
      (mul_le_mul_of_nonneg_right hx hrest.le)
  · exact add_lt_add_of_le_of_lt (mul_le_mul_of_nonneg_right he h₀.le)
      (mul_lt_mul_of_pos_right hlt hrest)

theorem smooth_le_smooth (h₀ : 0 ≤ a) (h₁ : a ≤ 1) (he : e ≤ e') {y : K} (hx : x ≤ y) :
    smooth a e x ≤ smooth a e' y :=
  add_le_add (mul_le_mul_of_nonneg_right he h₀)
    (mul_le_mul_of_nonneg_right hx (sub_nonneg.mpr h₁))

/-- **And a strictly larger one**, unless they are the same. -/
theorem smoothed_lt_smoothed (h₀ : 0 < a) (h₁ : a < 1) (he : e ≤ e')
    (h : List.Forall₂ (· ≤ ·) xs ys) (hne : e < e' ∨ xs ≠ ys) :
    smoothed a e xs < smoothed a e' ys := by
  induction h generalizing e e' with
  | nil => exact hne.resolve_right fun hnil => hnil rfl
  | @cons x y xs ys hx _ ih =>
    rw [smoothed_cons, smoothed_cons]
    by_cases hahead : e < e' ∨ x < y
    · have hlt := smooth_lt_smooth h₀ h₁ he hx hahead
      exact ih hlt.le (.inl hlt)
    · obtain ⟨hle, hxy⟩ := not_or.mp hahead
      obtain rfl : x = y := le_antisymm hx (not_lt.mp hxy)
      refine ih (smooth_le_smooth h₀.le h₁.le he le_rfl) (.inr fun htail => ?_)
      exact hne.elim hle fun hlists => hlists (by rw [htail])

/-- **Under one input the value goes there**: it passes every bound below the input for good. -/
theorem exists_lt_smoothed_replicate [Archimedean K] (h₀ : 0 ≤ a) (h₁ : a < 1) (e : K)
    (hb : b < x) : ∃ m, ∀ n, m ≤ n → b < smoothed a e (List.replicate n x) := by
  rcases le_or_gt x e with hle | hgt
  · refine ⟨0, fun n _ => ?_⟩
    rw [smoothed_replicate]
    have habove := mul_nonneg (sub_nonneg.mpr hle) (pow_nonneg h₀ n)
    linarith
  · have hgap : 0 < x - e := sub_pos.mpr hgt
    obtain ⟨m, hm⟩ := exists_pow_lt_of_lt_one (div_pos (sub_pos.mpr hb) hgap) h₁
    refine ⟨m, fun n hn => ?_⟩
    have hpow : (x - e) * a ^ n < x - b :=
      calc (x - e) * a ^ n ≤ (x - e) * a ^ m :=
            mul_le_mul_of_nonneg_left (pow_le_pow_of_le_one h₀ h₁.le hn) hgap.le
        _ < (x - e) * ((x - b) / (x - e)) := mul_lt_mul_of_pos_left hm hgap
        _ = x - b := mul_div_cancel₀ _ hgap.ne'
    rw [smoothed_replicate]
    linarith

/-- It never passes the input, and stays where it is if it is beyond it. -/
theorem smoothed_replicate_le_max (h₀ : 0 ≤ a) (h₁ : a ≤ 1) (e x : K) (n : ℕ) :
    smoothed a e (List.replicate n x) ≤ max e x := by
  induction n generalizing e with
  | zero => exact le_max_left e x
  | succ n ih =>
    have hstep : smooth a e x ≤ max e x := by
      calc smooth a e x ≤ smooth a (max e x) (max e x) :=
            smooth_le_smooth h₀ h₁ (le_max_left e x) (le_max_right e x)
        _ = max e x := by rw [smooth]; ring
    rw [List.replicate_succ, smoothed_cons]
    exact (ih _).trans (max_le hstep (le_max_right e x))

end Smoothing
