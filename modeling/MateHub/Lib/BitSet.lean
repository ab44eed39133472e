import Mathlib.Data.BitVec

/-!
# Sets of bits

A machine word is a set of bits, a list of words has their union, and a word lies within
another if it has no bit that the other lacks – which programs test by masking.
-/

namespace BitVec

variable {α : Type*} {w : ℕ}

/-- A word lies within another, as programs test it. -/
def Within (x y : BitVec w) : Prop := x &&& ~~~y = 0

instance (x y : BitVec w) : Decidable (Within x y) := inferInstanceAs (Decidable (_ = _))

theorem within_iff {x y : BitVec w} :
    x.Within y ↔ ∀ i, x.getLsbD i = true → y.getLsbD i = true := by
  constructor
  · intro h i hi
    have hand := congrArg (fun z : BitVec w => z.getLsbD i) (show x &&& ~~~y = 0 from h)
    simpa [hi, lt_of_getLsbD hi] using hand
  · intro h
    refine eq_of_getLsbD_eq fun i hi => ?_
    simpa [hi] using h i

theorem Within.refl (x : BitVec w) : x.Within x := within_iff.mpr fun _ h => h

theorem Within.trans {x y z : BitVec w} (h : x.Within y) (h' : y.Within z) : x.Within z :=
  within_iff.mpr fun i hi => within_iff.mp h' i (within_iff.mp h i hi)

/-- The union of the words that a list gives. -/
def unions (f : α → BitVec w) (l : List α) : BitVec w := l.foldl (fun acc a => acc ||| f a) 0

theorem getLsbD_foldl_or (f : α → BitVec w) (l : List α) (acc : BitVec w) (i : ℕ) :
    (l.foldl (fun acc a => acc ||| f a) acc).getLsbD i =
      (acc.getLsbD i || l.any fun a => (f a).getLsbD i) := by
  induction l generalizing acc with
  | nil => simp
  | cons a l ih => rw [List.foldl_cons, ih, getLsbD_or, List.any_cons, Bool.or_assoc]

theorem getLsbD_unions (f : α → BitVec w) (l : List α) (i : ℕ) :
    (unions f l).getLsbD i = l.any fun a => (f a).getLsbD i := by
  simp [unions, getLsbD_foldl_or]

/-- A union lies within a word exactly if all its members do. -/
theorem unions_within {f : α → BitVec w} {l : List α} {y : BitVec w} :
    (unions f l).Within y ↔ ∀ a ∈ l, (f a).Within y := by
  constructor
  · intro h a ha
    refine within_iff.mpr fun i hi => within_iff.mp h i ?_
    rw [getLsbD_unions, List.any_eq_true]
    exact ⟨a, ha, hi⟩
  · intro h
    refine within_iff.mpr fun i hi => ?_
    rw [getLsbD_unions, List.any_eq_true] at hi
    obtain ⟨a, ha, hi⟩ := hi
    exact within_iff.mp (h a ha) i hi

/-- Masking with a single bit tests for it. -/
theorem and_twoPow_beq (x : BitVec w) {i : ℕ} (hi : i < w) :
    (x &&& twoPow w i == twoPow w i) = x.getLsbD i := by
  rw [and_twoPow]
  rcases h : x.getLsbD i
  · rw [if_neg Bool.false_ne_true, beq_eq_false_iff_ne]
    intro heq
    have hbit := congrArg (fun z : BitVec w => z.getLsbD i) heq
    simp [hi] at hbit
  · simp

end BitVec
