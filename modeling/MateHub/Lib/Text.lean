import Mathlib.Algebra.Group.Nat.Defs
import Mathlib.Data.List.TakeWhile

/-!
# Text

Characters that are whitespace or control characters, what trimming leaves of a text, and
numbers as texts of a fixed length.

A text that is put together with separators can be taken apart again at a separator that its
parts do not have. Where only the parts behind it lack the separator, it is taken apart at the
last one (`Separator.eq_of_last`).
-/

namespace Text

/-- The property `White_Space` of Unicode. -/
def isWhitespace (c : Char) : Bool :=
  (0x09 ≤ c.val && c.val ≤ 0x0D) || c.val == 0x20 || c.val == 0x85 || c.val == 0xA0 ||
    c.val == 0x1680 || (0x2000 ≤ c.val && c.val ≤ 0x200A) || c.val == 0x2028 ||
    c.val == 0x2029 || c.val == 0x202F || c.val == 0x205F || c.val == 0x3000

/-- The category `Cc` of Unicode. -/
def isControl (c : Char) : Bool := c.val ≤ 0x1F || (0x7F ≤ c.val && c.val ≤ 0x9F)

/-- A text without what is in front of its first character of another kind. -/
def trimStart (drop : Char → Bool) (s : List Char) : List Char := s.dropWhile drop

/-- A text without what is dropped at its end. -/
def trimEnd (drop : Char → Bool) (s : List Char) : List Char := (s.reverse.dropWhile drop).reverse

/-- A text without whitespace around it. -/
def trim (s : String) : String := .ofList (trimEnd isWhitespace (trimStart isWhitespace s.toList))

/-- A 64-bit number with 16 hexadecimal digits. -/
def hex016 (n : ℕ) : List Char :=
  (List.range 16).map fun i => Nat.digitChar (n / 16 ^ (15 - i) % 16)

/-- The words of a text, as whitespace separates them. -/
def words (s : List Char) : List (List Char) := (s.splitOnP isWhitespace).filter (!·.isEmpty)

end Text

/-! ### Separators -/

namespace Separator

variable {α : Type*} {a : α} {x x' z z' : List α}

/-- The texts are split at the last separator. -/
theorem eq_of_last (hz : a ∉ z) (hz' : a ∉ z') (h : x ++ a :: z = x' ++ a :: z') :
    x = x' ∧ z = z' := by
  rcases List.append_eq_append_iff.mp h with ⟨c, hx, hc⟩ | ⟨c, hx, hc⟩
  · rcases c with _ | ⟨b, c⟩
    · rw [List.append_nil] at hx
      exact ⟨hx.symm, List.tail_eq_of_cons_eq hc⟩
    · refine absurd ?_ hz
      rw [List.tail_eq_of_cons_eq hc]
      exact List.mem_append_right _ List.mem_cons_self
  · rcases c with _ | ⟨b, c⟩
    · rw [List.append_nil] at hx
      exact ⟨hx, (List.tail_eq_of_cons_eq hc).symm⟩
    · refine absurd ?_ hz'
      rw [List.tail_eq_of_cons_eq hc]
      exact List.mem_append_right _ List.mem_cons_self

section AfterLast

variable [DecidableEq α] (a)

/-- What is behind the last separator, or all if there is none: `rsplit(a).next()`. -/
def afterLast (s : List α) : List α := (s.reverse.takeWhile fun b => decide (b ≠ a)).reverse

theorem not_mem_afterLast (s : List α) : a ∉ afterLast a s := by
  intro h
  have hne := List.mem_takeWhile_imp (List.mem_reverse.mp h)
  exact of_decide_eq_true hne rfl

end AfterLast

/-- Two suffixes of a text: one is a suffix of the other. -/
theorem suffix_or (h : x ++ z = x' ++ z') : (∃ q, z = q ++ z') ∨ ∃ q, z' = q ++ z := by
  rcases List.append_eq_append_iff.mp h with ⟨c, -, hz⟩ | ⟨c, -, hz'⟩
  · exact .inl ⟨c, hz⟩
  · exact .inr ⟨c, hz'⟩

end Separator
