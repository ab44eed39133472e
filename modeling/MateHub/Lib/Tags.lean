import Mathlib.Data.List.Basic

/-!
# Tags

A text in which things are opened and closed is read from the left, with the list of what is
open, the innermost first. It is well nested if whatever is closed is the innermost thing that is
open and nothing is open at its end; it is flat if nothing is opened within another thing. What is
between the tags is read with the things that are open around it.
-/

/-- A piece of a text: a thing of some kind is opened or closed, or there is something else. -/
inductive Tag (κ α : Type*)
  | opens (k : κ)
  | closes (k : κ)
  | text (a : α)
  deriving DecidableEq

namespace Tag

variable {κ α : Type*}

/-- Whatever is closed is the innermost thing that is open, and nothing is open at the end. -/
def WellNested : List κ → List (Tag κ α) → Prop
  | around, [] => around = []
  | around, opens k :: ts => WellNested (k :: around) ts
  | around, closes k :: ts => around.head? = some k ∧ WellNested around.tail ts
  | around, text _ :: ts => WellNested around ts

/-- Nothing is opened within another thing. -/
def Flat : List κ → List (Tag κ α) → Prop
  | _, [] => True
  | around, opens k :: ts => around = [] ∧ Flat (k :: around) ts
  | around, closes _ :: ts => Flat around.tail ts
  | around, text _ :: ts => Flat around ts

/-- What is between the tags, with what is open around it. -/
def contents : List κ → List (Tag κ α) → List (List κ × α)
  | _, [] => []
  | around, opens k :: ts => contents (k :: around) ts
  | around, closes _ :: ts => contents around.tail ts
  | around, text a :: ts => (around, a) :: contents around ts

section Decidable

variable [DecidableEq κ]

instance WellNested.decidable :
    ∀ (around : List κ) (ts : List (Tag κ α)), Decidable (WellNested around ts)
  | around, [] => inferInstanceAs (Decidable (around = []))
  | around, opens k :: ts => WellNested.decidable (k :: around) ts
  | around, closes _ :: ts =>
    @instDecidableAnd _ _ _ (WellNested.decidable around.tail ts)
  | around, text _ :: ts => WellNested.decidable around ts

instance Flat.decidable : ∀ (around : List κ) (ts : List (Tag κ α)), Decidable (Flat around ts)
  | _, [] => inferInstanceAs (Decidable True)
  | around, opens k :: ts => @instDecidableAnd _ _ _ (Flat.decidable (k :: around) ts)
  | around, closes _ :: ts => Flat.decidable around.tail ts
  | around, text _ :: ts => Flat.decidable around ts

end Decidable

variable {k : κ} {a : α} {around : List κ} {ts : List (Tag κ α)}

@[simp] theorem wellNested_nil : WellNested around ([] : List (Tag κ α)) ↔ around = [] := Iff.rfl

@[simp] theorem wellNested_opens :
    WellNested around (opens k :: ts) ↔ WellNested (k :: around) ts := Iff.rfl

@[simp] theorem wellNested_closes :
    WellNested (k :: around) (closes k :: ts) ↔ WellNested around ts := and_iff_right rfl

@[simp] theorem wellNested_text :
    WellNested around (text a :: ts) ↔ WellNested around ts := Iff.rfl

@[simp] theorem flat_nil : Flat around ([] : List (Tag κ α)) := trivial

@[simp] theorem flat_opens : Flat [] (opens k :: ts) ↔ Flat [k] ts := and_iff_right rfl

@[simp] theorem flat_closes : Flat around (closes k :: ts) ↔ Flat around.tail ts := Iff.rfl

@[simp] theorem flat_text : Flat around (text a :: ts) ↔ Flat around ts := Iff.rfl

@[simp] theorem contents_nil : contents around ([] : List (Tag κ α)) = [] := rfl

@[simp] theorem contents_opens :
    contents around (opens k :: ts) = contents (k :: around) ts := rfl

@[simp] theorem contents_closes :
    contents around (closes k :: ts) = contents around.tail ts := rfl

@[simp] theorem contents_text :
    contents around (text a :: ts) = (around, a) :: contents around ts := rfl

end Tag
