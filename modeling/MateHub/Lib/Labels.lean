import Mathlib.Data.List.Basic
import Mathlib.Logic.Function.Basic

/-!
# Labels from queues

Labels wait in queues, one queue for every kind of item. Items come one after another,
and each takes the oldest label of its kind, or none where the queue is empty
(`Labels.assign`). A label may be meant for one item only, but the queues do not know.

Every item takes the label that is meant for it if and only if, kind by kind, the labels
stand in the order in which their items come, and no item comes for which none is meant
while a label waits (`Labels.assign_meant_iff`).
-/

namespace Labels

variable {ι κ η : Type*} [DecidableEq κ] {key : ι → κ} {meant : ι → Option η}

/-- The items with the labels they take. -/
def assign (key : ι → κ) : List ι → (κ → List η) → List (ι × Option η)
  | [], _ => []
  | i :: is, queues =>
    (i, (queues (key i)).head?) ::
      assign key is (Function.update queues (key i) (queues (key i)).tail)

/-- The labels of a queue are meant for the items, one for one, as long as they last;
nothing is meant for the items that come later. -/
def Paired (meant : ι → Option η) : List ι → List η → Prop
  | [], _ => True
  | i :: is, labels => meant i = labels.head? ∧ Paired meant is labels.tail

/-- The items of a kind. -/
def ofKind (key : ι → κ) (is : List ι) (k : κ) : List ι := is.filter fun i => key i = k

/-- Kind by kind, the labels are meant for the items. -/
def AllPaired (key : ι → κ) (meant : ι → Option η) (is : List ι) (queues : κ → List η) : Prop :=
  ∀ k, Paired meant (ofKind key is k) (queues k)

variable {i : ι} {is : List ι} {queues : κ → List η} {k : κ}

@[simp] theorem ofKind_nil : ofKind key [] k = [] := rfl

theorem ofKind_cons_self : ofKind key (i :: is) (key i) = i :: ofKind key is (key i) :=
  List.filter_cons_of_pos (by simp)

theorem ofKind_cons_ne (hk : k ≠ key i) : ofKind key (i :: is) k = ofKind key is k :=
  List.filter_cons_of_neg (by simpa using hk.symm)

theorem ofKind_concat_of_eq (hk : key i = k) :
    ofKind key (is ++ [i]) k = ofKind key is k ++ [i] := by
  rw [ofKind, List.filter_append, List.filter_cons_of_pos (by simpa using hk), List.filter_nil,
    ofKind]

theorem ofKind_concat_of_ne (hk : key i ≠ k) : ofKind key (is ++ [i]) k = ofKind key is k := by
  rw [ofKind, List.filter_append, List.filter_cons_of_neg (by simpa using hk), List.filter_nil,
    List.append_nil, ofKind]

@[simp] theorem allPaired_nil : AllPaired key meant [] queues := fun _ => trivial

/-- The first item takes the label that is meant for it, and the others are paired with
what is left. -/
theorem allPaired_cons :
    AllPaired key meant (i :: is) queues ↔ meant i = (queues (key i)).head? ∧
      AllPaired key meant is (Function.update queues (key i) (queues (key i)).tail) := by
  constructor
  · intro h
    have hi := h (key i)
    rw [ofKind_cons_self] at hi
    refine ⟨hi.1, fun k => ?_⟩
    rcases eq_or_ne k (key i) with rfl | hk
    · rw [Function.update_self]
      exact hi.2
    · rw [Function.update_of_ne hk, ← ofKind_cons_ne hk]
      exact h k
  · rintro ⟨hi, h⟩ k
    have hk := h k
    rcases eq_or_ne k (key i) with rfl | hne
    · rw [Function.update_self] at hk
      rw [ofKind_cons_self]
      exact ⟨hi, hk⟩
    · rwa [Function.update_of_ne hne, ← ofKind_cons_ne hne] at hk

/-- **Every item takes its own label** exactly if the queues are paired with the items. -/
theorem assign_meant_iff :
    (∀ a ∈ assign key is queues, a.2 = meant a.1) ↔ AllPaired key meant is queues := by
  induction is generalizing queues with
  | nil => simp [assign]
  | cons i is ih =>
    rw [assign, allPaired_cons, ← ih, List.forall_mem_cons]
    exact and_congr_left fun _ => eq_comm

/-- Where no label waits, nothing may be meant for any item. -/
theorem allPaired_empty : AllPaired key meant is (fun _ => []) ↔ ∀ i ∈ is, meant i = none := by
  induction is with
  | nil => simp
  | cons i is ih =>
    have hempty : Function.update (fun _ => []) (key i) (([] : List η).tail) = fun _ => [] :=
      Function.update_eq_self (key i) fun _ => []
    rw [allPaired_cons, hempty, ih, List.forall_mem_cons, List.head?_nil]

end Labels
