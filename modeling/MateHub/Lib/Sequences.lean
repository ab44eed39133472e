import Mathlib.Data.List.Perm.Basic

/-!
# Queues and logs

Three rules about what is put into a list in some order, and is read in that order later.

* Commands that wait in a queue: a command put in a queue is executed later, in a state that its
sender does not see. What its sender can know is an abstraction of the state, and what the
commands ahead will make of it. `Foreseen f P a q` says that every command of the queue `q`
satisfies `P` in the abstraction foreseen for its turn, where `a` is the abstraction now and `f`
is the effect of a command on it.

* Events that rest on earlier ones: what is in a log may be there because of what came before it.
An event stands in a log (`Grounds.Stands`) if it is there, and what it rests on stands in the part
of the log before it. As logs are finite, this leads back to events that rest on nothing.

* Lists that differ by swaps of neighbours, and only of neighbours that a relation lets pass each
other (`Reordered`). What is computed along a list does not see such swaps if it does not see a
single one (`Reordered.foldl_eq`).
-/

/-! ### Commands that wait in a queue -/

section Queues

variable {α κ : Type*}

/-- **Every command of the queue is in order in the state foreseen for its turn.** -/
def Foreseen (f : α → κ → α) (P : α → κ → Prop) : α → List κ → Prop
  | _, [] => True
  | a, c :: q => P a c ∧ Foreseen f P (f a c) q

namespace Foreseen

variable {f : α → κ → α} {P : α → κ → Prop} {a b : α} {c : κ} {q : List κ}

@[simp] theorem nil : Foreseen f P a [] := trivial

@[simp] theorem cons_iff : Foreseen f P a (c :: q) ↔ P a c ∧ Foreseen f P (f a c) q := Iff.rfl

/-- Putting a command at the end of the queue. -/
theorem append (h : Foreseen f P a q) (hc : P (q.foldl f a) c) : Foreseen f P a (q ++ [c]) := by
  induction q generalizing a with
  | nil => exact ⟨hc, trivial⟩
  | cons c' q ih => exact ⟨h.1, ih h.2 hc⟩

/-- What is in order in a state is in order in a lesser one. -/
theorem mono {R : α → α → Prop} (hf : ∀ {a b} c, R a b → R (f a c) (f b c))
    (hP : ∀ {a b} c, R a b → P a c → P b c) (hab : R a b) (h : Foreseen f P a q) :
    Foreseen f P b q := by
  induction q generalizing a b with
  | nil => trivial
  | cons c q ih => exact ⟨hP c hab h.1, ih (hf c hab) h.2⟩

end Foreseen

end Queues

/-! ### Events that rest on earlier ones -/

namespace Grounds

variable {ε : Type*} {rests : ε → (ε → Prop) → Prop} {log new : List ε} {e : ε}

/-- **An event stands** in a log, latest first. -/
def Stands (rests : ε → (ε → Prop) → Prop) : List ε → ε → Prop
  | [], _ => False
  | e' :: log, e => (e = e' ∧ rests e (Stands rests log)) ∨ Stands rests log e

/-- The more there is to rest on, the more rests on it. -/
def Mono (rests : ε → (ε → Prop) → Prop) : Prop :=
  ∀ ⦃e : ε⦄ ⦃S S' : ε → Prop⦄, (∀ e', S e' → S' e') → rests e S → rests e S'

theorem Stands.mem (h : Stands rests log e) : e ∈ log := by
  induction log with
  | nil => exact h.elim
  | cons e' log ih =>
    rcases h with ⟨rfl, -⟩ | h
    · exact List.mem_cons_self
    · exact List.mem_cons_of_mem e' (ih h)

/-- What stands is not taken away by what comes later. -/
theorem Stands.append (h : Stands rests log e) (new : List ε) : Stands rests (new ++ log) e := by
  induction new with
  | nil => exact h
  | cons e' new ih => exact .inr ih

/-- **New events stand** if they rest on what stood before all of them. -/
theorem stands_of_mem (hmono : Mono rests) (he : e ∈ new) (h : rests e (Stands rests log)) :
    Stands rests (new ++ log) e := by
  induction new with
  | nil => cases he
  | cons e' new ih =>
    rcases List.mem_cons.mp he with rfl | he
    · exact .inl ⟨rfl, hmono (fun _ hs => hs.append new) h⟩
    · exact .inr (ih he)

/-- **What is handed down** from grounds to what rests on them holds of all that stands. -/
theorem Stands.handedDown {P : ε → Prop} (hmono : Mono rests) (hP : ∀ e ∈ log, rests e P → P e)
    (h : Stands rests log e) : P e := by
  induction log generalizing e with
  | nil => exact h.elim
  | cons e' log ih =>
    have hlog : ∀ e, Stands rests log e → P e :=
      fun e => ih fun e he => hP e (List.mem_cons_of_mem e' he)
    rcases h with ⟨rfl, hrests⟩ | h
    · exact hP e List.mem_cons_self (hmono hlog hrests)
    · exact hlog e h

end Grounds

/-! ### Lists that differ by swaps -/

section Swaps

variable {α σ : Type*} {ok : α → α → Prop} {l l' : List α}

/-- **Swaps of neighbours** that may pass each other. -/
inductive Reordered (ok : α → α → Prop) : List α → List α → Prop
  | refl (l : List α) : Reordered ok l l
  | swap (l₁ l₂ : List α) {a b : α} :
    ok a b → Reordered ok (l₁ ++ a :: b :: l₂) (l₁ ++ b :: a :: l₂)
  | trans {l l' l'' : List α} : Reordered ok l l' → Reordered ok l' l'' → Reordered ok l l''

namespace Reordered

theorem perm (h : Reordered ok l l') : l.Perm l' := by
  induction h with
  | refl l => exact .refl l
  | swap l₁ l₂ _ => exact (List.Perm.swap _ _ l₂).append_left l₁
  | trans _ _ ih ih' => exact ih.trans ih'

/-- **The same is computed along both.** -/
theorem foldl_eq {step : σ → α → σ} (h : Reordered ok l l')
    (hok : ∀ a b, ok a b → ∀ s, step (step s a) b = step (step s b) a) (s : σ) :
    l.foldl step s = l'.foldl step s := by
  induction h generalizing s with
  | refl => rfl
  | swap l₁ l₂ hab =>
    rw [List.foldl_append, List.foldl_append, List.foldl_cons, List.foldl_cons, List.foldl_cons,
      List.foldl_cons, hok _ _ hab]
  | trans _ _ ih ih' => exact (ih s).trans (ih' s)

end Reordered

end Swaps
