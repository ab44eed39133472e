import Mathlib.Data.List.Basic
import Mathlib.Order.Filter.AtTopBot.Basic
import Mathlib.Order.WellFounded

/-!
# Programs that keep a log

A program goes from one state to another and leaves a log of what it has done. Here a program is
the relation of the three, so that a loop is one without a bound on its turns, and to say that a
loop ends is to say that the relation has something to relate (`Logged.Total`).

What holds of the turns of a loop holds of the loop, if it holds of doing nothing and of one
thing after another (`Logged.Composes`). A function that runs a loop for so many turns computes
what the loop does, if the turns are many enough (`Logged.ForEach.eventually`); and one that says
whether they were many enough has run the program if they were (`Logged.Computes`).
-/

/-- A program: from where, with which log, to where. -/
abbrev Logged (σ ε : Type*) := σ → List ε → σ → Prop

namespace Logged

variable {σ ε α : Type*} {R : Logged σ ε}

/-- It ends from every state with a property. -/
def Total (I : σ → Prop) (P : Logged σ ε) : Prop := ∀ s, I s → ∃ log s', P s log s'

/-- **What composes** holds of doing nothing, and of one thing after another. -/
structure Composes (R : Logged σ ε) : Prop where
  refl : ∀ s, R s [] s
  trans : ∀ {s log s' log' s''}, R s log s' → R s' log' s'' → R s (log ++ log') s''

/-! ### For each -/

/-- A program for each element of a list, one after another. -/
inductive ForEach (P : α → Logged σ ε) : List α → Logged σ ε
  | nil (s : σ) : ForEach P [] s [] s
  | cons {a : α} {as : List α} {s s' s'' : σ} {log log' : List ε} :
    P a s log s' → ForEach P as s' log' s'' → ForEach P (a :: as) s (log ++ log') s''

namespace ForEach

variable {P : α → Logged σ ε} {as : List α} {s s' : σ} {log : List ε}

theorem rel (h : ForEach P as s log s') (hR : Composes R)
    (hP : ∀ a s log s', P a s log s' → R s log s') : R s log s' := by
  induction h with
  | nil s => exact hR.refl s
  | cons ha _ ih => exact hR.trans (hP _ _ _ _ ha) ih

theorem invariant {I : σ → Prop} (h : ForEach P as s log s')
    (hI : ∀ a s log s', P a s log s' → I s → I s') (hs : I s) : I s' := by
  induction h with
  | nil => exact hs
  | cons ha _ ih => exact ih (hI _ _ _ _ ha hs)

theorem total {I : σ → Prop} (hP : ∀ a, Total I (P a))
    (hI : ∀ a s log s', P a s log s' → I s → I s') : Total I (ForEach P as) := by
  intro s hs
  induction as generalizing s with
  | nil => exact ⟨[], s, .nil s⟩
  | cons a as ih =>
    obtain ⟨log, s', ha⟩ := hP a s hs
    obtain ⟨log', s'', has⟩ := ih s' (hI a s log s' ha hs)
    exact ⟨log ++ log', s'', .cons ha has⟩

/-- What each turn brings about for its element, and the others do not undo. -/
theorem post {I : σ → Prop} {Q : α → σ → Prop} (h : ForEach P as s log s')
    (hI : ∀ a s log s', P a s log s' → I s → I s')
    (hQ : ∀ a s log s', P a s log s' → I s → Q a s')
    (hkeep : ∀ a b s log s', P b s log s' → I s → Q a s → Q a s') (hs : I s) :
    ∀ a ∈ as, Q a s' := by
  have hlater {a : α} {as : List α} {s s' : σ} {log : List ε} (h : ForEach P as s log s')
      (hs : I s) (ha : Q a s) : Q a s' := by
    induction h with
    | nil => exact ha
    | cons hb _ ih => exact ih (hI _ _ _ _ hb hs) (hkeep _ _ _ _ _ hb hs ha)
  induction h with
  | nil => exact fun a ha => absurd ha List.not_mem_nil
  | cons ha has ih =>
    have hs' := hI _ _ _ _ ha hs
    refine List.forall_mem_cons.mpr ⟨?_, ih hs'⟩
    exact hlater has hs' (hQ _ _ _ _ ha hs)

/-- A function that has enough turns for each element. -/
theorem eventually {f : ℕ → σ → α → σ} (h : ForEach P as s log s')
    (hf : ∀ a s log s', P a s log s' → ∀ᶠ n in Filter.atTop, f n s a = s') :
    ∀ᶠ n in Filter.atTop, as.foldl (f n) s = s' := by
  induction h with
  | nil s => exact Filter.Eventually.of_forall fun _ => rfl
  | cons ha _ ih =>
    filter_upwards [hf _ _ _ _ ha, ih] with n hn hrest
    rw [List.foldl_cons, hn, hrest]

end ForEach

/-! ### Again, until it stops -/

/-- A program again and again, until another one ends it. -/
inductive Repeat (again stop : Logged σ ε) : Logged σ ε
  | stop {s s' : σ} {log : List ε} : stop s log s' → Repeat again stop s log s'
  | again {s s' s'' : σ} {log log' : List ε} :
    again s log s' → Repeat again stop s' log' s'' → Repeat again stop s (log ++ log') s''

namespace Repeat

variable {again stop : Logged σ ε} {s s' : σ} {log : List ε}

theorem rel (h : Repeat again stop s log s') (hR : Composes R)
    (hagain : ∀ s log s', again s log s' → R s log s')
    (hstop : ∀ s log s', stop s log s' → R s log s') : R s log s' := by
  induction h with
  | stop h => exact hstop _ _ _ h
  | again h _ ih => exact hR.trans (hagain _ _ _ h) ih

/-- How it ends. -/
theorem exists_stop (h : Repeat again stop s log s') : ∃ s₁ log₁, stop s₁ log₁ s' := by
  induction h with
  | stop h => exact ⟨_, _, h⟩
  | again _ _ ih => exact ih

/-- **It ends** if every turn that is not the last makes something smaller. -/
theorem total {β : Type*} [Preorder β] [WellFoundedLT β] {I : σ → Prop} (μ : σ → β)
    (h : ∀ s, I s → (∃ log s', stop s log s') ∨ ∃ log s', again s log s' ∧ I s' ∧ μ s' < μ s) :
    Total I (Repeat again stop) := by
  intro s
  induction s using (InvImage.wf μ wellFounded_lt).induction with
  | _ s ih =>
    intro hs
    rcases h s hs with ⟨log, s', hstop⟩ | ⟨log, s', hagain, hs', hlt⟩
    · exact ⟨log, s', .stop hstop⟩
    · obtain ⟨log', s'', hrest⟩ := ih s' hlt hs'
      exact ⟨log ++ log', s'', .again hagain hrest⟩

end Repeat

/-! ### By computation -/

/-- **A function computes a program**: where it has a result, the program comes to it. -/
def Computes (f : σ → Option (List ε × σ)) (P : Logged σ ε) : Prop :=
  ∀ {s log s'}, f s = some (log, s') → P s log s'

/-- A function for each element of a list, one after another. -/
def each (f : α → σ → Option (List ε × σ)) : List α → σ → Option (List ε × σ)
  | [], s => some ([], s)
  | a :: as, s => (f a s).bind fun r => (each f as r.2).map fun r' => (r.1 ++ r'.1, r'.2)

/-- A function again and again, until it says that it is done, for so many turns at most. -/
def repeated (f : σ → Option (Bool × List ε × σ)) : ℕ → σ → Option (List ε × σ)
  | 0, _ => none
  | n + 1, s => (f s).bind fun r =>
    if r.1 then some r.2 else (repeated f n r.2.2).map fun r' => (r.2.1 ++ r'.1, r'.2)

theorem computes_each {f : α → σ → Option (List ε × σ)} {P : α → Logged σ ε}
    (h : ∀ a, Computes (f a) (P a)) (as : List α) : Computes (each f as) (ForEach P as) := by
  induction as with
  | nil =>
    intro s log s' heq
    obtain ⟨rfl, rfl⟩ := Prod.mk.inj (Option.some.inj heq)
    exact .nil s
  | cons a as ih =>
    intro s log s' heq
    obtain ⟨r, hr, heq⟩ := Option.bind_eq_some_iff.mp heq
    obtain ⟨r', hr', heq⟩ := Option.map_eq_some_iff.mp heq
    obtain ⟨rfl, rfl⟩ := Prod.mk.inj heq
    exact .cons (h a hr) (ih hr')

theorem computes_repeated {f : σ → Option (Bool × List ε × σ)} {again stop : Logged σ ε}
    (hagain : ∀ {s log s'}, f s = some (false, log, s') → again s log s')
    (hstop : ∀ {s log s'}, f s = some (true, log, s') → stop s log s') (n : ℕ) :
    Computes (repeated f n) (Repeat again stop) := by
  induction n with
  | zero => exact fun heq => by cases heq
  | succ n ih =>
    intro s log s' heq
    obtain ⟨⟨done, log₁, s₁⟩, hr, heq⟩ := Option.bind_eq_some_iff.mp heq
    cases done with
    | true =>
      obtain ⟨rfl, rfl⟩ := Prod.mk.inj (Option.some.inj heq)
      exact .stop (hstop hr)
    | false =>
      obtain ⟨r', hr', heq⟩ := Option.map_eq_some_iff.mp heq
      obtain ⟨rfl, rfl⟩ := Prod.mk.inj heq
      exact .again (hagain hr) (ih hr')

end Logged
