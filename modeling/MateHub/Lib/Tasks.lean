import MateHub.Lib.Runs
import Mathlib.Logic.Function.Basic

/-!
# Tasks over a shared state

A service handles its requests at the same time: every request is a task with a local
state, and all of them work on one shared state, a step at a time and in any order, while
the surroundings change the shared state too. `Tasks.system` is the transition system of
such a service, for a function that says what the step of one task does.

What one proves about it is of two kinds. A property of every single task against the
shared state (`Tasks.Each`) is kept by a step if the task that takes the step
re-establishes its own property, and everybody else's survives the change of the shared
state: each relies on what the others guarantee. And a place in the program where at most
one task may be (`Tasks.AtMostOne`) stays so if a task comes there only while nobody else
is.
-/

/-- A shared state, and the local states of the tasks. -/
structure Tasks (ι σ τ : Type*) where
  shared : σ
  task : ι → τ

namespace Tasks

variable {ι σ τ ℓ ε : Type*} [DecidableEq ι]

/-- The state after a step of one task. -/
def set (w : Tasks ι σ τ) (i : ι) (s : σ) (t : τ) : Tasks ι σ τ where
  shared := s
  task := Function.update w.task i t

section Set

variable {w : Tasks ι σ τ} {i j : ι} {s : σ} {t : τ}

@[simp] theorem shared_set : (w.set i s t).shared = s := rfl

@[simp] theorem task_set_self : (w.set i s t).task i = t := Function.update_self ..

@[simp] theorem task_set_of_ne (h : j ≠ i) : (w.set i s t).task j = w.task j :=
  Function.update_of_ne h ..

end Set

/-! ### The transition system -/

/-- Who takes a step: a task, or the surroundings. -/
inductive Act (ι ℓ ε : Type*)
  | task (i : ι) (l : ℓ)
  | env (e : ε)

/-- The state after a step; a task that cannot take the step is left as it is. -/
def next (run : σ → ι → τ → ℓ → Option (σ × τ)) (env : σ → ε → σ) (w : Tasks ι σ τ) :
    Act ι ℓ ε → Tasks ι σ τ
  | .task i l =>
    match run w.shared i (w.task i) l with
    | none => w
    | some (s, t) => w.set i s t
  | .env e => { w with shared := env w.shared e }

/-- All tasks are somewhere in the same program, and take steps in any order. -/
def system (init : Tasks ι σ τ → Prop) (run : σ → ι → τ → ℓ → Option (σ × τ))
    (env : σ → ε → σ) : System (Tasks ι σ τ) (Act ι ℓ ε) where
  init := init
  step := fun w a w' => w' = next run env w a

variable {init : Tasks ι σ τ → Prop} {run : σ → ι → τ → ℓ → Option (σ × τ)} {env : σ → ε → σ}
  {ok : Tasks ι σ τ → Act ι ℓ ε → Prop}

/-- **The invariant rule for tasks**: what holds at the start, and is kept by every step
that a task can take and by the surroundings, holds in every state reached. -/
theorem invariant {I : Tasks ι σ τ → Prop} (h₀ : ∀ w, init w → I w)
    (htask : ∀ w i l s t, I w → ok w (.task i l) → run w.shared i (w.task i) l = some (s, t) →
      I (w.set i s t))
    (henv : ∀ w e, I w → ok w (.env e) → I { w with shared := env w.shared e })
    {w : Tasks ι σ τ} (hw : (system init run env).Reach ok w) : I w := by
  refine hw.invariant h₀ fun w a w' hI hok hstep => ?_
  obtain rfl : w' = next run env w a := hstep
  cases a with
  | env e => exact henv w e hI hok
  | task i l =>
    rw [next]
    split
    · exact hI
    · rename_i s t hrun
      exact htask w i l s t hI hok hrun

/-- A list of steps, from a state that a run may start in. -/
theorem reach_foldl {w : Tasks ι σ τ} (hw : init w) {as : List (Act ι ℓ ε)}
    (hok : System.Accepted ok (next run env) w as) :
    (system init run env).Reach ok (as.foldl (next run env) w) :=
  System.Reach.foldl (M := system init run env) (fun _ _ => rfl) (.start hw) hok

theorem reachable_foldl {w : Tasks ι σ τ} (hw : init w) (as : List (Act ι ℓ ε)) :
    (system init run env).Reachable (as.foldl (next run env) w) :=
  reach_foldl hw (System.accepted_true _ _ _)

/-! ### Surroundings that may do one thing or another -/

/-- The steps of tasks, in surroundings whose steps are a relation. -/
inductive StepIn (run : σ → ι → τ → ℓ → Option (σ × τ)) (env : σ → ε → σ → Prop) :
    Tasks ι σ τ → Act ι ℓ ε → Tasks ι σ τ → Prop
  | task {w : Tasks ι σ τ} {i : ι} {l : ℓ} {s : σ} {t : τ} :
      run w.shared i (w.task i) l = some (s, t) → StepIn run env w (.task i l) (w.set i s t)
  | env {w : Tasks ι σ τ} {e : ε} {s : σ} :
      env w.shared e s → StepIn run env w (.env e) { w with shared := s }

/-- The tasks, in such surroundings. -/
def systemIn (init : Tasks ι σ τ → Prop) (run : σ → ι → τ → ℓ → Option (σ × τ))
    (env : σ → ε → σ → Prop) : System (Tasks ι σ τ) (Act ι ℓ ε) where
  init := init
  step := StepIn run env

/-- **The invariant rule**, in such surroundings. -/
theorem invariantIn {env : σ → ε → σ → Prop} {I : Tasks ι σ τ → Prop} (h₀ : ∀ w, init w → I w)
    (htask : ∀ w i l s t, I w → run w.shared i (w.task i) l = some (s, t) → I (w.set i s t))
    (henv : ∀ w e s, I w → env w.shared e s → I { w with shared := s })
    {w : Tasks ι σ τ} (hw : (systemIn init run env).Reachable w) : I w := by
  refine hw.invariant h₀ fun w a w' hI _ hstep => ?_
  cases hstep with
  | task hrun => exact htask w _ _ _ _ hI hrun
  | env he => exact henv w _ _ hI he

/-- Steps of tasks, one after another, each of which does nothing if it cannot be taken. -/
theorem reachableIn_tasks {env : σ → ε → σ → Prop} {w : Tasks ι σ τ}
    (hw : (systemIn init run env).Reachable w) (as : List (ι × ℓ)) :
    (systemIn init run env).Reachable
      (as.foldl (fun w a => next run (fun s (_ : ε) => s) w (.task a.1 a.2)) w) := by
  induction as generalizing w with
  | nil => exact hw
  | cons a as ih =>
    refine ih ?_
    dsimp only [next]
    split
    · exact hw
    · rename_i hrun
      exact .step hw trivial (.task hrun)

/-! ### What a step has to keep -/

variable {P : σ → ι → τ → Prop} {Q : τ → Prop} {w : Tasks ι σ τ} {i : ι} {s : σ} {t : τ}

/-- **Every task has a property**, against the shared state. -/
def Each (P : σ → ι → τ → Prop) (w : Tasks ι σ τ) : Prop := ∀ i, P w.shared i (w.task i)

/-- A task re-establishes its own property, and the others' survive. -/
theorem Each.set (h : Each P w) (hown : P s i t)
    (hothers : ∀ j, j ≠ i → P w.shared j (w.task j) → P s j (w.task j)) :
    Each P (w.set i s t) := by
  intro j
  rcases eq_or_ne j i with rfl | hne
  · rw [task_set_self]
    exact hown
  · rw [task_set_of_ne hne]
    exact hothers j hne (h j)

omit [DecidableEq ι] in
/-- The surroundings take a step under which every task's property survives. -/
theorem Each.around (h : Each P w) (hall : ∀ j, P w.shared j (w.task j) → P s j (w.task j)) :
    Each P { w with shared := s } := fun j => hall j (h j)

/-- **At most one task is at a place.** -/
def AtMostOne (Q : τ → Prop) (w : Tasks ι σ τ) : Prop :=
  ∀ i j, Q (w.task i) → Q (w.task j) → i = j

/-- A step that does not lead to the place, except from it. -/
theorem AtMostOne.set (h : AtMostOne Q w) (ht : Q t → Q (w.task i)) :
    AtMostOne Q (w.set i s t) := by
  have hback : ∀ j, Q ((w.set i s t).task j) → Q (w.task j) := by
    intro j hj
    rcases eq_or_ne j i with rfl | hne
    · rw [task_set_self] at hj
      exact ht hj
    · rwa [task_set_of_ne hne] at hj
  exact fun j k hj hk => h j k (hback j hj) (hback k hk)

/-- A step to the place, while nobody is there. -/
theorem AtMostOne.enter (hfree : ∀ j, ¬ Q (w.task j)) : AtMostOne Q (w.set i s t) := by
  have hself : ∀ j, Q ((w.set i s t).task j) → j = i := by
    intro j hj
    by_contra hne
    rw [task_set_of_ne hne] at hj
    exact hfree j hj
  exact fun j k hj hk => (hself j hj).trans (hself k hk).symm

/-- **Some task is at a place.** -/
def Somebody (Q : τ → Prop) (w : Tasks ι σ τ) : Prop := ∃ i, Q (w.task i)

/-- A step that does not lead away from the place. -/
theorem Somebody.set (h : Somebody Q w) (ht : Q (w.task i) → Q t) :
    Somebody Q (w.set i s t) := by
  obtain ⟨j, hj⟩ := h
  rcases eq_or_ne j i with rfl | hne
  · exact ⟨j, by rw [task_set_self]; exact ht hj⟩
  · exact ⟨j, by rwa [task_set_of_ne hne]⟩

theorem Somebody.of_set (h : Somebody Q (w.set i s t)) : Q t ∨ Somebody Q w := by
  obtain ⟨j, hj⟩ := h
  rcases eq_or_ne j i with rfl | hne
  · rw [task_set_self] at hj
    exact .inl hj
  · rw [task_set_of_ne hne] at hj
    exact .inr ⟨j, hj⟩

end Tasks
