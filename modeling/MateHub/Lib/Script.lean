import Mathlib.Data.List.Basic
import Mathlib.Data.List.Infix

/-!
# Scripts

A script is a list of statements, each of which changes a state or fails. Executing it ends
with the last state, or nowhere if a statement fails; and a script that is not all executed,
because a statement fails or whoever executes it does, has come as far as some prefix of it.

One proves something about a script statement by statement, each with a condition on the
state before it (`Script.Along`): an invariant that every statement keeps under its
condition holds at the end, and wherever the script stops.
-/

namespace Script

variable {σ ω : Type*} {exec : σ → ω → Option σ}

/-- The state at the end of a script. -/
def run (exec : σ → ω → Option σ) (s : σ) (ws : List ω) : Option σ := ws.foldlM exec s

/-- The states at which a script may stop. -/
def Stops (exec : σ → ω → Option σ) (s : σ) (ws : List ω) (t : σ) : Prop :=
  ∃ ws', ws' <+: ws ∧ run exec s ws' = some t

/-- The states at which a script may stop, one after another. -/
def stopsAt (exec : σ → ω → Option σ) : σ → List ω → List σ
  | s, [] => [s]
  | s, w :: ws =>
    s :: match exec s w with
      | none => []
      | some t => stopsAt exec t ws

/-- Every statement of a script meets a condition in the state before it. -/
def Along (exec : σ → ω → Option σ) (P : σ → ω → Prop) : σ → List ω → Prop
  | _, [] => True
  | s, w :: ws => P s w ∧ ∀ t, exec s w = some t → Along exec P t ws

variable {P Q : σ → ω → Prop} {s t u : σ} {w : ω} {ws ws' : List ω}

@[simp] theorem run_nil : run exec s [] = some s := rfl

@[simp] theorem run_cons : run exec s (w :: ws) = (exec s w).bind fun t => run exec t ws := rfl

theorem run_singleton : run exec s [w] = exec s w := by
  rw [run_cons]
  exact Option.bind_fun_some _

@[simp] theorem run_append :
    run exec s (ws ++ ws') = (run exec s ws).bind fun t => run exec t ws' := by
  induction ws generalizing s with
  | nil => rfl
  | cons w ws ih => simp [ih, Option.bind_assoc]

theorem stops_of_run (h : run exec s ws = some t) : Stops exec s ws t :=
  ⟨ws, List.prefix_rfl, h⟩

theorem stops_self : Stops exec s ws s := ⟨[], List.nil_prefix, rfl⟩

/-- **A script stops** before its first statement, or somewhere after it. -/
theorem stops_cons :
    Stops exec s (w :: ws) u ↔ u = s ∨ ∃ t, exec s w = some t ∧ Stops exec t ws u := by
  constructor
  · rintro ⟨_ | ⟨w', ws'⟩, hpre, hrun⟩
    · exact .inl (Option.some.inj hrun).symm
    · obtain ⟨rfl, hpre'⟩ := List.cons_prefix_cons.mp hpre
      obtain ⟨t, hw, hrun⟩ := Option.bind_eq_some_iff.mp hrun
      exact .inr ⟨t, hw, ws', hpre', hrun⟩
  · rintro (rfl | ⟨t, hw, ws', hpre, hrun⟩)
    · exact stops_self
    · exact ⟨w :: ws', List.cons_prefix_cons.mpr ⟨rfl, hpre⟩,
        Option.bind_eq_some_iff.mpr ⟨t, hw, hrun⟩⟩

theorem stops_nil : Stops exec s [] t ↔ t = s := by
  constructor
  · rintro ⟨ws', hpre, hrun⟩
    rw [List.prefix_nil.mp hpre] at hrun
    exact (Option.some.inj hrun).symm
  · rintro rfl
    exact stops_self

theorem mem_stopsAt : t ∈ stopsAt exec s ws ↔ Stops exec s ws t := by
  induction ws generalizing s with
  | nil => rw [stopsAt, List.mem_singleton, stops_nil]
  | cons w ws ih =>
    rw [stopsAt, List.mem_cons, stops_cons]
    rcases exec s w with _ | u
    · simp
    · simp [ih]

/-- A condition that does not depend on the state. -/
theorem along_of_forall (h : ∀ w ∈ ws, ∀ s, P s w) : Along exec P s ws := by
  induction ws generalizing s with
  | nil => trivial
  | cons w ws ih =>
    exact ⟨h w List.mem_cons_self s, fun t _ => ih fun w' hw' => h w' (List.mem_cons_of_mem _ hw')⟩

theorem along_append : Along exec P s (ws ++ ws') ↔
    Along exec P s ws ∧ ∀ t, run exec s ws = some t → Along exec P t ws' := by
  induction ws generalizing s with
  | nil => simp [Along]
  | cons w ws ih =>
    simp only [List.cons_append, Along, ih, run_cons, Option.bind_eq_some_iff]
    constructor
    · rintro ⟨hw, h⟩
      exact ⟨⟨hw, fun t ht => (h t ht).1⟩, fun u ⟨t, ht, hu⟩ => (h t ht).2 u hu⟩
    · rintro ⟨⟨hw, h⟩, h'⟩
      exact ⟨hw, fun t ht => ⟨h t ht, fun u hu => h' u ⟨t, ht, hu⟩⟩⟩

/-- **The invariant rule for scripts**: what every statement keeps under its condition holds
wherever a script stops. -/
theorem Stops.invariant {I : σ → Prop} (hstep : ∀ s w t, I s → P s w → exec s w = some t → I t)
    (hs : I s) (hP : Along exec P s ws) (h : Stops exec s ws t) : I t := by
  induction ws generalizing s with
  | nil => exact stops_nil.mp h ▸ hs
  | cons w ws ih =>
    rcases stops_cons.mp h with rfl | ⟨u, hw, h⟩
    · exact hs
    · exact ih (hstep _ _ _ hs hP.1 hw) (hP.2 u hw) h

end Script
