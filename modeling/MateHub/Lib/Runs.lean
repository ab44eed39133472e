import Mathlib.Data.List.Induction
import Mathlib.Order.Defs.PartialOrder

/-!
# Runs of a labelled transition system

A system is a set of initial states and a labelled step relation. What one proves
about a program in such a form is either an invariant – true at the start, kept by
every step, hence true in every state that a run reaches – or, where the program
meets its specification only under a condition, an invariant of the runs whose
steps all meet that condition. `System.Reach` covers both: it is reachability by
steps that pass a guard, and `System.Reachable` is the case of no guard.
-/

/-- A labelled transition system. -/
structure System (σ ι : Type*) where
  /-- The states a run may start in. -/
  init : σ → Prop
  /-- The steps: source, label, target. -/
  step : σ → ι → σ → Prop

namespace System

variable {σ ι : Type*} {M : System σ ι} {ok : σ → ι → Prop}

/-- **Guarded reachability**: the states reached by the runs whose every step is
taken from a state, and under a label, that the guard accepts. -/
inductive Reach (M : System σ ι) (ok : σ → ι → Prop) : σ → Prop
  /-- An initial state is reached. -/
  | start {s : σ} : M.init s → Reach M ok s
  /-- An accepted step extends a run. -/
  | step {s t : σ} {l : ι} : Reach M ok s → ok s l → M.step s l t → Reach M ok t

/-- Reachability by any run. -/
abbrev Reachable (M : System σ ι) : σ → Prop := M.Reach fun _ _ => True

/-- **The invariant rule**: what holds at the start and is kept by every accepted
step holds in every state reached. -/
theorem Reach.invariant {I : σ → Prop} (h₀ : ∀ s, M.init s → I s)
    (h : ∀ s l t, I s → ok s l → M.step s l t → I t) {s : σ} (hs : M.Reach ok s) : I s := by
  induction hs with
  | start hi => exact h₀ _ hi
  | step _ hok hst ih => exact h _ _ _ ih hok hst

/-- The runs that go on from a state. -/
def startingAt (M : System σ ι) (s : σ) : System σ ι where
  init := fun t => t = s
  step := M.step

/-- A weaker guard reaches more. -/
theorem Reach.mono {ok' : σ → ι → Prop} (h : ∀ s l, ok s l → ok' s l) {s : σ}
    (hs : M.Reach ok s) : M.Reach ok' s := by
  induction hs with
  | start hi => exact .start hi
  | step _ hok hst ih => exact .step ih (h _ _ hok) hst

/-- **Forward simulation**: if every initial state has a partner, and every step of a state can
be taken by its partner too, every state that is reached has a partner that is reached. -/
theorem Reach.simulate {τ κ : Type*} {N : System τ κ} {R : σ → τ → Prop}
    (h₀ : ∀ s, M.init s → ∃ t, N.init t ∧ R s t)
    (h : ∀ s l s' t, R s t → M.step s l s' → ∃ k t', N.step t k t' ∧ R s' t') {s : σ}
    (hs : M.Reach ok s) : ∃ t, N.Reachable t ∧ R s t := by
  induction hs with
  | start hi =>
    obtain ⟨t, ht, hr⟩ := h₀ _ hi
    exact ⟨t, .start ht, hr⟩
  | step _ _ hst ih =>
    obtain ⟨t, ht, hr⟩ := ih
    obtain ⟨k, t', hst', hr'⟩ := h _ _ _ t hr hst
    exact ⟨t', .step ht trivial hst', hr'⟩

/-- The guard accepts every step that a function computes along a list of labels. -/
def Accepted (ok : σ → ι → Prop) (next : σ → ι → σ) : σ → List ι → Prop
  | _, [] => True
  | s, l :: ls => ok s l ∧ Accepted ok next (next s l) ls

instance Accepted.decidable {next : σ → ι → σ} [∀ s l, Decidable (ok s l)] :
    ∀ s ls, Decidable (Accepted ok next s ls)
  | _, [] => inferInstanceAs (Decidable True)
  | s, l :: ls => @instDecidableAnd _ _ _ (Accepted.decidable (next s l) ls)

/-- Running a function that computes steps along a list of accepted labels reaches the
state it computes. -/
theorem Reach.foldl {next : σ → ι → σ} (h : ∀ s l, M.step s l (next s l)) {s : σ} {ls : List ι}
    (hs : M.Reach ok s) (hok : Accepted ok next s ls) : M.Reach ok (ls.foldl next s) := by
  induction ls generalizing s with
  | nil => exact hs
  | cons l ls ih => exact ih (.step hs hok.1 (h s l)) hok.2

theorem accepted_append {next : σ → ι → σ} {s : σ} {ls ls' : List ι} :
    Accepted ok next s (ls ++ ls') ↔
      Accepted ok next s ls ∧ Accepted ok next (ls.foldl next s) ls' := by
  induction ls generalizing s with
  | nil => exact (iff_of_eq (true_and _)).symm
  | cons l ls ih => exact (and_congr_right fun _ => ih).trans and_assoc.symm

theorem accepted_of_forall {next : σ → ι → σ} {s : σ} {ls : List ι}
    (h : ∀ l ∈ ls, ∀ s, ok s l) : Accepted ok next s ls := by
  induction ls generalizing s with
  | nil => trivial
  | cons l ls ih =>
    exact ⟨h l List.mem_cons_self s, ih fun l' hl' => h l' (List.mem_cons_of_mem l hl')⟩

/-- The first step of a run that is not accepted. -/
theorem exists_of_not_accepted {next : σ → ι → σ} {s : σ} {ls : List ι}
    (h : ¬ Accepted ok next s ls) :
    ∃ before l after, ls = before ++ l :: after ∧ ¬ ok (before.foldl next s) l := by
  induction ls generalizing s with
  | nil => exact absurd trivial h
  | cons l ls ih =>
    by_cases hok : ok s l
    · obtain ⟨before, l', after, rfl, hnot⟩ := ih fun hls => h ⟨hok, hls⟩
      exact ⟨l :: before, l', after, rfl, hnot⟩
    · exact ⟨[], l, ls, rfl, hok⟩

/-- **A property that exactly the accepted steps keep** holds all along a run if and only if
all its steps are accepted. -/
theorem accepted_iff_forall_take {next : σ → ι → σ} {I : σ → Prop}
    (h : ∀ s l, I s → (I (next s l) ↔ ok s l)) {s : σ} (hs : I s) (ls : List ι) :
    Accepted ok next s ls ↔ ∀ n, I ((ls.take n).foldl next s) := by
  induction ls generalizing s with
  | nil => exact iff_of_true trivial fun n => by simpa using hs
  | cons l ls ih =>
    constructor
    · rintro ⟨hok, hls⟩ n
      cases n with
      | zero => exact hs
      | succ n => exact (ih ((h s l hs).mpr hok)).mp hls n
    · intro hall
      have hnext : I (next s l) := by simpa using hall 1
      exact ⟨(h s l hs).mp hnext, (ih hnext).mpr fun n => hall (n + 1)⟩

/-- A quantity that no accepted step makes smaller does not get smaller along a run. -/
theorem Accepted.le_of_le {β : Type*} [Preorder β] {f : σ → β} {next : σ → ι → σ}
    (h : ∀ s l, ok s l → f s ≤ f (next s l)) {s : σ} {ls : List ι} (hok : Accepted ok next s ls)
    {n m : ℕ} (hnm : n ≤ m) : f ((ls.take n).foldl next s) ≤ f ((ls.take m).foldl next s) := by
  induction ls generalizing s n m with
  | nil => simp
  | cons l ls ih =>
    cases m with
    | zero =>
      obtain rfl := Nat.le_zero.mp hnm
      exact le_rfl
    | succ m =>
      cases n with
      | zero => exact le_trans (h s l hok.1) (ih hok.2 (Nat.zero_le m))
      | succ n => exact ih hok.2 (Nat.le_of_succ_le_succ hnm)

theorem accepted_true (next : σ → ι → σ) (s : σ) (ls : List ι) :
    Accepted (fun _ _ => True) next s ls := by
  induction ls generalizing s with
  | nil => trivial
  | cons l ls ih => exact ⟨trivial, ih (next s l)⟩

theorem reachable_foldl {s₀ : σ} {next : σ → ι → σ} (h₀ : M.init s₀)
    (h : ∀ s l, M.step s l (next s l)) (ls : List ι) : M.Reachable (ls.foldl next s₀) :=
  Reach.foldl h (.start h₀) (accepted_true next s₀ ls)

end System
