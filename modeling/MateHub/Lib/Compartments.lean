import Mathlib.Data.List.Forall2
import MateHub.Lib.Runs

/-!
# Compartments

The state of a server falls into compartments – rooms, sessions, tenants –, and most of what it
does it does in one of them. Here `part k s` is the state `s` with the compartment `k` alone. An
operation is **confined** to a compartment (`Compartment.Confined`) if it does there what it would
do if there were no other, and nothing elsewhere. Loops of confined operations fall apart into
one loop for each compartment (`Compartment.part_foldl`).

If every step of a system is seen by a view of its state as a step of another system, or not seen
at all, then so is every run, with the very steps that are seen
(`System.Traced.unwind`).
-/

namespace Compartment

variable {σ κ α : Type*} {part : κ → σ → σ} {k : κ} {s : σ}

/-- **An operation that is confined to a compartment**, at a state. -/
structure Confined (part : κ → σ → σ) (k : κ) (f : σ → σ) (s : σ) : Prop where
  own : part k (f s) = f (part k s)
  other : ∀ k', k' ≠ k → part k' (f s) = part k' s

namespace Confined

variable {f g : σ → σ}

theorem id : Confined part k (fun s => s) s := ⟨rfl, fun _ _ => rfl⟩

theorem comp (hf : Confined part k f s) (hg : Confined part k g (f s)) :
    Confined part k (fun s => g (f s)) s where
  own := by rw [hg.own, hf.own]
  other k' hne := (hg.other k' hne).trans (hf.other k' hne)

/-- Two operations that do the same here, and in the compartment alone. -/
theorem congr (hg : Confined part k g s) (h : f s = g s) (hpart : f (part k s) = g (part k s)) :
    Confined part k f s where
  own := by rw [h, hg.own, hpart]
  other k' hne := by rw [h, hg.other k' hne]

/-- What an operation reads is the same in the compartment alone. -/
theorem read {ρ : Type*} {r : σ → ρ} {x : ρ} (hx : r s = x) (hr : r (part k s) = r s)
    (h : ∀ t, r t = x → f t = g t) (hg : Confined part k g s) : Confined part k f s :=
  hg.congr (h s hx) (h _ (hr.trans hx))

/-- **A loop in one compartment.** -/
theorem foldl (part : κ → σ → σ) {k : κ} {f : σ → α → σ} {I : σ → Prop} {l : List α}
    (h : ∀ s, I s → ∀ a ∈ l, Confined part k (fun s => f s a) s ∧ I (f s a)) (hs : I s) :
    Confined part k (fun s => l.foldl f s) s := by
  induction l generalizing s with
  | nil => exact id
  | cons a l ih =>
    obtain ⟨ha, hnext⟩ := h s hs a List.mem_cons_self
    have hl := ih (fun s hs b hb => h s hs b (List.mem_cons_of_mem a hb)) hnext
    exact ha.comp (g := fun s => l.foldl f s) hl

end Confined

/-- **A loop whose turns are confined**, each to a compartment of its own: in one compartment, it
is the loop of the turns there. -/
theorem part_foldl [DecidableEq κ] (part : κ → σ → σ) {k : κ} (key : α → κ) {f : σ → α → σ}
    {I : σ → Prop} {l : List α}
    (h : ∀ s, I s → ∀ a ∈ l, Confined part (key a) (fun s => f s a) s ∧ I (f s a)) (hs : I s) :
    part k (l.foldl f s) = (l.filter fun a => key a = k).foldl f (part k s) := by
  induction l generalizing s with
  | nil => rfl
  | cons a l ih =>
    obtain ⟨ha, hnext⟩ := h s hs a List.mem_cons_self
    have hl := ih (fun s hs b hb => h s hs b (List.mem_cons_of_mem a hb)) hnext
    rw [List.foldl_cons, hl]
    by_cases hk : key a = k
    · subst hk
      rw [ha.own, List.filter_cons, if_pos (decide_eq_true rfl)]
      rfl
    · rw [ha.other k (Ne.symm hk), List.filter_cons, if_neg (by simpa using hk)]

/-- What is collected in a compartment is collected from it. -/
theorem filter_flatMap {β : Type*} {f : α → List β} {p : α → Bool} {q : β → Bool}
    (h : ∀ a, ∀ b ∈ f a, q b = p a) (l : List α) :
    (l.flatMap f).filter q = (l.filter p).flatMap f := by
  induction l with
  | nil => rfl
  | cons a l ih =>
    rw [List.flatMap_cons, List.filter_append, ih, List.filter_cons]
    cases ha : p a with
    | true =>
      rw [if_pos rfl, List.flatMap_cons, List.filter_eq_self.mpr fun b hb => (h a b hb).trans ha]
    | false =>
      have hnone : (f a).filter q = [] := by
        rw [List.filter_eq_nil_iff]
        exact fun b hb => Bool.eq_false_iff.mp ((h a b hb).trans ha)
      rw [if_neg Bool.false_ne_true, hnone, List.nil_append]

/-- **An operation that is confined to a compartment and has a result**, which is the same in the
compartment alone. -/
structure Answers (part : κ → σ → σ) (k : κ) (f : σ → σ × α) (s : σ) : Prop where
  confined : Confined part k (fun s => (f s).1) s
  same : (f (part k s)).2 = (f s).2

namespace Answers

variable {f g : σ → σ × α}

theorem pure {f : σ → σ} (h : Confined part k f s) (a : α) :
    Answers part k (fun s => (f s, a)) s := ⟨h, rfl⟩

theorem after {e : σ → σ} (he : Confined part k e s) (hf : Answers part k f (e s)) :
    Answers part k (fun s => f (e s)) s where
  confined := he.comp (g := fun s => (f s).1) hf.confined
  same := by
    rw [← he.own]
    exact hf.same

theorem read {ρ : Type*} {r : σ → ρ} {x : ρ} (hx : r s = x) (hr : r (part k s) = r s)
    (h : ∀ t, r t = x → f t = g t) (hg : Answers part k g s) : Answers part k f s where
  confined := hg.confined.read hx hr fun t ht => congrArg Prod.fst (h t ht)
  same := by rw [h s hx, h _ (hr.trans hx), hg.same]

/-- What is done with the result. -/
theorem bind {e : α → σ → σ} (hf : Answers part k f s)
    (he : Confined part k (e (f s).2) (f s).1) : Confined part k (fun s => e (f s).2 (f s).1) s :=
  (hf.confined.comp (g := e (f s).2) he).congr rfl (by rw [hf.same])

end Answers

end Compartment

/-! ### Runs that are seen in part -/

namespace System

variable {σ ι τ κ : Type*} {M : System σ ι} {N : System τ κ} {ok : σ → ι → Prop}

/-- The states that are reached, with the labels of the steps that are taken. -/
inductive Traced (M : System σ ι) (ok : σ → ι → Prop) : List ι → σ → Prop
  | start {s : σ} : M.init s → Traced M ok [] s
  | step {ls : List ι} {s t : σ} {l : ι} : Traced M ok ls s → ok s l → M.step s l t →
      Traced M ok (ls ++ [l]) t

/-- A function that computes steps, along a list of accepted labels. -/
theorem Traced.foldl {next : σ → ι → σ} (h : ∀ s l, M.step s l (next s l)) {s : σ}
    {ls ls' : List ι} (hs : M.Traced ok ls s) (hok : Accepted ok next s ls') :
    M.Traced ok (ls ++ ls') (ls'.foldl next s) := by
  induction ls' generalizing s ls with
  | nil => simpa using hs
  | cons l ls' ih =>
    have hrest := ih (.step hs hok.1 (h s l)) hok.2
    rwa [List.append_assoc] at hrest

/-- **Unwinding**: where the view of every step is a step under a like label, or no step at all,
the view of every run is a run, under labels like those that are seen. -/
theorem Traced.unwind {view : σ → τ} {sees : ι → Bool} {R : ι → κ → Prop} {I : σ → Prop}
    (h₀ : ∀ s, M.init s → I s ∧ N.init (view s))
    (hkept : ∀ s l t, I s → ok s l → M.step s l t → I t)
    (hseen : ∀ s l t, I s → ok s l → M.step s l t → sees l = true →
      ∃ l', R l l' ∧ N.step (view s) l' (view t))
    (hunseen : ∀ s l t, I s → ok s l → M.step s l t → sees l = false → view t = view s)
    {ls : List ι} {s : σ} (hs : M.Traced ok ls s) :
    ∃ ls', N.Traced (fun _ _ => True) ls' (view s) ∧ List.Forall₂ R (ls.filter sees) ls' := by
  refine And.right (a := I s) ?_
  induction hs with
  | start hi =>
    obtain ⟨hI, hview⟩ := h₀ _ hi
    exact ⟨hI, [], .start hview, .nil⟩
  | @step ls s t l _ hok hst ih =>
    obtain ⟨hI, ls', htraced, hlike⟩ := ih
    refine ⟨hkept s l t hI hok hst, ?_⟩
    rw [List.filter_append]
    cases hsees : sees l with
    | true =>
      obtain ⟨l', hl, hstep⟩ := hseen s l t hI hok hst hsees
      refine ⟨ls' ++ [l'], .step htraced trivial hstep, ?_⟩
      rw [List.filter_cons, if_pos hsees]
      exact List.rel_append hlike (.cons hl .nil)
    | false =>
      refine ⟨ls', ?_, ?_⟩
      · rw [hunseen s l t hI hok hst hsees]
        exact htraced
      · rw [List.filter_cons, if_neg (by rw [hsees]; exact Bool.false_ne_true)]
        simpa using hlike

end System
