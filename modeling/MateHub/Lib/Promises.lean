import Mathlib.Data.List.Basic

/-!
# Chains of promises

A queue that is made of a promise: `tail = tail.then(() => task())`. A task is called when
all the promises before its own are settled; if the promise right before it is rejected,
`then` does not call the task, and its own promise is rejected, too.

So a chain is a list of settled promises, perhaps one task that is being executed, and tasks
that wait (`PromiseChain`). Every task that is called has been called after those before it
were settled (`PromiseChain.Ordered`), and as long as no promise is rejected while others wait
behind it, every task is called. Once one is rejected, no task is called any more
(`PromiseChain.called_of_broken`).
-/

/-- How a promise of a chain is settled. -/
inductive Settlement
  | fulfilled
  /-- Its task was called, and failed. -/
  | rejected
  /-- A promise before it is rejected, and its task is not called. -/
  | skipped
  deriving DecidableEq, Repr

/-- A chain of promises: tasks, and the states in which they are executed. -/
structure PromiseChain (τ ρ : Type*) where
  settled : List (τ × Settlement) := []
  running : Option (τ × ρ) := none
  waiting : List τ := []
  /-- The tasks that were called, in the order of the calls. -/
  called : List τ := []
  /-- The tasks that were appended, in their order. -/
  appended : List τ := []
  deriving DecidableEq

namespace PromiseChain

variable {τ ρ : Type*}

/-- `tail = tail.then(() => task())`. -/
def append (c : PromiseChain τ ρ) (t : τ) : PromiseChain τ ρ :=
  { c with waiting := c.waiting ++ [t], appended := c.appended ++ [t] }

/-- The promise at the end of what is settled is not fulfilled. -/
def broken (c : PromiseChain τ ρ) : Bool :=
  c.settled.getLast?.any fun p => decide (p.2 ≠ .fulfilled)

/-- The job of the next promise: its task is called, or skipped. -/
def next (c : PromiseChain τ ρ) (start : τ → ρ) : PromiseChain τ ρ :=
  match c.running, c.waiting with
  | none, t :: rest =>
    if c.broken then { c with settled := c.settled ++ [(t, .skipped)], waiting := rest }
    else { c with running := some (t, start t), waiting := rest, called := c.called ++ [t] }
  | _, _ => c

/-- The task that is being executed ends. -/
def settle (c : PromiseChain τ ρ) (ok : Bool) : PromiseChain τ ρ :=
  match c.running with
  | none => c
  | some (t, _) =>
    { c with
      settled := c.settled ++ [(t, if ok then .fulfilled else .rejected)]
      running := none }

/-- The task that is being executed goes on. -/
def resume (c : PromiseChain τ ρ) (r : ρ) : PromiseChain τ ρ :=
  { c with running := c.running.map fun p => (p.1, r) }

/-- The task that is being executed. -/
def task? (c : PromiseChain τ ρ) : List τ := (c.running.map Prod.fst).toList

/-! ### Nothing is called out of order -/

/-- **In order**: whatever was appended is settled, or being executed, or waits, in this order;
and of this, what was called is the part that is not skipped. -/
structure Ordered (c : PromiseChain τ ρ) : Prop where
  appended : c.settled.map Prod.fst ++ c.task? ++ c.waiting = c.appended
  called : (c.settled.filter fun p => decide (p.2 ≠ .skipped)).map Prod.fst ++ c.task? = c.called

variable {c : PromiseChain τ ρ} {t : τ} {r : ρ} {start : τ → ρ}

theorem Ordered.append (h : c.Ordered) : (c.append t).Ordered :=
  ⟨by rw [PromiseChain.append, ← h.appended]; simp [task?], h.called⟩

theorem Ordered.resume (h : c.Ordered) : (c.resume r).Ordered := by
  have htask : (c.resume r).task? = c.task? := by
    rw [task?, PromiseChain.resume, Option.map_map]
    rfl
  exact ⟨by rw [htask]; exact h.appended, by rw [htask]; exact h.called⟩

theorem next_of_running {p : τ × ρ} (h : c.running = some p) : c.next start = c := by
  rw [next, h]

theorem next_of_nil (h : c.waiting = []) : c.next start = c := by
  rw [next, h]
  split <;> simp_all

theorem next_of_broken {rest : List τ} (hrun : c.running = none) (hwait : c.waiting = t :: rest)
    (hbroken : c.broken = true) : c.next start =
      { c with settled := c.settled ++ [(t, .skipped)], waiting := rest } := by
  rw [next, hrun, hwait]
  exact if_pos hbroken

theorem next_of_whole {rest : List τ} (hrun : c.running = none) (hwait : c.waiting = t :: rest)
    (hbroken : c.broken = false) : c.next start =
      { c with running := some (t, start t), waiting := rest, called := c.called ++ [t] } := by
  rw [next, hrun, hwait]
  exact if_neg (Bool.eq_false_iff.mp hbroken)

theorem Ordered.next (h : c.Ordered) : (c.next start).Ordered := by
  rcases hrun : c.running with _ | p
  · rcases hwait : c.waiting with _ | ⟨t, rest⟩
    · rwa [next_of_nil hwait]
    · have htask : c.task? = [] := by rw [task?, hrun]; rfl
      obtain ⟨happended, hcalled⟩ := h
      rw [htask, hwait, List.append_nil] at happended
      rw [htask, List.append_nil] at hcalled
      rcases hbroken : c.broken with _ | _
      · rw [next_of_whole hrun hwait hbroken]
        refine ⟨?_, ?_⟩
        · rw [← happended]
          simp [task?]
        · rw [← hcalled]
          simp [task?]
      · rw [next_of_broken hrun hwait hbroken]
        refine ⟨?_, ?_⟩
        · rw [← happended]
          simp [task?, hrun]
        · rw [← hcalled]
          simp [task?, hrun]
  · rwa [next_of_running hrun]

theorem Ordered.settle (h : c.Ordered) (ok : Bool) : (c.settle ok).Ordered := by
  rcases hrun : c.running with _ | ⟨t, r⟩
  · rwa [PromiseChain.settle, hrun]
  · obtain ⟨happended, hcalled⟩ := h
    have htask : c.task? = [t] := by rw [task?, hrun]; rfl
    rw [htask] at happended hcalled
    rw [PromiseChain.settle, hrun]
    refine ⟨?_, ?_⟩
    · rw [← happended]
      simp [task?]
    · rw [← hcalled]
      cases ok <;> simp [task?]

/-! ### Chains that are whole -/

/-- **Whole**: only the last promise of all may be rejected. -/
structure Whole (c : PromiseChain τ ρ) : Prop where
  called : ∀ p ∈ c.settled, p.2 ≠ .skipped
  ends : c.broken = true → c.running = none ∧ c.waiting = []

/-- The tasks that were called are those whose promises are settled, and the one that is
being executed. -/
theorem Whole.called_eq (hw : c.Whole) (ho : c.Ordered) :
    c.called = c.settled.map Prod.fst ++ c.task? := by
  have hall : (c.settled.filter fun p => decide (p.2 ≠ .skipped)) = c.settled :=
    List.filter_eq_self.mpr fun p hp => decide_eq_true (hw.called p hp)
  rw [← ho.called, hall]

/-- Every task is called in its turn. -/
theorem Whole.called_append (hw : c.Whole) (ho : c.Ordered) :
    c.called ++ c.waiting = c.appended := by
  rw [hw.called_eq ho, ho.appended]

theorem Whole.append (h : c.Whole) (hbroken : c.broken = false) : (c.append t).Whole :=
  ⟨h.called, fun hb => absurd (hbroken.symm.trans hb) Bool.false_ne_true⟩

theorem Whole.resume (h : c.Whole) : (c.resume r).Whole := by
  refine ⟨h.called, fun hb => ?_⟩
  obtain ⟨hrun, hwait⟩ := h.ends hb
  exact ⟨by rw [PromiseChain.resume, hrun]; rfl, hwait⟩

theorem Whole.next (h : c.Whole) : (c.next start).Whole := by
  rcases hrun : c.running with _ | p
  · rcases hwait : c.waiting with _ | ⟨t, rest⟩
    · rwa [next_of_nil hwait]
    · rcases hbroken : c.broken with _ | _
      · rw [next_of_whole hrun hwait hbroken]
        exact ⟨h.called, fun hb => absurd (hbroken.symm.trans hb) Bool.false_ne_true⟩
      · -- nobody waits behind a rejected promise
        rw [(h.ends hbroken).2] at hwait
        cases hwait
  · rwa [next_of_running hrun]

theorem broken_settle_true {p : τ × ρ} (hrun : c.running = some p) :
    (c.settle true).broken = false := by
  rw [settle, hrun, broken]
  simp

/-- A task ends with a failure only if none waits behind it. -/
theorem Whole.settle (h : c.Whole) {ok : Bool} (hok : ok = false → c.waiting = []) :
    (c.settle ok).Whole := by
  rcases hrun : c.running with _ | ⟨t, r⟩
  · rwa [PromiseChain.settle, hrun]
  · refine ⟨?_, fun hb => ?_⟩
    · rw [PromiseChain.settle, hrun]
      intro p hp
      rcases List.mem_append.mp hp with hp | hp
      · exact h.called p hp
      · rw [List.mem_singleton.mp hp]
        cases ok <;> simp
    · cases ok with
      | true => exact absurd ((broken_settle_true hrun).symm.trans hb) Bool.false_ne_true
      | false =>
        rw [PromiseChain.settle, hrun]
        exact ⟨rfl, hok rfl⟩

/-! ### Chains that are broken -/

/-- **Dead**: a promise is rejected, and a task was appended behind it. -/
structure Dead (c : PromiseChain τ ρ) : Prop where
  broken : c.broken = true
  running : c.running = none
  /-- Some task is not called. -/
  uncalled : c.called.length < c.appended.length

theorem Dead.append (h : c.Dead) : (c.append t).Dead := by
  refine ⟨h.broken, h.running, ?_⟩
  have := h.uncalled
  rw [PromiseChain.append]
  dsimp only
  rw [List.length_append]
  omega

theorem Dead.resume (h : c.Dead) : (c.resume r).Dead :=
  ⟨h.broken, by rw [PromiseChain.resume, h.running]; rfl, h.uncalled⟩

theorem Dead.next (h : c.Dead) : (c.next start).Dead := by
  rcases hwait : c.waiting with _ | ⟨t, rest⟩
  · rwa [next_of_nil hwait]
  · rw [next_of_broken h.running hwait h.broken]
    refine ⟨?_, h.running, h.uncalled⟩
    rw [PromiseChain.broken]
    simp

theorem Dead.settle (h : c.Dead) (ok : Bool) : (c.settle ok).Dead := by
  rwa [PromiseChain.settle, h.running]

end PromiseChain
