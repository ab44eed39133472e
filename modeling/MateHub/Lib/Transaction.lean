import Mathlib.Logic.Basic

/-!
# Handlers that commit

A handler answers a request in steps, each of which may fail: because of what it finds, or
because a fault strikes it. Some of the steps run in a transaction, on a copy of the state
that takes the place of the state with the commit and is dropped if the handler returns
before. A commit may be carried out and its answer be lost, and then the handler takes it for
one that has failed. The other steps work on the state itself.

What runs in a transaction is a `Transaction.Body`, and a `Transaction.Handler` has such
bodies and steps of its own. A handler is all or nothing where its errors leave the state as
it was. One that commits once, and whose other steps only read, is so unless the answer of the
commit is lost, or it fails after the commit of something
(`Transaction.Handler.atomic_iff`).
-/

namespace Transaction

variable {π ε σ α β : Type}

/-- What runs in a transaction, under the faults that strike: an error, or a result and the
copy of the state. -/
def Body (π ε σ α : Type) : Type := (π → Bool) → σ → Except ε (α × σ)

/-- What a handler does under the faults that strike: its answer, and the state. -/
def Handler (π ε σ α : Type) : Type := (π → Bool) → σ → Except ε α × σ

/-! ### In a transaction -/

namespace Body

instance : Monad (Body π ε σ) where
  pure a := fun _ s => .ok (a, s)
  bind x f := fun faults s => (x faults s).bind fun r => f r.1 faults r.2

/-- A statement, which a fault may strike. -/
def statement (p : π) (e : ε) (f : σ → Except ε (α × σ)) : Body π ε σ α := fun faults s =>
  if faults p then .error e else f s

/-- A step that leaves the state alone. -/
def step (p : π) (e : ε) : Body π ε σ Unit := statement p e fun s => .ok ((), s)

/-- A condition on the state without which the request is refused. -/
def query (p : π) (e : ε) (c : σ → Bool) (refusal : ε) : Body π ε σ Unit :=
  statement p e fun s => if c s then .ok ((), s) else .error refusal

variable {faults : π → Bool} {s : σ} {r : β × σ} {p : π} {e refusal : ε}

theorem pure_eq_ok {b : β} : (pure b : Body π ε σ β) faults s = .ok r ↔ r = (b, s) := by
  constructor
  · intro h
    exact (Except.ok.inj h).symm
  · rintro rfl
    rfl

theorem bind_eq_ok {x : Body π ε σ α} {f : α → Body π ε σ β} :
    (x >>= f) faults s = .ok r ↔ ∃ a t, x faults s = .ok (a, t) ∧ f a faults t = .ok r := by
  change ((x faults s).bind fun r => f r.1 faults r.2) = .ok r ↔ _
  rcases x faults s with e | ⟨a, t⟩
  · simp [Except.bind]
  · constructor
    · intro h
      exact ⟨a, t, rfl, h⟩
    · rintro ⟨a', t', heq, h⟩
      obtain ⟨rfl, rfl⟩ := Prod.mk.inj (Except.ok.inj heq)
      exact h

theorem statement_eq_ok {f : σ → Except ε (β × σ)} :
    statement p e f faults s = .ok r ↔ faults p = false ∧ f s = .ok r := by
  rw [statement]
  cases faults p <;> simp

theorem step_eq_ok {r : Unit × σ} :
    step p e faults s = .ok r ↔ faults p = false ∧ r = ((), s) := by
  rw [step, statement_eq_ok, Except.ok.injEq, @eq_comm _ r]

theorem query_eq_ok {c : σ → Bool} {r : Unit × σ} :
    query p e c refusal faults s = .ok r ↔ faults p = false ∧ c s = true ∧ r = ((), s) := by
  rw [query, statement_eq_ok, @eq_comm _ r]
  cases c s <;> simp

end Body

/-! ### Around the transaction -/

namespace Handler

/-- One part after another, where the first one has a result. -/
def bind (x : Handler π ε σ α) (f : α → Handler π ε σ β) : Handler π ε σ β := fun faults s =>
  match x faults s with
  | (.error e, t) => (.error e, t)
  | (.ok a, t) => f a faults t

instance : Monad (Handler π ε σ) where
  pure a := fun _ s => (.ok a, s)
  bind := bind

/-- A request that is refused. -/
def refuse (e : ε) : Handler π ε σ α := fun _ s => (.error e, s)

/-- A transaction, which is dropped if its body returns an error, or if the commit fails; the
answer of a commit that has been carried out may be lost. -/
def transaction (start commit answer : π) (e : ε) (body : Body π ε σ α) : Handler π ε σ α :=
  fun faults s =>
    if faults start then (.error e, s)
    else match body faults s with
      | .error e' => (.error e', s)
      | .ok (a, t) =>
        if faults commit then (.error e, s)
        else if faults answer then (.error e, t)
        else (.ok a, t)

/-- A step that reads. -/
def read (p : π) (e : ε) (f : σ → Option α) : Handler π ε σ α := fun faults s =>
  if faults p then (.error e, s)
  else match f s with
    | none => (.error e, s)
    | some a => (.ok a, s)

/-- A step that leaves the state alone. -/
def step (p : π) (e : ε) : Handler π ε σ Unit := read p e fun _ => some ()

/-- A handler only reads. -/
def Keeps (h : Handler π ε σ α) : Prop := ∀ faults s, (h faults s).2 = s

/-- A handler answers with an error. -/
def Fails (h : Handler π ε σ α) (faults : π → Bool) (s : σ) : Prop :=
  ∃ e, (h faults s).1 = .error e

/-- A body comes to its end, and its commit goes through. -/
def Commits (start commit : π) (body : Body π ε σ α) (faults : π → Bool) (s : σ) (a : α) (t : σ) :
    Prop :=
  faults start = false ∧ body faults s = .ok (a, t) ∧ faults commit = false

variable {faults : π → Bool} {s t : σ} {p start commit answer : π} {e : ε}

theorem keeps_pure (a : α) : Keeps (pure a : Handler π ε σ α) := fun _ _ => rfl

theorem keeps_read (f : σ → Option α) : Keeps (read p e f) := by
  intro faults s
  rw [read]
  split
  · rfl
  · split <;> rfl

theorem keeps_step : Keeps (step p e : Handler π ε σ Unit) := keeps_read _

theorem bind_of_error {x : Handler π ε σ α} {f : α → Handler π ε σ β}
    (h : x faults s = (.error e, t)) : (x >>= f) faults s = (.error e, t) := by
  change x.bind f faults s = _
  rw [bind, h]

theorem bind_of_ok {x : Handler π ε σ α} {f : α → Handler π ε σ β} {a : α}
    (h : x faults s = (.ok a, t)) : (x >>= f) faults s = f a faults t := by
  change x.bind f faults s = _
  rw [bind, h]

theorem Keeps.bind {x : Handler π ε σ α} {f : α → Handler π ε σ β} (hx : x.Keeps)
    (hf : ∀ a, (f a).Keeps) : (x >>= f).Keeps := by
  intro faults s
  have hs := hx faults s
  rcases h : x faults s with ⟨e | a, t⟩
  · rw [h] at hs
    rw [bind_of_error h]
    exact hs
  · rw [h] at hs
    rw [bind_of_ok h]
    exact (hf a faults t).trans hs

theorem not_fails_pure (a : α) : ¬Fails (pure a : Handler π ε σ α) faults s :=
  fun ⟨_, h⟩ => nomatch h

theorem fails_read {f : σ → Option α} :
    Fails (read p e f) faults s ↔ faults p = true ∨ f s = none := by
  rw [Fails, read]
  cases faults p
  · rcases f s with _ | a <;> simp
  · simp

/-- **A sequence of steps fails** in the first part, or in the second. -/
theorem fails_bind {x : Handler π ε σ α} {f : α → Handler π ε σ β} :
    Fails (x >>= f) faults s ↔
      Fails x faults s ∨ ∃ a t, x faults s = (.ok a, t) ∧ Fails (f a) faults t := by
  rw [Fails, Fails]
  rcases h : x faults s with ⟨e | a, t⟩
  · rw [bind_of_error h]
    simp
  · rw [bind_of_ok h]
    constructor
    · intro hf
      exact .inr ⟨a, t, rfl, hf⟩
    · rintro (⟨e, he⟩ | ⟨a', t', heq, hf⟩)
      · cases he
      · obtain ⟨ha, rfl⟩ := Prod.mk.inj heq
        obtain rfl := Except.ok.inj ha
        exact hf

theorem fails_read_bind {g : σ → Option α} {f : α → Handler π ε σ β} :
    Fails (read p e g >>= f) faults s ↔
      faults p = true ∨ g s = none ∨ ∃ a, g s = some a ∧ Fails (f a) faults s := by
  rw [fails_bind, fails_read, or_assoc]
  rcases hfault : faults p with _ | _
  · rcases hread : g s with _ | a
    · simp
    · have hok : (read p e g : Handler π ε σ α) faults s = (.ok a, s) := by
        rw [read, hfault, hread]
        rfl
      rw [hok]
      constructor
      · rintro (h | h | ⟨a', t, heq, hf⟩)
        · cases h
        · cases h
        · obtain ⟨ha, rfl⟩ := Prod.mk.inj heq
          exact .inr (.inr ⟨a', congrArg _ (Except.ok.inj ha), hf⟩)
      · rintro (h | h | ⟨a', ha, hf⟩)
        · cases h
        · cases h
        · exact .inr (.inr ⟨a', s, by rw [Option.some.inj ha], hf⟩)
  · simp

theorem fails_step_bind {f : Unit → Handler π ε σ β} :
    Fails (step p e >>= f) faults s ↔ faults p = true ∨ Fails (f ()) faults s := by
  rw [step, fails_read_bind]
  refine or_congr_right ⟨?_, fun h => .inr ⟨(), rfl, h⟩⟩
  rintro (h | ⟨_, -, h⟩)
  · cases h
  · exact h

/-- A transaction that commits is answered, or its answer is lost. -/
theorem transaction_of_commits {body : Body π ε σ α} {a : α}
    (h : Commits start commit body faults s a t) :
    transaction start commit answer e body faults s =
      if faults answer then (.error e, t) else (.ok a, t) := by
  obtain ⟨hstart, hbody, hcommit⟩ := h
  rw [transaction, hstart, hbody, hcommit]
  rfl

/-- The state after a transaction that commits, whether it is answered or not. -/
theorem state_of_commits {body : Body π ε σ α} {a : α}
    (h : Commits start commit body faults s a t) :
    (transaction start commit answer e body faults s).2 = t := by
  rw [transaction_of_commits h]
  split <;> rfl

/-- **A transaction is dropped**, or it commits. -/
theorem transaction_cases (start commit answer : π) (e : ε) (body : Body π ε σ α)
    (faults : π → Bool) (s : σ) :
    (∃ e', transaction start commit answer e body faults s = (.error e', s)) ∨
      ∃ a t, Commits start commit body faults s a t := by
  rcases hstart : faults start with _ | _
  · rcases hbody : body faults s with e' | ⟨a, t⟩
    · refine .inl ⟨e', ?_⟩
      rw [transaction, hstart, hbody]
      rfl
    · rcases hcommit : faults commit with _ | _
      · exact .inr ⟨a, t, hstart, hbody, hcommit⟩
      · refine .inl ⟨e, ?_⟩
        rw [transaction, hstart, hbody, hcommit]
        rfl
  · refine .inl ⟨e, ?_⟩
    rw [transaction, hstart]
    rfl

section Once

variable {body : Body π ε σ α} {after : α → Handler π ε σ β}

/-- **After the commit**, the answer of the commit is one more step that may fail. -/
theorem once_of_commits {a : α} (h : Commits start commit body faults s a t) :
    (transaction start commit answer e body >>= after) faults s =
      (step answer e >>= fun _ => after a) faults t := by
  have htransaction : transaction start commit answer e body faults s = _ :=
    transaction_of_commits h
  cases hanswer : faults answer
  · have hstep : step answer e faults t = (.ok (), t) := by
      rw [step, read, hanswer]
      rfl
    rw [hanswer] at htransaction
    rw [bind_of_ok htransaction, bind_of_ok hstep]
  · have hstep : step answer e faults t = (.error e, t) := by
      rw [step, read, hanswer]
      rfl
    rw [hanswer] at htransaction
    rw [bind_of_error htransaction, bind_of_error hstep]

/-- The state after a handler that commits once. -/
theorem once_cases (hafter : ∀ a, (after a).Keeps) (faults : π → Bool) (s : σ) :
    ((transaction start commit answer e body >>= after) faults s).2 = s ∨
      ∃ a t, Commits start commit body faults s a t ∧
        ((transaction start commit answer e body >>= after) faults s).2 = t := by
  rcases transaction_cases start commit answer e body faults s with ⟨e', h⟩ | ⟨a, t, h⟩
  · left
    rw [bind_of_error h]
  · right
    refine ⟨a, t, h, ?_⟩
    rw [once_of_commits h]
    exact keeps_step.bind (fun _ => hafter a) faults t

/-- **A handler that commits once is all or nothing** unless it fails after a commit that has
changed what one looks at, be it by the loss of the commit's answer. -/
theorem atomic_iff {R : σ → Prop} (hs : R s) (hafter : ∀ a, (after a).Keeps) :
    (Fails (transaction start commit answer e body >>= after) faults s →
        R ((transaction start commit answer e body >>= after) faults s).2) ↔
      ∀ a t, Commits start commit body faults s a t →
        faults answer = true ∨ Fails (after a) faults t → R t := by
  have hlate (a : α) (t : σ) : Fails (step answer e >>= fun _ => after a) faults t ↔
      faults answer = true ∨ Fails (after a) faults t := fails_step_bind
  constructor
  · intro h a t hcommits hfails
    have hstate : ((transaction start commit answer e body >>= after) faults s).2 = t := by
      rw [once_of_commits hcommits]
      exact keeps_step.bind (fun _ => hafter a) faults t
    rw [← hstate]
    refine h ?_
    rw [Fails, once_of_commits hcommits]
    exact (hlate a t).mpr hfails
  · intro h hfails
    rcases once_cases hafter faults s with hstate | ⟨a, t, hcommits, hstate⟩
    · rw [hstate]
      exact hs
    · rw [hstate]
      refine h a t hcommits ?_
      rw [Fails, once_of_commits hcommits] at hfails
      exact (hlate a t).mp hfails

end Once

end Handler

end Transaction
