import Mathlib.Data.List.Basic

/-!
# Iterating with a cursor

A server hands out its keys in batches. A call carries a cursor, and the reply has a batch and
the cursor of the next call; an iteration begins at cursor 0 and ends with a reply whose cursor
is 0. Others may change the keys between the calls, so the reply depends on when the call comes.

What a server promises is about whole iterations (`Cursor.Iteration`), and not about calls.
So the loop that collects the batches (`Cursor.collect`) has the promise exactly because it makes
an iteration (`Cursor.exists_iteration_of_collect`): it passes each cursor on and stops at 0
only.
-/

namespace Cursor

variable {α : Type*}

/-- A batch, and the cursor from which to go on. -/
structure Reply (α : Type*) where
  next : ℕ
  batch : List α

/-- The calls from `t` on, the first with cursor `c`, end before `t'` with a cursor of 0; these
are the keys of their batches. -/
inductive Iteration (reply : ℕ → ℕ → Option (Reply α)) : ℕ → ℕ → ℕ → List α → Prop
  | last {t c : ℕ} {batch : List α} (h : reply t c = some ⟨0, batch⟩) :
    Iteration reply t c (t + 1) batch
  | more {t c n t' : ℕ} {batch keys : List α} (h : reply t c = some ⟨n, batch⟩) (hn : n ≠ 0)
    (hrest : Iteration reply (t + 1) n t' keys) : Iteration reply t c t' (batch ++ keys)

/-- How the loop ends, if it does with the fuel that it has. -/
inductive Outcome (α : Type*)
  | unfinished
  /-- The call at `t` has failed. -/
  | failed (t : ℕ)
  /-- The loop has ended before `t`. -/
  | done (t : ℕ) (keys : List α)

/-- The loop: `out` is what it has already. -/
def collect (reply : ℕ → ℕ → Option (Reply α)) : ℕ → ℕ → ℕ → List α → Outcome α
  | 0, _, _, _ => .unfinished
  | fuel + 1, t, c, out =>
    match reply t c with
    | none => .failed t
    | some ⟨next, batch⟩ =>
      if next = 0 then .done (t + 1) (out ++ batch)
      else collect reply fuel (t + 1) next (out ++ batch)

variable {reply : ℕ → ℕ → Option (Reply α)} {fuel t c t' : ℕ} {out keys : List α}

theorem Iteration.lt (h : Iteration reply t c t' keys) : t < t' := by
  induction h with
  | last h => exact Nat.lt_succ_self _
  | more h hn hrest ih => omega

/-- What an iteration has found was in the batch of one of its calls. -/
theorem Iteration.exists_reply (h : Iteration reply t c t' keys) {k : α} (hk : k ∈ keys) :
    ∃ i c r, t ≤ i ∧ i < t' ∧ reply i c = some r ∧ k ∈ r.batch := by
  induction h with
  | last h => exact ⟨_, _, _, Nat.le_refl _, Nat.lt_succ_self _, h, hk⟩
  | more h hn hrest ih =>
    have hlt := hrest.lt
    rcases List.mem_append.mp hk with hbatch | hkeys
    · exact ⟨_, _, _, Nat.le_refl _, by omega, h, hbatch⟩
    · obtain ⟨i, c, r, hi, hi', hr, hmem⟩ := ih hkeys
      exact ⟨i, c, r, by omega, hi', hr, hmem⟩

/-- With fuel for its calls, the loop makes the iteration. -/
theorem Iteration.collect (h : Iteration reply t c t' keys) (hfuel : t' ≤ t + fuel)
    (out : List α) : collect reply fuel t c out = .done t' (out ++ keys) := by
  induction h generalizing fuel out with
  | last h =>
    obtain ⟨fuel, rfl⟩ : ∃ n, fuel = n + 1 := ⟨fuel - 1, by omega⟩
    rw [Cursor.collect, h]
    exact if_pos rfl
  | more h hn hrest ih =>
    have hlt := hrest.lt
    obtain ⟨fuel, rfl⟩ : ∃ n, fuel = n + 1 := ⟨fuel - 1, by omega⟩
    rw [Cursor.collect, h]
    dsimp only
    rw [if_neg hn, ih (by omega), List.append_assoc]

/-- **The loop makes an iteration.** -/
theorem exists_iteration_of_collect (h : collect reply fuel t c out = .done t' keys) :
    ∃ found, keys = out ++ found ∧ Iteration reply t c t' found := by
  induction fuel generalizing t c out with
  | zero => cases h
  | succ fuel ih =>
    rw [collect] at h
    rcases hr : reply t c with _ | ⟨next, batch⟩
    · rw [hr] at h
      cases h
    · rw [hr] at h
      dsimp only at h
      split at h
      · rename_i hnext
        obtain ⟨rfl, rfl⟩ := Outcome.done.inj h
        exact ⟨batch, rfl, .last (hnext ▸ hr)⟩
      · rename_i hnext
        obtain ⟨found, rfl, hfound⟩ := ih h
        exact ⟨batch ++ found, List.append_assoc _ _ _, .more hr hnext hfound⟩

end Cursor
