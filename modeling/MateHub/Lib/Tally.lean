import Mathlib.Data.Int.Notation
import Mathlib.Data.Nat.Notation
import Mathlib.Logic.Function.Basic

/-!
# Counters that expire

A store of counters, as Redis has them. `INCR` makes a counter that is not there, and gives it
no time at which it expires; that is left to `EXPIRE`, a command of its own. Between the two a
counter is there for good, and if the second never comes it stays so (`Tally.Stays`).

The clock is no part of the store: every command is given the time at which it runs.
-/

/-- A counter, with the time at which it expires, if it has one. It has counted something, or it
would not be there. -/
structure Tally.Counter where
  count : ℕ
  deadline : Option ℕ
  pos : 0 < count

/-- A store of counters. -/
structure Tally (κ : Type*) where
  entry : κ → Option Tally.Counter

namespace Tally

variable {κ : Type*}

/-- No counter. -/
def empty : Tally κ := ⟨fun _ => none⟩

/-- The counter under a key, if it has not expired. -/
def live (r : Tally κ) (now : ℕ) (k : κ) : Option Counter :=
  (r.entry k).filter fun c => c.deadline.all fun d => decide (now < d)

/-- What has been counted, zero if there is no counter. -/
def count (r : Tally κ) (now : ℕ) (k : κ) : ℕ := ((r.live now k).map Counter.count).getD 0

/-- `TTL`, in seconds by a clock of milliseconds. -/
def ttl (r : Tally κ) (now : ℕ) (k : κ) : ℤ :=
  match r.live now k with
  | none => -2
  | some ⟨_, none, _⟩ => -1
  | some ⟨_, some d, _⟩ => ((d - now + 500) / 1000 : ℕ)

section Write

variable [DecidableEq κ] (r : Tally κ) (now : ℕ) (k : κ)

/-- `INCR`, which replies with the count of the counter that it leaves. -/
def incr : ℕ × Tally κ :=
  (r.count now k + 1, ⟨Function.update r.entry k
    (some ⟨r.count now k + 1, (r.live now k).bind Counter.deadline, Nat.succ_pos _⟩)⟩)

/-- `EXPIRE`, in seconds. A counter whose time is over is as good as deleted. -/
def expire (secs : ℤ) : Tally κ :=
  ⟨Function.update r.entry k
    ((r.live now k).map fun c => { c with deadline := some (now + 1000 * secs).toNat })⟩

end Write

variable {r : Tally κ} {now t n : ℕ} {k k' : κ} {c : Counter}

theorem live_eq_some :
    r.live now k = some c ↔ r.entry k = some c ∧ ∀ d ∈ c.deadline, now < d := by
  simp [live, Option.filter_eq_some_iff, Option.all_eq_true]

/-- Nothing has been counted exactly if there is no counter. -/
theorem count_eq_zero_iff : r.count now k = 0 ↔ r.live now k = none := by
  rw [count]
  rcases r.live now k with _ | c
  · exact iff_of_true rfl rfl
  · exact iff_of_false (Nat.ne_of_gt c.pos) nofun

/-! ### How long a counter lasts -/

/-- A counter stands at a number, and does not expire before a time. -/
def Lasts (r : Tally κ) (k : κ) (n t : ℕ) : Prop :=
  ∃ c, r.entry k = some c ∧ c.count = n ∧ ∀ d ∈ c.deadline, t ≤ d

/-- A counter stands at a number, and never expires. -/
def Stays (r : Tally κ) (k : κ) (n : ℕ) : Prop :=
  ∃ c, r.entry k = some c ∧ c.count = n ∧ c.deadline = none

/-- A counter, if there is one, has expired by a time. -/
def GoneBy (r : Tally κ) (k : κ) (t : ℕ) : Prop := ∀ c ∈ r.entry k, ∃ d ∈ c.deadline, d ≤ t

theorem Stays.lasts (h : r.Stays k n) (t : ℕ) : r.Lasts k n t := by
  obtain ⟨c, hentry, hcount, hnone⟩ := h
  exact ⟨c, hentry, hcount, fun d hd => nomatch hnone ▸ hd⟩

theorem Lasts.live (h : r.Lasts k n t) (hnow : now < t) :
    ∃ c, r.live now k = some c ∧ c.count = n ∧ ∀ d ∈ c.deadline, t ≤ d := by
  obtain ⟨c, hentry, hcount, hd⟩ := h
  exact ⟨c, live_eq_some.mpr ⟨hentry, fun d hmem => Nat.lt_of_lt_of_le hnow (hd d hmem)⟩,
    hcount, hd⟩

theorem Lasts.pos (h : r.Lasts k n t) : 0 < n := by
  obtain ⟨c, -, rfl, -⟩ := h
  exact c.pos

theorem Lasts.count (h : r.Lasts k n t) (hnow : now < t) : r.count now k = n := by
  obtain ⟨c, hlive, rfl, -⟩ := h.live hnow
  rw [Tally.count, hlive]
  rfl

theorem GoneBy.count (h : r.GoneBy k t) (hnow : t ≤ now) : r.count now k = 0 := by
  refine count_eq_zero_iff.mpr (Option.eq_none_iff_forall_ne_some.mpr fun c hc => ?_)
  obtain ⟨hentry, hlt⟩ := live_eq_some.mp hc
  obtain ⟨d, hd, hle⟩ := h c hentry
  exact absurd (hlt d hd) (Nat.not_lt.mpr (Nat.le_trans hle hnow))

theorem goneBy_empty : (empty : Tally κ).GoneBy k t := nofun

variable [DecidableEq κ]

/-! ### What the commands do -/

/-- The reply is the count after it. -/
theorem incr_reply : (r.incr now k).1 = r.count now k + 1 := rfl

@[simp] theorem entry_incr_self : (r.incr now k).2.entry k =
    some ⟨r.count now k + 1, (r.live now k).bind Counter.deadline, Nat.succ_pos _⟩ :=
  Function.update_self ..

theorem entry_incr_of_ne (h : k' ≠ k) : (r.incr now k).2.entry k' = r.entry k' :=
  Function.update_of_ne h ..

theorem entry_expire_of_ne {secs : ℤ} (h : k' ≠ k) :
    (r.expire now k secs).entry k' = r.entry k' := Function.update_of_ne h ..

/-- A counter that has just been made. -/
theorem incr_stays (h : r.count now k = 0) : (r.incr now k).2.Stays k 1 := by
  refine ⟨_, entry_incr_self, congrArg (· + 1) h, ?_⟩
  rw [count_eq_zero_iff.mp h]
  rfl

/-- **Counting does not make a counter last longer, or less long.** -/
theorem Lasts.incr (h : r.Lasts k n t) (hnow : now < t) :
    (r.incr now k).2.Lasts k (n + 1) t := by
  refine ⟨_, entry_incr_self, congrArg (· + 1) (h.count hnow), ?_⟩
  obtain ⟨c, hlive, -, hd⟩ := h.live hnow
  rw [hlive]
  exact hd

theorem Stays.incr (h : r.Stays k n) : (r.incr now k).2.Stays k (n + 1) := by
  refine ⟨_, entry_incr_self, congrArg (· + 1) ((h.lasts _).count (Nat.lt_succ_self now)), ?_⟩
  obtain ⟨c, hentry, -, hnone⟩ := h
  rw [show r.live now k = some c from live_eq_some.mpr ⟨hentry, fun d hd => nomatch hnone ▸ hd⟩]
  exact hnone

theorem GoneBy.incr (h : r.GoneBy k t) (hcount : r.count now k ≠ 0) :
    (r.incr now k).2.GoneBy k t := by
  intro c hc
  rw [entry_incr_self] at hc
  obtain rfl := Option.some.inj hc
  rcases hlive : r.live now k with _ | c
  · exact absurd (count_eq_zero_iff.mpr hlive) hcount
  · exact h c (live_eq_some.mp hlive).1

/-- A counter that stays is given its time. -/
theorem Stays.entry_expire (h : r.Stays k n) (now secs : ℕ) : ∃ c,
    (r.expire now k secs).entry k = some c ∧ c.count = n ∧
      c.deadline = some (now + 1000 * secs) := by
  obtain ⟨c, hentry, hcount, hnone⟩ := h
  have hlive : r.live now k = some c :=
    live_eq_some.mpr ⟨hentry, fun d hd => nomatch hnone ▸ hd⟩
  refine ⟨{ c with deadline := some (now + 1000 * secs) }, ?_, hcount, rfl⟩
  rw [expire, hlive]
  exact (Function.update_self ..).trans rfl

theorem Stays.expire_lasts (h : r.Stays k n) (secs : ℕ) :
    (r.expire now k secs).Lasts k n (now + 1000 * secs) := by
  obtain ⟨c, hentry, hcount, hdeadline⟩ := h.entry_expire now secs
  exact ⟨c, hentry, hcount, fun d hd => Nat.le_of_eq (Option.some.inj (hdeadline.symm.trans hd))⟩

theorem Stays.expire_goneBy (h : r.Stays k n) (secs : ℕ) :
    (r.expire now k secs).GoneBy k (now + 1000 * secs) := by
  intro c hc
  obtain ⟨c', hentry, -, hdeadline⟩ := h.entry_expire now secs
  obtain rfl := Option.some.inj (hentry.symm.trans hc)
  exact ⟨_, hdeadline, Nat.le_refl _⟩

end Tally
