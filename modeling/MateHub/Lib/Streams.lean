import Mathlib.Data.List.TakeWhile

/-!
# Streams that are consumed independently

Events are published in one order, each on one of several streams. Every stream has a
consumer, which takes the events of its stream first come, first served, and applies them to
a store that all consumers share; how far the consumers are behind each other is open.

If a consumer takes an event only where it commutes with the events in front of it, which are
on other streams, then the store comes out as if the events were applied in the order in
which they were published (`Streams.settled_consume`).
-/

/-- The events that are published and not consumed, in the order of publication, and what
has been made of the others. -/
structure Streams (ε σ : Type*) where
  pending : List ε
  store : σ

namespace Streams

variable {ε σ κ : Type*} (apply : σ → ε → σ) (stream : ε → κ)

/-- Some events are published. -/
def publish (s : Streams ε σ) (es : List ε) : Streams ε σ :=
  { s with pending := s.pending ++ es }

/-- What the store will be if the pending events are applied in their order. -/
def settled (s : Streams ε σ) : σ := s.pending.foldl apply s.store

/-- It makes no difference which of two events is applied first. -/
def Commutes (e e' : ε) : Prop := ∀ s, apply (apply s e) e' = apply (apply s e') e

section Consume

variable [DecidableEq κ] (s : Streams ε σ) (k : κ)

/-- The events in front of the next event of a stream. -/
def ahead : List ε := s.pending.takeWhile fun e => decide (stream e ≠ k)

/-- The next event of a stream, with those behind it. -/
def rest : List ε := s.pending.dropWhile fun e => decide (stream e ≠ k)

/-- The consumer of a stream takes its next event, if there is one. -/
def consume : Streams ε σ :=
  match s.rest stream k with
  | [] => s
  | e :: es => ⟨s.ahead stream k ++ es, apply s.store e⟩

end Consume

variable {apply stream} {s : Streams ε σ}

theorem settled_of_drained (h : s.pending = []) : s.settled apply = s.store := by
  rw [settled, h, List.foldl_nil]

theorem settled_publish (es : List ε) :
    (s.publish es).settled apply = es.foldl apply (s.settled apply) := List.foldl_append ..

/-- An event that commutes with some events may be applied before them. -/
theorem foldl_of_commutes {e : ε} {es : List ε} (h : ∀ e' ∈ es, Commutes apply e' e) (s : σ) :
    es.foldl apply (apply s e) = apply (es.foldl apply s) e := by
  induction es generalizing s with
  | nil => rfl
  | cons e' es ih =>
    obtain ⟨he', hes⟩ := List.forall_mem_cons.mp h
    rw [List.foldl_cons, List.foldl_cons, ← he' s, ih hes]

variable [DecidableEq κ] {k : κ}

theorem stream_of_mem_ahead {e : ε} (h : e ∈ s.ahead stream k) : stream e ≠ k :=
  of_decide_eq_true (List.mem_takeWhile_imp (p := fun e => decide (stream e ≠ k)) h)

theorem stream_of_rest {e : ε} {es : List ε} (h : s.rest stream k = e :: es) : stream e = k := by
  have hhead := List.head?_dropWhile_not (fun e => decide (stream e ≠ k)) s.pending
  rw [← rest, h] at hhead
  simpa using hhead

theorem ahead_append_rest : s.ahead stream k ++ s.rest stream k = s.pending :=
  List.takeWhile_append_dropWhile ..

/-- **Consuming an event that commutes with what is in front of it changes nothing in the
end.** -/
theorem settled_consume
    (h : ∀ e ∈ (s.rest stream k).head?, ∀ e' ∈ s.ahead stream k, Commutes apply e' e) :
    (s.consume apply stream k).settled apply = s.settled apply := by
  rw [consume]
  cases hrest : s.rest stream k with
  | nil => rfl
  | cons e es =>
    rw [hrest] at h
    have hpending : s.pending = s.ahead stream k ++ e :: es := by
      rw [← hrest, ahead_append_rest]
    dsimp only
    rw [settled, settled, hpending, List.foldl_append, List.foldl_append, List.foldl_cons,
      foldl_of_commutes (h e rfl)]

end Streams
