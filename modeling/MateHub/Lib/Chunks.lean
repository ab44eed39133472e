import Mathlib.Data.List.Basic

/-!
# Cutting a list into pieces of one size

A list is cut into pieces of one size, of which only the last may be shorter. There is one way
to do so (`Chunks.Chunked.eq_of_flatten`), so it does not matter how a list came in that was
handed on in such pieces.
-/

namespace Chunks

variable {α : Type*} {k : ℕ} {p : List α} {ps ps' : List (List α)}

/-- **All pieces but the last have the size**, and the last is not empty. -/
structure Chunked (k : ℕ) (ps : List (List α)) : Prop where
  full : ∀ p ∈ ps.dropLast, p.length = k
  last : ∀ p ∈ ps.getLast?, 0 < p.length ∧ p.length ≤ k

theorem chunked_nil : Chunked k ([] : List (List α)) := ⟨by simp, by simp⟩

theorem Chunked.tail (h : Chunked k (p :: ps)) : Chunked k ps := by
  cases ps with
  | nil => exact chunked_nil
  | cons q ps =>
    refine ⟨fun r hr => h.full r ?_, fun r hr => h.last r ?_⟩
    · rw [List.dropLast_cons_cons]
      exact List.mem_cons_of_mem p hr
    · rw [List.getLast?_cons_cons]
      exact hr

theorem Chunked.head_ne_nil (hk : 0 < k) (h : Chunked k (p :: ps)) : p ≠ [] := by
  refine List.ne_nil_of_length_pos ?_
  cases ps with
  | nil => exact (h.last p rfl).1
  | cons q ps => exact h.full p List.mem_cons_self ▸ hk

/-- The first piece is the beginning of the list. -/
theorem Chunked.take_flatten (h : Chunked k (p :: ps)) : (p :: ps).flatten.take k = p := by
  cases ps with
  | nil =>
    rw [List.flatten_cons, List.flatten_nil, List.append_nil]
    exact List.take_of_length_le (h.last p rfl).2
  | cons q ps =>
    have hlen : p.length = k := h.full p List.mem_cons_self
    rw [List.flatten_cons, ← hlen, List.take_left]

/-- **A list is cut in one way.** -/
theorem Chunked.eq_of_flatten (hk : 0 < k) (h : Chunked k ps) (h' : Chunked k ps')
    (heq : ps.flatten = ps'.flatten) : ps = ps' := by
  induction ps generalizing ps' with
  | nil =>
    cases ps' with
    | nil => rfl
    | cons p' ps' =>
      rw [List.flatten_nil, List.flatten_cons, eq_comm, List.append_eq_nil_iff] at heq
      exact absurd heq.1 (h'.head_ne_nil hk)
  | cons p ps ih =>
    cases ps' with
    | nil =>
      rw [List.flatten_nil, List.flatten_cons, List.append_eq_nil_iff] at heq
      exact absurd heq.1 (h.head_ne_nil hk)
    | cons p' ps' =>
      obtain rfl : p = p' := by rw [← h.take_flatten, heq, h'.take_flatten]
      rw [List.flatten_cons, List.flatten_cons] at heq
      rw [ih h.tail h'.tail (List.append_cancel_left heq)]

/-- Pieces that are all full. -/
theorem chunked_of_full (hk : 0 < k) (h : ∀ p ∈ ps, p.length = k) : Chunked k ps := by
  refine ⟨fun p hp => h p (List.dropLast_subset ps hp), fun p hp => ?_⟩
  have hlen := h p (List.mem_of_getLast? hp)
  omega

/-- Full pieces, and a rest behind them. -/
theorem chunked_concat (h : ∀ p ∈ ps, p.length = k) (hpos : 0 < p.length) (hle : p.length ≤ k) :
    Chunked k (ps ++ [p]) := by
  refine ⟨fun q hq => h q ?_, fun q hq => ?_⟩
  · rwa [List.dropLast_concat] at hq
  · rw [List.getLast?_concat] at hq
    obtain rfl := Option.some_inj.mp hq
    exact ⟨hpos, hle⟩

end Chunks
