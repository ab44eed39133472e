import Mathlib.Algebra.GroupWithZero.Nat
import Mathlib.Data.List.Induction
import MateHub.Chat.Session

/-!
# The replay buffer of a session

`push` appends an event and then takes events from the front while there are too many of them,
or too many bytes; an event that is too big itself empties the buffer. The loop has no branch
for an empty buffer, so it ends because the bytes are counted right
(`MateHub.Chat.SessionInner.evict_spec`).

After any pushes with consecutive numbers the buffer is an end of what was pushed, and
`replay_from` returns all that was pushed after a number if and only if all of it is still
there (`MateHub.Chat.replay_law`). This is so for the numbers from the one before the first on,
below the last that `u64` has: a session counts from 1, and a request that goes back before the
first number is refused, whatever is there (`MateHub.Chat.before_first`).
-/

namespace MateHub

namespace Chat

namespace SessionInner

variable {D : Type} (bytes : GatewayEvent D → ℕ)

/-! ### The loop -/

/-- A pass of the loop of `push`, while its condition holds. With no event left a pass changes
nothing. -/
def evictPass : List (BufferedEvent D) × ℕ → Option (List (BufferedEvent D) × ℕ)
  | (events, totalBytes) =>
    if maxEvents < events.length ∨ maxBytes < totalBytes then
      some (match events with
        | [] => ([], totalBytes)
        | old :: rest => (rest, totalBytes - bytes old.data))
    else none

/-- **The loop ends**, and where it does. -/
inductive Ends : List (BufferedEvent D) × ℕ → List (BufferedEvent D) × ℕ → Prop
  | stop {x : List (BufferedEvent D) × ℕ} : evictPass bytes x = none → Ends x x
  | pass {x y z : List (BufferedEvent D) × ℕ} : evictPass bytes x = some y → Ends y z → Ends x z

/-- The sum of the sizes of some events. -/
def sizes (events : List (BufferedEvent D)) : ℕ := (events.map fun e => bytes e.data).sum

@[simp] theorem sizes_nil : sizes bytes [] = 0 := rfl

@[simp] theorem sizes_cons (e : BufferedEvent D) (events : List (BufferedEvent D)) :
    sizes bytes (e :: events) = bytes e.data + sizes bytes events := by
  simp [sizes]

@[simp] theorem sizes_append (events events' : List (BufferedEvent D)) :
    sizes bytes (events ++ events') = sizes bytes events + sizes bytes events' := by
  simp [sizes]

/-- **What the loop leaves**, if the bytes are counted right when it starts: it ends, within both
limits, and they are counted right. -/
theorem evict_spec (events : List (BufferedEvent D)) :
    Ends bytes (events, sizes bytes events) (evict bytes events (sizes bytes events)) ∧
      (evict bytes events (sizes bytes events)).2 =
        sizes bytes (evict bytes events (sizes bytes events)).1 ∧
      (evict bytes events (sizes bytes events)).1.length ≤ maxEvents ∧
      (evict bytes events (sizes bytes events)).2 ≤ maxBytes := by
  induction events with
  | nil => exact ⟨.stop rfl, rfl, Nat.zero_le _, Nat.zero_le _⟩
  | cons old rest ih =>
    have hrest : sizes bytes (old :: rest) - bytes old.data = sizes bytes rest := by
      rw [sizes_cons]
      omega
    rw [evict]
    split
    · rename_i hover
      rw [hrest]
      obtain ⟨hends, hrest'⟩ := ih
      have hpass : evictPass bytes (old :: rest, sizes bytes (old :: rest)) =
          some (rest, sizes bytes rest) := by
        rw [evictPass, List.length_cons, if_pos hover, hrest]
      exact ⟨.pass hpass hends, hrest'⟩
    · rename_i hover
      have hstop : evictPass bytes (old :: rest, sizes bytes (old :: rest)) = none := by
        rw [evictPass, List.length_cons, if_neg hover]
      rw [not_or, Nat.not_lt, Nat.not_lt] at hover
      exact ⟨.stop hstop, rfl, hover.1, hover.2⟩

/-! ### Pushes with consecutive numbers -/

/-- The numbers of the events are consecutive, from a first one on. -/
def Consecutive (first : ℕ) (log : List (BufferedEvent D)) : Prop :=
  ∀ (i : ℕ) (h : i < log.length), log[i].seq = first + i

/-- A session after some pushes. -/
def pushed (claims : Claims) (natsSubject : List Char) (log : List (BufferedEvent D)) :
    SessionInner D :=
  log.foldl (push bytes) (new claims natsSubject)

/-- What holds of a session after the pushes of a log. -/
structure Buffers (s : SessionInner D) (log : List (BufferedEvent D)) : Prop where
  totalBytes : s.totalBytes = sizes bytes s.events
  length_le : s.events.length ≤ maxEvents
  bytes_le : s.totalBytes ≤ maxBytes
  events : ∃ k, k ≤ log.length ∧ s.events = log.drop k
  lastSeq : s.lastSeq = (log.getLast?.map BufferedEvent.seq).getD 0

variable {bytes}

theorem Buffers.push {s : SessionInner D} {log : List (BufferedEvent D)} (h : s.Buffers bytes log)
    (e : BufferedEvent D) : (s.push bytes e).Buffers bytes (log ++ [e]) := by
  obtain ⟨k, hk, hevents⟩ := h.events
  have htotal : s.totalBytes + bytes e.data = sizes bytes (s.events ++ [e]) := by
    rw [sizes_append, h.totalBytes, sizes_cons, sizes_nil, Nat.add_zero]
  obtain ⟨-, hsum, hlength, hbytes⟩ := evict_spec bytes (s.events ++ [e])
  obtain ⟨j, hj, hdrop⟩ := evict_eq_drop bytes (s.events ++ [e]) (sizes bytes (s.events ++ [e]))
  have hlog : s.events ++ [e] = (log ++ [e]).drop k := by
    rw [hevents, List.drop_append_of_le_length hk]
  rw [SessionInner.push, htotal]
  refine ⟨hsum, hlength, hbytes, ⟨k + j, ?_, ?_⟩, ?_⟩
  · rw [hlog, List.length_drop] at hj
    have hk' : k ≤ (log ++ [e]).length := by
      rw [List.length_append]
      omega
    omega
  · rw [← List.drop_drop, ← hlog]
    exact hdrop
  · simp

theorem buffers_pushed (bytes : GatewayEvent D → ℕ) (claims : Claims) (natsSubject : List Char)
    (log : List (BufferedEvent D)) : (pushed bytes claims natsSubject log).Buffers bytes log := by
  induction log using List.reverseRecOn with
  | nil => exact ⟨rfl, Nat.zero_le _, Nat.zero_le _, ⟨0, Nat.le_refl 0, rfl⟩, rfl⟩
  | append_singleton log e ih =>
    rw [pushed, List.foldl_append, List.foldl_cons, List.foldl_nil]
    exact ih.push e

/-! ### What is replayed -/

/-- `replay_from`, with its additions in `u64`. -/
def replayFromU64 (s : SessionInner D) (afterSeq : ℕ) : Option (List (BufferedEvent D)) :=
  if s.lastSeq < afterSeq then some []
  else
    let minSeq := (s.events.head?.map BufferedEvent.seq).getD ((s.lastSeq + 1) % 2 ^ 64)
    if (afterSeq + 1) % 2 ^ 64 < minSeq then none
    else some (s.events.filter fun e => afterSeq < e.seq)

theorem replayFromU64_eq {s : SessionInner D} (h : s.lastSeq + 1 < 2 ^ 64) (afterSeq : ℕ) :
    s.replayFromU64 afterSeq = s.replayFrom afterSeq := by
  rw [replayFromU64, replayFrom]
  split_ifs with hahead
  · rfl
  · rw [Nat.mod_eq_of_lt h, Nat.mod_eq_of_lt (show afterSeq + 1 < 2 ^ 64 by omega)]

/-- All that was pushed after a number is still in the buffer. -/
def Keeps (s : SessionInner D) (log : List (BufferedEvent D)) (afterSeq : ℕ) : Prop :=
  ∀ e ∈ log, afterSeq < e.seq → e ∈ s.events

section Replay

variable {s : SessionInner D} {log : List (BufferedEvent D)} {first afterSeq k : ℕ}

theorem Consecutive.numbered (h : Consecutive first log) :
    Numbered (fun e : BufferedEvent D => e.seq + 1 - first) log := by
  intro i hi
  have hseq := h i hi
  dsimp only
  omega

/-- The events after a number, as a part of the log. -/
theorem Consecutive.filter_drop (h : Consecutive first log) (hfirst : first ≤ afterSeq + 1)
    (hk : first + k ≤ afterSeq + 1) :
    ((log.drop k).filter fun e => afterSeq < e.seq) = log.drop (afterSeq + 1 - first) := by
  rw [← h.numbered.filter_drop (show k ≤ afterSeq + 1 - first by omega)]
  refine List.filter_congr fun e he => ?_
  obtain ⟨i, hi, rfl⟩ := List.getElem_of_mem (List.mem_of_mem_drop he)
  rw [h i hi]
  exact decide_eq_decide.mpr (by omega)

/-- The last number. -/
theorem Buffers.lastSeq_eq (h : s.Buffers bytes log) (hlog : Consecutive first log)
    (hne : log ≠ []) : s.lastSeq + 1 = first + log.length := by
  have hlen := List.length_pos_iff.mpr hne
  rw [h.lastSeq, List.getLast?_eq_some_getLast hne, Option.map_some, Option.getD_some,
    List.getLast_eq_getElem, hlog]
  omega

/-- The number from which on the buffer has all. -/
theorem Buffers.minSeq_eq (h : s.Buffers bytes log) (hlog : Consecutive first log)
    (hne : log ≠ []) (hk : k ≤ log.length) (hevents : s.events = log.drop k) :
    (s.events.head?.map BufferedEvent.seq).getD (s.lastSeq + 1) = first + k := by
  rw [hevents, List.head?_drop]
  rcases Nat.lt_or_ge k log.length with hlt | hge
  · rw [List.getElem?_eq_getElem hlt, Option.map_some, Option.getD_some, hlog k hlt]
  · rw [List.getElem?_eq_none hge, Option.map_none, Option.getD_none, h.lastSeq_eq hlog hne]
    omega

/-- The buffer has all after a number if and only if it starts there. -/
theorem keeps_iff (hlog : Consecutive first log) (hfirst : first ≤ afterSeq + 1)
    (hk : k ≤ log.length) (hevents : s.events = log.drop k) :
    s.Keeps log afterSeq ↔ first + k ≤ afterSeq + 1 := by
  constructor
  · intro hall
    by_contra hlt
    -- the event before the buffer is later than the number
    have hi : k - 1 < log.length := by omega
    have hmem := hall log[k - 1] (List.getElem_mem hi) (by rw [hlog]; omega)
    rw [hevents] at hmem
    obtain ⟨i, hi', hget⟩ := List.getElem_of_mem hmem
    rw [List.getElem_drop] at hget
    have hseq := congrArg BufferedEvent.seq hget
    rw [hlog, hlog] at hseq
    omega
  · intro hle e he hseq
    obtain ⟨i, hi, rfl⟩ := List.getElem_of_mem he
    rw [hlog] at hseq
    rw [hevents]
    have hdrop : i - k < (log.drop k).length := by
      rw [List.length_drop]
      omega
    have hget : (log.drop k)[i - k] = log[i] := by
      rw [List.getElem_drop]
      congr 1
      omega
    rw [← hget]
    exact List.getElem_mem hdrop

/-- **What `replay_from` says**: all that was pushed after the number, if it is there. -/
theorem Buffers.replayFrom (h : s.Buffers bytes log) (hlog : Consecutive first log)
    (hfirst : first ≤ afterSeq + 1) :
    (s.Keeps log afterSeq →
      s.replayFrom afterSeq = some (log.filter fun e => afterSeq < e.seq)) ∧
    (¬ s.Keeps log afterSeq → s.replayFrom afterSeq = none) := by
  obtain ⟨k, hk, hevents⟩ := h.events
  rw [keeps_iff hlog hfirst hk hevents, SessionInner.replayFrom]
  rcases eq_or_ne log [] with rfl | hne
  · obtain rfl : k = 0 := Nat.le_zero.mp hk
    have hlast : s.lastSeq = 0 := h.lastSeq
    refine ⟨fun _ => ?_, fun hno => absurd hfirst hno⟩
    rw [hevents, hlast]
    simp
  · have hlast := h.lastSeq_eq hlog hne
    have hall := hlog.filter_drop hfirst (show first + 0 ≤ afterSeq + 1 by omega)
    rw [List.drop_zero] at hall
    dsimp only
    rw [h.minSeq_eq hlog hne hk hevents, hall]
    split_ifs with hahead hbefore
    · rw [List.drop_eq_nil_of_le (by omega)]
      exact ⟨fun _ => rfl, fun hno => absurd (by omega) hno⟩
    · exact ⟨fun hle => absurd hle (by omega), fun _ => rfl⟩
    · have hle : first + k ≤ afterSeq + 1 := Nat.not_lt.mp hbefore
      rw [hevents, hlog.filter_drop hfirst hle]
      exact ⟨fun _ => rfl, fun hno => absurd hle hno⟩

/-- A request that goes back before the first number is refused. -/
theorem Buffers.replayFrom_before (h : s.Buffers bytes log) (hlog : Consecutive first log)
    (hne : log ≠ []) (hbefore : afterSeq + 1 < first) : s.replayFrom afterSeq = none := by
  obtain ⟨k, hk, hevents⟩ := h.events
  have hlast := h.lastSeq_eq hlog hne
  have hlen := List.length_pos_iff.mpr hne
  rw [SessionInner.replayFrom, if_neg (by omega)]
  dsimp only
  rw [h.minSeq_eq hlog hne hk hevents, if_pos (by omega)]

end Replay

end SessionInner

open SessionInner

/-- **The replay buffer**: after any pushes with consecutive numbers, of events of any sizes, the
bytes are counted, both limits are kept, the loop of the next push ends, the buffer is an end of
what was pushed, and `replay_from` answers all that was pushed after a number if and only if all
of it is there, and refuses otherwise; a number further back than the one before the first is
refused. -/
theorem replay_law {D : Type} (bytes : GatewayEvent D → ℕ) (claims : Claims)
    (natsSubject : List Char) {first : ℕ} {log : List (BufferedEvent D)}
    (hlog : Consecutive first log) (hlast : first + log.length < 2 ^ 64) :
    (pushed bytes claims natsSubject log).totalBytes =
      sizes bytes (pushed bytes claims natsSubject log).events ∧
    (pushed bytes claims natsSubject log).events.length ≤ maxEvents ∧
    (pushed bytes claims natsSubject log).totalBytes ≤ maxBytes ∧
    (∀ e, Ends bytes ((pushed bytes claims natsSubject log).events ++ [e],
        (pushed bytes claims natsSubject log).totalBytes + bytes e.data)
      (((pushed bytes claims natsSubject log).push bytes e).events,
        ((pushed bytes claims natsSubject log).push bytes e).totalBytes)) ∧
    (pushed bytes claims natsSubject log).events <:+ log ∧
    ∀ afterSeq,
      (first ≤ afterSeq + 1 →
        ((pushed bytes claims natsSubject log).replayFromU64 afterSeq =
            some (log.filter fun e => afterSeq < e.seq) ↔
          (pushed bytes claims natsSubject log).Keeps log afterSeq) ∧
        (¬ (pushed bytes claims natsSubject log).Keeps log afterSeq →
          (pushed bytes claims natsSubject log).replayFromU64 afterSeq = none)) ∧
      (afterSeq + 1 < first → log ≠ [] →
        (pushed bytes claims natsSubject log).replayFromU64 afterSeq = none) := by
  have h := buffers_pushed bytes claims natsSubject log
  generalize pushed bytes claims natsSubject log = s at h
  have hseq : s.lastSeq + 1 < 2 ^ 64 := by
    rcases eq_or_ne log [] with rfl | hne
    · rw [show s.lastSeq = 0 from h.lastSeq]
      decide
    · rw [h.lastSeq_eq hlog hne]
      exact hlast
  refine ⟨h.totalBytes, h.length_le, h.bytes_le, fun e => ?_, ?_, fun afterSeq => ⟨?_, ?_⟩⟩
  · have htotal : s.totalBytes + bytes e.data = sizes bytes (s.events ++ [e]) := by
      rw [sizes_append, h.totalBytes, sizes_cons, sizes_nil, Nat.add_zero]
    rw [SessionInner.push, htotal]
    exact (evict_spec bytes _).1
  · obtain ⟨k, -, hevents⟩ := h.events
    rw [hevents]
    exact List.drop_suffix k log
  · intro hfirst
    obtain ⟨hkeeps, hnot⟩ := h.replayFrom hlog hfirst
    rw [replayFromU64_eq hseq]
    refine ⟨⟨fun hsome => ?_, hkeeps⟩, hnot⟩
    by_contra hno
    rw [hnot hno] at hsome
    cases hsome
  · intro hbefore hne
    rw [replayFromU64_eq hseq]
    exact h.replayFrom_before hlog hne hbefore

section Seed

/-- An event with a number. -/
def numbered (seq : ℕ) : BufferedEvent Unit := ⟨seq, ⟨0, some seq, none, ()⟩, 0⟩

/-- The session of some user, with one byte for each event. -/
def smallSession (log : List (BufferedEvent Unit)) : SessionInner Unit :=
  pushed (fun _ => 1) ⟨i64 1, "bob", i64 1⟩ [] log

theorem replay_law_three : (smallSession [numbered 1, numbered 2, numbered 3]).replayFromU64 1 =
    some [numbered 2, numbered 3] := by
  have hlog : Consecutive 1 [numbered 1, numbered 2, numbered 3] := by
    intro i hi
    match i, hi with
    | 0, _ => rfl
    | 1, _ => rfl
    | 2, _ => rfl
  have hlaw := replay_law (fun _ => 1) ⟨i64 1, "bob", i64 1⟩ [] hlog (by decide)
  refine ((hlaw.2.2.2.2.2 1).1 (by decide)).1.mpr ?_
  intro e he _
  exact he

/-- **Before the first number**: a session whose events are numbered from 5 on has all that was
pushed after 3, and refuses to replay it; one that has got to the last number that there is
refuses to replay nothing. -/
theorem before_first : Consecutive 5 [numbered 5, numbered 6] ∧
    (smallSession [numbered 5, numbered 6]).Keeps [numbered 5, numbered 6] 3 ∧
    (smallSession [numbered 5, numbered 6]).replayFromU64 3 = none ∧
    (smallSession [numbered (2 ^ 64 - 1)]).Keeps [numbered (2 ^ 64 - 1)] (2 ^ 64 - 1) ∧
    (smallSession [numbered (2 ^ 64 - 1)]).replayFromU64 (2 ^ 64 - 1) = none := by
  refine ⟨?_, fun e he _ => he, by decide, fun e he _ => he, by decide⟩
  intro i hi
  match i, hi with
  | 0, _ => rfl
  | 1, _ => rfl

end Seed

end Chat

end MateHub
