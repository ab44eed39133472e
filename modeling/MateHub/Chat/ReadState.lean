import Mathlib.Data.List.MinMax
import MateHub.Chat.Session
import MateHub.Hub.Groups
import MateHub.Lib.Dict
import MateHub.Lib.Tasks

/-!
# The last message that a user has read

`mark_read` clears the counters of the channel in Redis and writes the id that its caller
gives into the table `read_state`, whatever stands there. The one thing to know is that the
last statement wins: the pointer is the greatest of the ids that have been acknowledged, after
every prefix of a run, if and only if no statement writes an id below the pointer and none
that fails would have written one above it (`MateHub.Chat.pointers_exact_iff`). Two
acknowledgements that are handled in the other order move the pointer back
(`MateHub.Chat.moved_back`).
-/

namespace MateHub

namespace Chat

/-! ### The tables -/

/-- The primary key of `read_state`. -/
structure ReadKey where
  userId : I64
  hubId : I64
  channelId : I64
  deriving DecidableEq

/-- A row of `read_state`. -/
structure ReadState where
  lastReadMessageId : I64
  mentionCount : ℤ
  deriving DecidableEq

/-- The counters in Redis, of a user and a channel. -/
structure ReadCounters where
  unread : Dict (I64 × I64) ℤ
  mentions : Dict (I64 × I64) ℤ

/-- What the calls share, and the ids that have been acknowledged, latest first. -/
structure ReadStore where
  readState : Dict ReadKey ReadState
  redis : Option ReadCounters
  acked : List (ReadKey × I64)

/-! ### A call -/

/-- Where a call stands in `mark_read`. -/
inductive AckPhase
  | received
  /-- The user may read the channel, and Redis is there. -/
  | admitted
  /-- The counter of unread messages has been deleted. -/
  | unreadCleared
  /-- It is left to write the row. -/
  | cleared
  | forbidden
  /-- The status is `NO_CONTENT`, whatever the statement has done. -/
  | noContent
  /-- The connection was closed. -/
  | dropped
  deriving DecidableEq

/-- A request to mark a channel as read, with the phase it is in. -/
structure AckRequest where
  claims : Claims
  channelId : I64
  messageId : I64
  phase : AckPhase

/-- What happens to a request. -/
inductive AckAct
  | arrive (claims : Claims) (channelId messageId : I64)
  /-- What the access check says. -/
  | authorize (allowed : Bool)
  /-- The next operation is carried out. -/
  | next
  /-- It fails. -/
  | fault
  | drop
  deriving DecidableEq

/-- The read state that a request is about. -/
def AckRequest.key (r : AckRequest) : ReadKey := ⟨r.claims.sub, r.claims.hubId, r.channelId⟩

namespace ReadStore

variable (st : ReadStore) (r : AckRequest)

/-- The `INSERT` into `read_state`, which replaces the row. -/
def upsertReadState (key : ReadKey) (messageId : I64) : ReadStore :=
  { st with readState := st.readState.insert key ⟨messageId, 0⟩ }

/-- The call is answered. -/
def acknowledge : ReadStore := { st with acked := (r.key, r.messageId) :: st.acked }

/-- `mark_read`: the operation at which the call stands. -/
def markRead : AckPhase → AckAct → Option (ReadStore × AckPhase)
  | .received, .authorize allowed =>
    some (st, if !allowed then .forbidden else if st.redis.isSome then .admitted else .cleared)
  | .admitted, .next =>
    some ({ st with redis := st.redis.map fun c =>
      { c with unread := c.unread.erase (r.claims.sub, r.channelId) } }, .unreadCleared)
  | .admitted, .fault => some (st, .unreadCleared)
  | .unreadCleared, .next =>
    some ({ st with redis := st.redis.map fun c =>
      { c with mentions := c.mentions.erase (r.claims.sub, r.channelId) } }, .cleared)
  | .unreadCleared, .fault => some (st, .cleared)
  | .cleared, .next =>
    some ((st.upsertReadState r.key r.messageId).acknowledge r, .noContent)
  -- the error is logged, and the status is the same
  | .cleared, .fault => some (st.acknowledge r, .noContent)
  | .forbidden, _ => none
  | .noContent, _ => none
  | .dropped, _ => none
  | _, .drop => some (st, .dropped)
  | _, _ => none

/-- A step of a call. -/
def run : Option AckRequest → AckAct → Option (ReadStore × Option AckRequest)
  | none, a =>
    match a with
    | .arrive claims channelId messageId =>
      some (st, some ⟨claims, channelId, messageId, .received⟩)
    | _ => none
  | some r, a => (st.markRead r r.phase a).map fun p => (p.1, some { r with phase := p.2 })

/-- The counters may change at any time. -/
def env (counters : ReadCounters) : ReadStore := { st with redis := st.redis.map fun _ => counters }

/-- A step of a request, or of another writer of the counters. -/
abbrev Act := Tasks.Act ℕ AckAct ReadCounters

/-- A step of the service. -/
def next : Tasks ℕ ReadStore (Option AckRequest) → Act → Tasks ℕ ReadStore (Option AckRequest) :=
  Tasks.next (fun st _ => run st) env

/-- The service starts with no row. -/
def Init (w : Tasks ℕ ReadStore (Option AckRequest)) : Prop :=
  (∀ i, w.task i = none) ∧ w.shared.readState = ∅ ∧ w.shared.acked = []

/-! ### What is reported -/

/-- `get_read_states`: the rows of a user in a hub, as channels with their pointers and
counts. -/
def getReadStates (userId hubId : I64) : List (I64 × I64 × ℤ) :=
  (st.readState.pairs.filter fun p => p.1.userId = userId ∧ p.1.hubId = hubId).map fun p =>
    (p.1.channelId, p.2.lastReadMessageId, p.2.mentionCount)

/-- The ids are ordered as the integers are. -/
local instance idOrder : LinearOrder I64 := @Subtype.instLinearOrder ℤ Int.instLinearOrder _

local instance : Preorder I64 := idOrder.toPreorder

local instance : DecidableLE I64 := idOrder.toDecidableLE

local instance : DecidableLT I64 := idOrder.toDecidableLT

/-- The pointer of a user in a channel. -/
def pointer (key : ReadKey) : WithBot I64 :=
  match st.readState.lookup key with
  | none => ⊥
  | some row => row.lastReadMessageId

/-- The ids that a user has acknowledged in a channel. -/
def ackedOf (key : ReadKey) : List I64 :=
  (st.acked.filter fun p => p.1 = key).map Prod.snd

/-- **Every pointer is the greatest id that has been acknowledged.** -/
def PointersExact : Prop := ∀ key, st.pointer key = (st.ackedOf key).maximum

/-- **The condition on a step**: a statement does not write an id below the pointer, and one
that fails would not have written one above it. -/
def InOrder (w : Tasks ℕ ReadStore (Option AckRequest)) : Act → Prop
  | .task i a => ∀ r ∈ w.task i, r.phase = .cleared →
      (a = .next → w.shared.pointer r.key ≤ r.messageId) ∧
      (a = .fault → (r.messageId : WithBot I64) ≤ w.shared.pointer r.key)
  | .env _ => True

instance (w : Tasks ℕ ReadStore (Option AckRequest)) : ∀ act, Decidable (InOrder w act)
  | .task i a => inferInstanceAs (Decidable (∀ r ∈ w.task i, r.phase = .cleared →
      (a = .next → w.shared.pointer r.key ≤ r.messageId) ∧
      (a = .fault → (r.messageId : WithBot I64) ≤ w.shared.pointer r.key)))
  | .env _ => inferInstanceAs (Decidable True)

/-! ### What a step does -/

section Step

variable {st st' : ReadStore} {r : AckRequest} {key : ReadKey} {a : AckAct}
  {phase phase' : AckPhase}

theorem pointer_upsertReadState (messageId : I64) : (st.upsertReadState r.key messageId).pointer
    key = if key = r.key then (messageId : WithBot I64) else st.pointer key := by
  rw [pointer, upsertReadState, Dict.lookup_insert_eq]
  by_cases h : key = r.key
  · rw [if_pos h, if_pos h]
  · rw [if_neg h, if_neg h, pointer]

theorem ackedOf_acknowledge : (st.acknowledge r).ackedOf key =
    if key = r.key then r.messageId :: st.ackedOf key else st.ackedOf key := by
  by_cases h : key = r.key
  · subst h
    simp [ackedOf, acknowledge]
  · have h' : ¬ r.key = key := fun heq => h heq.symm
    simp [ackedOf, acknowledge, h, h']

/-- A step of a call leaves the rows and the acknowledgements as they are, or it is the
statement. -/
theorem markRead_cases (h : st.markRead r phase a = some (st', phase')) :
    (st'.readState = st.readState ∧ st'.acked = st.acked ∧
      ¬ (phase = .cleared ∧ (a = .next ∨ a = .fault))) ∨
    (phase = .cleared ∧ a = .next ∧ st' = (st.upsertReadState r.key r.messageId).acknowledge r) ∨
    phase = .cleared ∧ a = .fault ∧ st' = st.acknowledge r := by
  unfold markRead at h
  split at h
  case h_6 => exact .inr (.inl ⟨rfl, rfl, (Prod.mk.inj (Option.some_inj.mp h)).1.symm⟩)
  case h_7 => exact .inr (.inr ⟨rfl, rfl, (Prod.mk.inj (Option.some_inj.mp h)).1.symm⟩)
  all_goals
    first
    | contradiction
    | obtain ⟨rfl, -⟩ := Prod.mk.inj (Option.some_inj.mp h)
      exact .inl ⟨rfl, rfl, by simp⟩

/-- The pointer of the call's channel becomes an id; the id is acknowledged. -/
theorem PointersExact.acknowledge_iff (h : st.PointersExact) (st' : ReadStore)
    (hother : ∀ key, key ≠ r.key → st'.pointer key = st.pointer key)
    (hacked : st'.acked = st.acked) :
    (st'.acknowledge r).PointersExact ↔
      st'.pointer r.key = max (r.messageId : WithBot I64) (st.pointer r.key) := by
  have hof : ∀ key, st'.ackedOf key = st.ackedOf key := fun key => by rw [ackedOf, hacked, ackedOf]
  have hpointer : ∀ key, (st'.acknowledge r).pointer key = st'.pointer key := fun _ => rfl
  constructor
  · intro h'
    have hkey := h' r.key
    rwa [hpointer, ackedOf_acknowledge, if_pos rfl, List.maximum_cons, hof, ← h r.key] at hkey
  · intro h' key
    rw [hpointer, ackedOf_acknowledge, hof]
    by_cases hkey : key = r.key
    · rw [if_pos hkey, List.maximum_cons, ← h key, hkey]
      exact h'
    · rw [if_neg hkey, hother key hkey]
      exact h key

/-- **Exactly the steps in order keep the pointers exact.** -/
theorem PointersExact.next_iff {w : Tasks ℕ ReadStore (Option AckRequest)}
    (h : w.shared.PointersExact) (act : Act) :
    (ReadStore.next w act).shared.PointersExact ↔ InOrder w act := by
  cases act with
  | env counters => exact iff_of_true h trivial
  | task i a =>
    rw [ReadStore.next, Tasks.next, InOrder]
    cases ht : w.task i with
    | none =>
      refine iff_of_true ?_ (by simp)
      cases a <;> exact h
    | some r =>
      simp only [Option.mem_def, Option.some_inj, forall_eq']
      cases hrun : w.shared.markRead r r.phase a with
      | none =>
        have hnone : run w.shared (some r) a = none := by rw [run, hrun, Option.map_none]
        rw [hnone]
        refine iff_of_true h fun hphase => ?_
        -- the last operation of a call is never refused
        constructor <;> rintro rfl <;> rw [hphase] at hrun <;> cases hrun
      | some p =>
        obtain ⟨st', phase'⟩ := p
        have hsome : run w.shared (some r) a = some (st', some { r with phase := phase' }) := by
          rw [run, hrun, Option.map_some]
        rw [hsome]
        change st'.PointersExact ↔ _
        rcases markRead_cases hrun with ⟨hrows, hacked, hother⟩ | ⟨hphase, rfl, rfl⟩ |
          ⟨hphase, rfl, rfl⟩
        · refine iff_of_true (fun key => ?_) fun hphase => ?_
          · rw [pointer, ackedOf, hrows, hacked]
            exact h key
          · exact ⟨fun ha => absurd ⟨hphase, .inl ha⟩ hother,
              fun ha => absurd ⟨hphase, .inr ha⟩ hother⟩
        · rw [h.acknowledge_iff (w.shared.upsertReadState r.key r.messageId)
              (fun key hkey => ?_) rfl,
            pointer_upsertReadState, if_pos rfl, eq_comm, max_eq_left_iff]
          · simp [hphase]
          · rw [pointer_upsertReadState, if_neg hkey]
        · rw [h.acknowledge_iff w.shared (fun _ _ => rfl) rfl, eq_comm, max_eq_right_iff]
          simp [hphase]

/-- A step in order moves no pointer back. -/
theorem pointer_le_next {w : Tasks ℕ ReadStore (Option AckRequest)} {act : Act}
    (hok : InOrder w act) (key : ReadKey) :
    w.shared.pointer key ≤ (ReadStore.next w act).shared.pointer key := by
  cases act with
  | env counters => exact le_rfl
  | task i a =>
    rw [ReadStore.next, Tasks.next]
    split
    · exact le_rfl
    · rename_i st' t hrun
      change _ ≤ st'.pointer key
      cases ht : w.task i with
      | none =>
        rw [ht] at hrun
        cases a <;> cases hrun
        exact le_rfl
      | some r =>
        rw [ht, run, Option.map_eq_some_iff] at hrun
        obtain ⟨⟨st₁, phase⟩, hmark, heq⟩ := hrun
        obtain ⟨rfl, -⟩ := Prod.mk.inj heq
        rcases markRead_cases hmark with ⟨hrows, -, -⟩ | ⟨hphase, rfl, rfl⟩ | ⟨-, -, rfl⟩
        · rw [pointer, pointer, hrows]
        · change _ ≤ (w.shared.upsertReadState r.key r.messageId).pointer key
          rw [pointer_upsertReadState]
          split_ifs with hkey
          · rw [hkey]
            exact (hok r ht hphase).1 rfl
          · exact le_rfl
        · exact le_rfl

end Step

theorem mem_getReadStates {st : ReadStore} {userId hubId : I64} {item : I64 × I64 × ℤ} :
    item ∈ st.getReadStates userId hubId ↔
      st.readState.lookup ⟨userId, hubId, item.1⟩ = some ⟨item.2.1, item.2.2⟩ := by
  rw [getReadStates, List.mem_map]
  constructor
  · rintro ⟨⟨key, row⟩, hp, rfl⟩
    obtain ⟨hmem, hkey⟩ := List.mem_filter.mp hp
    obtain ⟨rfl, rfl⟩ := of_decide_eq_true hkey
    exact Dict.mem_pairs.mp hmem
  · intro h
    exact ⟨_, List.mem_filter.mpr ⟨Dict.mem_pairs.mpr h, by simp⟩, rfl⟩

/-- The state after some steps of a run. -/
def after (w : Tasks ℕ ReadStore (Option AckRequest)) (acts : List Act) (n : ℕ) : ReadStore :=
  ((acts.take n).foldl next w).shared

end ReadStore

open ReadStore

/-- **Read pointers**: after every prefix of a run of calls, in any order and with any ids, the
pointer of each user in each channel is the greatest id acknowledged there, if and only if all
steps of the run are in order; and then no pointer that `get_read_states` reports gets smaller. -/
theorem pointers_exact_iff {w : Tasks ℕ ReadStore (Option AckRequest)} (hw : ReadStore.Init w)
    (acts : List ReadStore.Act) :
    ((∀ n, (after w acts n).PointersExact) ↔ System.Accepted InOrder ReadStore.next w acts) ∧
    (System.Accepted InOrder ReadStore.next w acts → ∀ n m, n ≤ m → ∀ userId hubId,
      ∀ item ∈ (after w acts n).getReadStates userId hubId,
        ∃ item' ∈ (after w acts m).getReadStates userId hubId,
          item'.1 = item.1 ∧ item.2.1 ≤ item'.2.1) := by
  constructor
  · have hstart : w.shared.PointersExact := by
      intro key
      obtain ⟨-, hrows, hacked⟩ := hw
      rw [pointer, hrows, AList.lookup_empty, ackedOf, hacked]
      rfl
    exact (System.accepted_iff_forall_take
      (I := fun w : Tasks ℕ ReadStore (Option AckRequest) => w.shared.PointersExact)
      (fun w act h => PointersExact.next_iff h act) hstart acts).symm
  · intro hok n m hnm userId hubId item hitem
    have hle : (after w acts n).pointer ⟨userId, hubId, item.1⟩ ≤
        (after w acts m).pointer ⟨userId, hubId, item.1⟩ :=
      hok.le_of_le (f := fun w => w.shared.pointer ⟨userId, hubId, item.1⟩)
        (fun w act hact => pointer_le_next hact _) hnm
    rw [pointer, pointer, mem_getReadStates.mp hitem] at hle
    cases hlook : (after w acts m).readState.lookup ⟨userId, hubId, item.1⟩ with
    | none =>
      rw [hlook] at hle
      exact absurd hle (WithBot.not_coe_le_bot _)
    | some row =>
      rw [hlook] at hle
      exact ⟨(item.1, row.lastReadMessageId, row.mentionCount), mem_getReadStates.mpr hlook, rfl,
        WithBot.coe_le_coe.mp hle⟩

section Seed

open Hub.Seed

/-- The service without Redis, before any call. -/
def unreadService : Tasks ℕ ReadStore (Option AckRequest) := ⟨⟨∅, none, []⟩, fun _ => none⟩

/-- Bob acknowledges a message; the call gets as far as its statement. -/
def bobAcks (i : ℕ) (messageId : I64) : List ReadStore.Act :=
  [.task i (.arrive ⟨bob, "bob", hub⟩ general messageId), .task i (.authorize true)]

/-- The messages 1 and 2, one after the other. -/
def oneThenTwo : List ReadStore.Act :=
  bobAcks 0 (i64 1) ++ .task 0 .next :: bobAcks 1 (i64 2) ++ [.task 1 .next]

/-- The same calls, with the statements in the other order. -/
def twoThenOne : List ReadStore.Act :=
  bobAcks 0 (i64 1) ++ bobAcks 1 (i64 2) ++ [.task 1 .next, .task 0 .next]

theorem init_unreadService : ReadStore.Init unreadService := ⟨fun _ => rfl, rfl, rfl⟩

theorem pointers_exact_oneThenTwo :
    System.Accepted InOrder ReadStore.next unreadService oneThenTwo ∧
    ∀ n, (after unreadService oneThenTwo n).PointersExact := by
  have hok : System.Accepted InOrder ReadStore.next unreadService oneThenTwo := by decide
  exact ⟨hok, (pointers_exact_iff init_unreadService oneThenTwo).1.mpr hok⟩

/-- **The pointer moves back** from 2 to 1. -/
theorem moved_back : ReadStore.Init unreadService ∧
    (after unreadService twoThenOne 5).pointer ⟨bob, hub, general⟩ = (i64 2 : WithBot I64) ∧
    (after unreadService twoThenOne 6).pointer ⟨bob, hub, general⟩ = (i64 1 : WithBot I64) ∧
    (after unreadService twoThenOne 6).ackedOf ⟨bob, hub, general⟩ = [i64 1, i64 2] ∧
    (after unreadService twoThenOne 6).getReadStates bob hub = [(general, i64 1, 0)] := by
  refine ⟨init_unreadService, ?_, ?_, ?_, ?_⟩ <;> decide

end Seed

end Chat

end MateHub
