import MateHub.Lib.Runs
import MateHub.Video.Dispatcher
import MateHub.Video.Scripted

/-!
# The pool of media shards and the dispatcher

The shards own disjoint sets of sessions, by the number of the session. They and the
dispatcher run side by side and share the two routing tables. In the transition system of
this file a shard decides what its step comes to when it begins it. The pieces of the step, which
are its writes to the tables and the changes of what it has for itself, follow one by one in their
order, with pieces of the others and accesses of the dispatcher between them.

* The table of the ufrags is exact while a shard runs: between two steps of it the table has one
  entry for each participant of the shard and no other entry for the shard
  (`MateHub.Video.Pool.ufrags_exact`). The entries of a shard that has ended stay
  (`MateHub.Video.Pool.entries_outlive`).
* The table of the addresses is not: the dispatcher may bind an address to a participant
  that has left since its ufrag was looked up, and an address that is bound is not looked up
  by its ufrag again (`MateHub.Video.Pool.stale_and_misrouted`). What does hold is
  `MateHub.Video.Pool.bound_and_routed`.

The invariants are about the state in which the step of a shard ends
(`MateHub.Video.Pool.final`), so that they hold in the middle of a step too.
-/

namespace MateHub

namespace Video

/-- `shard_for_session`. -/
def shardForSession (sid : SessionId) (numShards : ℕ) : ℕ :=
  if numShards = 0 then 0 else sid.toNat % numShards

/-- The media threads, the dispatcher and the tables that they share. -/
structure Pool (S : Str0m) (n : ℕ) where
  shards : Fin n → SfuShard S
  sharedMaps : SharedMaps
  /-- The pieces of a shard's last step that are still to come. -/
  todo : Fin n → List (Chore S)
  running : Fin n → Bool
  dispatcher : Dispatcher
  /-- History: whom a ufrag was registered for. -/
  drawn : String → Option ShardTarget
  /-- History: the ufrag of the credentials that a participant's transport was built with. -/
  localUfrag : SessionId → ParticipantId → Option String
  /-- History: the datagrams that the dispatcher is done with. -/
  handled : List Handled

namespace Pool

variable {S : Str0m} {n : ℕ}

/-- `SfuPool::spawn`. -/
def spawn (S : Str0m) (n : ℕ) (candidateAddrs : List SocketAddr) (zombieTimeout : Duration) :
    Pool S n where
  shards := fun i => .new i candidateAddrs zombieTimeout
  sharedMaps := ⟨∅, ∅⟩
  todo := fun _ => []
  running := fun _ => true
  dispatcher := .idle
  drawn := fun _ => none
  localUfrag := fun _ _ => none
  handled := []

/-- What may happen in a pool. -/
inductive Act (n : ℕ)
  | shard (i : Fin n) (input : SfuShard.Input)
  /-- The next piece of a shard's step. -/
  | proceed (i : Fin n)
  /-- The thread of a shard ends. -/
  | exit (i : Fin n)
  | receive (d : Datagram)
  /-- The next access of the dispatcher; the flag says whether the channel has room. -/
  | dispatch (room : Bool)

/-- A shard handles the commands for its own sessions: `SfuPool::send` sends it no other, and
neither does the dispatcher (`MateHub.Video.Pool.homed_reach`). -/
def routed (i : Fin n) (input : SfuShard.Input) : Bool :=
  input.sid?.all fun sid => shardForSession sid n = i

/-- The thread runs, and its last step is done. -/
def ready (w : Pool S n) (i : Fin n) : Bool := w.running i && (w.todo i).isEmpty

/-- A shard and the tables as it finds them. -/
def loaded (w : Pool S n) (i : Fin n) : SfuShard S :=
  { w.shards i with sharedMaps := w.sharedMaps }

/-- The pool as a shard begins a step; the pieces of the step are still to come. -/
def acted (w : Pool S n) (i : Fin n) (input : SfuShard.Input) (st' : SfuShard S) : Pool S n :=
  { w with
    todo := Function.update w.todo i ((w.loaded i).chores input st')
    drawn := match (w.loaded i).registration? input with
      | none => w.drawn
      | some r => Function.update w.drawn r.1 (some r.2)
    localUfrag := match (w.loaded i).registration? input with
      | none => w.localUfrag
      | some r => fun sid pid =>
        if sid = r.2.sid ∧ pid = r.2.pid then some r.1 else w.localUfrag sid pid }

/-- The pool after a write of a shard to the tables. -/
def wrote (w : Pool S n) (i : Fin n) (e : MapWrite) (rest : List (Chore S)) : Pool S n :=
  { w with sharedMaps := w.sharedMaps.write e, todo := Function.update w.todo i rest }

/-- The pool after a change of what a shard has for itself. -/
def changed (w : Pool S n) (i : Fin n) (st : SfuShard S) (rest : List (Chore S)) : Pool S n :=
  { w with shards := Function.update w.shards i st, todo := Function.update w.todo i rest }

/-- The pool after the thread of a shard has ended, and with it what the shard had for itself. -/
def exited (w : Pool S n) (i : Fin n) : Pool S n :=
  { w with
    running := Function.update w.running i false
    shards := Function.update w.shards i { w.shards i with sessions := ∅ } }

/-- The pool after an access of the dispatcher. -/
def dispatched (w : Pool S n) (room : Bool) : Pool S n :=
  { w with
    sharedMaps := (w.dispatcher.next w.sharedMaps room).1
    dispatcher := (w.dispatcher.next w.sharedMaps room).2.1
    handled := w.handled ++ (w.dispatcher.next w.sharedMaps room).2.2.toList }

/-- What an act makes of the pool. -/
def next (w : Pool S n) : Act n → Pool S n
  | .shard i input =>
    if w.ready i && routed i input then w.acted i input ((w.loaded i).next input) else w
  | .proceed i =>
    match w.todo i with
    | [] => w
    | .write e :: rest => w.wrote i e rest
    | .own st :: rest => w.changed i st rest
  | .exit i => if w.ready i then w.exited i else w
  | .receive d =>
    match w.dispatcher with
    | .idle => { w with dispatcher := .received d }
    | _ => w
  | .dispatch room => w.dispatched room

/-- A step of the pool. -/
inductive Step : Pool S n → Act n → Pool S n → Prop
  | next (w : Pool S n) (a : Act n) : Step w a (w.next a)
  /-- The hash maps of a shard are met in another order. -/
  | rehash {w : Pool S n} {i : Fin n} {st' : SfuShard S} : w.ready i = true →
    SfuShard.Rehashed (w.loaded i) st' → Step w (.shard i .rehash) (w.acted i .rehash st')

/-- A pool that starts with no session, and its steps in any order. -/
def system (S : Str0m) (n : ℕ) : System (Pool S n) (Act n) where
  init := fun w => ∃ candidateAddrs zombieTimeout, w = spawn S n candidateAddrs zombieTimeout
  step := Step

variable {w w' : Pool S n} {i j : Fin n}

/-- **What a step does**: a shard begins a step, takes a piece of one or ends, or the dispatcher
acts, or nothing happens. -/
theorem step_cases {a : Act n} (h : Step w a w') :
    w' = w ∨
    (∃ i input st', a = .shard i input ∧ w.ready i = true ∧ routed i input = true ∧
      SfuShard.Step (w.loaded i) input st' ∧ w' = w.acted i input st') ∨
    (∃ i e rest, w.todo i = .write e :: rest ∧ w' = w.wrote i e rest) ∨
    (∃ i st rest, w.todo i = .own st :: rest ∧ w' = w.changed i st rest) ∨
    (∃ i, w.ready i = true ∧ w' = w.exited i) ∨
    (∃ d, w.dispatcher = .idle ∧ w' = { w with dispatcher := .received d }) ∨
    ∃ room, a = .dispatch room ∧ w' = w.dispatched room := by
  cases h with
  | rehash hready hr => exact .inr (.inl ⟨_, _, _, rfl, hready, rfl, .rehash hr, rfl⟩)
  | next =>
    cases a with
    | shard i input =>
      dsimp only [next]
      split
      · rename_i hok
        rw [Bool.and_eq_true] at hok
        exact .inr (.inl ⟨i, input, _, rfl, hok.1, hok.2, .next _ _, rfl⟩)
      · exact .inl rfl
    | proceed i =>
      dsimp only [next]
      split
      · exact .inl rfl
      · rename_i e rest htodo
        exact .inr (.inr (.inl ⟨i, e, rest, htodo, rfl⟩))
      · rename_i st rest htodo
        exact .inr (.inr (.inr (.inl ⟨i, st, rest, htodo, rfl⟩)))
    | exit i =>
      dsimp only [next]
      split
      · rename_i hready
        exact .inr (.inr (.inr (.inr (.inl ⟨i, hready, rfl⟩))))
      · exact .inl rfl
    | receive d =>
      dsimp only [next]
      split
      · rename_i hidle
        exact .inr (.inr (.inr (.inr (.inr (.inl ⟨d, hidle, rfl⟩)))))
      · exact .inl rfl
    | dispatch room => exact .inr (.inr (.inr (.inr (.inr (.inr ⟨room, rfl, rfl⟩)))))

/-- A shard takes the next input when it runs and has done with the last one. -/
theorem ready_iff : w.ready i = true ↔ w.running i = true ∧ w.todo i = [] := by
  rw [ready, Bool.and_eq_true, List.isEmpty_iff]

/-! ### What a step comes to -/

/-- The writes of a shard's step that are still to come. -/
def owed (w : Pool S n) (i : Fin n) : List MapWrite := (w.todo i).filterMap Chore.write?

/-- What a shard has for itself when its step is done. -/
def final (w : Pool S n) (i : Fin n) : SfuShard S := (w.todo i).foldl Chore.after (w.shards i)

/-- Where nothing is to be done, nothing is owed to the tables. -/
theorem owed_of_todo (h : w.todo i = []) : w.owed i = [] := by
  rw [owed, h]
  rfl

/-- And the shard is as it will be. -/
theorem final_of_todo (h : w.todo i = []) : w.final i = w.shards i := by
  rw [final, h]
  rfl

/-- What a step of a shard is about to do. -/
@[simp] theorem todo_acted (w : Pool S n) (i j : Fin n) (input : SfuShard.Input)
    (st' : SfuShard S) : (w.acted i input st').todo j =
      if j = i then (w.loaded i).chores input st' else w.todo j :=
  Function.update_apply w.todo i _ j

/-- A write to a table is done with. -/
@[simp] theorem todo_wrote (w : Pool S n) (i j : Fin n) (e : MapWrite) (rest : List (Chore S)) :
    (w.wrote i e rest).todo j = if j = i then rest else w.todo j :=
  Function.update_apply w.todo i rest j

/-- A change of a shard is done with. -/
@[simp] theorem todo_changed (w : Pool S n) (i j : Fin n) (st : SfuShard S)
    (rest : List (Chore S)) : (w.changed i st rest).todo j = if j = i then rest else w.todo j :=
  Function.update_apply w.todo i rest j

/-- A change is one of its shard only. -/
theorem shards_changed (w : Pool S n) (i j : Fin n) (st : SfuShard S) (rest : List (Chore S)) :
    (w.changed i st rest).shards j = if j = i then st else w.shards j :=
  Function.update_apply w.shards i st j

/-- A shard that exits drops its sessions, and no other does. -/
theorem shards_exited (w : Pool S n) (i j : Fin n) : (w.exited i).shards j =
    if j = i then { w.shards i with sessions := ∅ } else w.shards j :=
  Function.update_apply w.shards i _ j

/-- A step of a shard owes the tables what the step writes. -/
@[simp] theorem owed_acted (w : Pool S n) (i j : Fin n) (input : SfuShard.Input)
    (st' : SfuShard S) : (w.acted i input st').owed j =
      if j = i then (w.loaded i).writes input else w.owed j := by
  rw [owed, todo_acted]
  split
  · exact SfuShard.writes_chores _ _ _
  · rfl

/-- A step of a shard ends in the state after it. -/
@[simp] theorem final_acted (w : Pool S n) (i j : Fin n) (input : SfuShard.Input)
    (st' : SfuShard S) : (w.acted i input st').final j = if j = i then st' else w.final j := by
  rw [final, todo_acted]
  split
  · rw [SfuShard.chores, List.foldl_append]
    rfl
  · rfl

/-- A write was owed, and the others are owed still. -/
theorem owed_wrote {e : MapWrite} {rest : List (Chore S)} (htodo : w.todo i = .write e :: rest)
    (j : Fin n) : w.owed j = if j = i then e :: (w.wrote i e rest).owed j
      else (w.wrote i e rest).owed j := by
  rw [owed, owed, todo_wrote]
  split
  · rename_i hj
    rw [hj, htodo]
    rfl
  · rfl

/-- A write to a table does not change where the step ends. -/
@[simp] theorem final_wrote {e : MapWrite} {rest : List (Chore S)}
    (htodo : w.todo i = .write e :: rest) (j : Fin n) : (w.wrote i e rest).final j = w.final j := by
  rw [final, final, todo_wrote]
  split
  · rename_i hj
    rw [hj, htodo]
    rfl
  · rfl

/-- A change of the shard writes nothing to the tables. -/
@[simp] theorem owed_changed {st : SfuShard S} {rest : List (Chore S)}
    (htodo : w.todo i = .own st :: rest) (j : Fin n) :
    (w.changed i st rest).owed j = w.owed j := by
  rw [owed, owed, todo_changed]
  split
  · rename_i hj
    rw [hj, htodo]
    rfl
  · rfl

/-- Nor does it change where the step ends. -/
@[simp] theorem final_changed {st : SfuShard S} {rest : List (Chore S)}
    (htodo : w.todo i = .own st :: rest) (j : Fin n) :
    (w.changed i st rest).final j = w.final j := by
  rw [final, final, todo_changed, shards_changed]
  split
  · rename_i hj
    rw [hj, htodo]
    rfl
  · rfl

/-- A shard that ends is between two steps, and has no session after it. -/
theorem final_exited (hready : w.ready i = true) (j : Fin n) : (w.exited i).final j =
    if j = i then { w.shards i with sessions := ∅ } else w.final j := by
  rw [final, shards_exited, show (w.exited i).todo = w.todo from rfl]
  split
  · rename_i hj
    rw [hj, (ready_iff.mp hready).2]
    rfl
  · rfl

/-- With nobody between its pieces, a step makes of the tables and of the shard what the handler
computes. -/
theorem settle_acted {input : SfuShard.Input} {st' : SfuShard S}
    (h : SfuShard.Step (w.loaded i) input st') :
    (w.acted i input st').sharedMaps.settle ((w.acted i input st').owed i) = st'.sharedMaps ∧
      (w.acted i input st').final i = st' := by
  rw [owed_acted, final_acted, if_pos rfl, if_pos rfl]
  exact ⟨(SfuShard.turnover_step h).sharedMaps.symm, rfl⟩

/-- What is still to be written after a write was still to be written before. -/
theorem mem_owed_of_wrote {e e' : MapWrite} {rest : List (Chore S)}
    (htodo : w.todo i = .write e :: rest) (h : e' ∈ (w.wrote i e rest).owed j) :
    e' ∈ w.owed j := by
  rw [owed_wrote htodo]
  split
  · exact List.mem_cons_of_mem e h
  · exact h

/-- The write that is next is owed. -/
theorem mem_owed_self {e : MapWrite} {rest : List (Chore S)}
    (htodo : w.todo i = .write e :: rest) : e ∈ w.owed i := by
  rw [owed_wrote htodo, if_pos rfl]
  exact List.mem_cons_self

/-! ### Everything is handled by the shard that it belongs to -/

/-- A target names the shard that owns its session. -/
def AtHome (n : ℕ) (t : ShardTarget) : Prop :=
  ∃ i : Fin n, t.shard = i ∧ shardForSession t.sid n = i

/-- **Every session, every entry and every datagram is with its shard.** -/
structure Homed (w : Pool S n) : Prop where
  index : ∀ i, (w.final i).shardIndex = i
  sessions : ∀ i sid, ((w.final i).session? sid).isSome = true → shardForSession sid n = i
  housed : ∀ i sid, (w.final i).Housed sid
  registers : ∀ (i : Fin n) ufrag (t : ShardTarget), .register ufrag t ∈ w.owed i →
    t.shard = i ∧ shardForSession t.sid n = i
  sweeps : ∀ (i : Fin n) sid pid, .forgetUfrags sid pid ∈ w.owed i → shardForSession sid n = i
  ufrags : ∀ ufrag t, w.sharedMaps.ufragToTarget.lookup ufrag = some t → AtHome n t
  addrs : ∀ a t, w.sharedMaps.addrToTarget.lookup a = some t → AtHome n t
  inHand : ∀ t, w.dispatcher.target? = some t → AtHome n t
  handled : ∀ e ∈ w.handled, ∀ t, e.target = some t → AtHome n t

/-- Who is registered is in a session of the shard. -/
theorem registered_home {input : SfuShard.Input} (hroute : routed i input = true)
    {ufrag : String} {t : ShardTarget}
    (hr : (w.loaded i).registration? input = some (ufrag, t)) :
    t.shard = (w.shards i).shardIndex ∧ shardForSession t.sid n = i := by
  obtain ⟨sid, pid, userId, sdpOffer, replyTx, creds, now, fuel, rfl, heq⟩ :=
    SfuShard.registration?_eq_some hr
  obtain ⟨rfl, rfl⟩ := Prod.mk.inj heq
  exact ⟨rfl, of_decide_eq_true hroute⟩

/-- A step that begins leaves all at home. -/
theorem Homed.acted (h : w.Homed) (hready : w.ready i = true) {input : SfuShard.Input}
    {st' : SfuShard S} (hroute : routed i input = true)
    (hstep : SfuShard.Step (w.loaded i) input st') : (w.acted i input st').Homed := by
  have hfinal := final_of_todo (ready_iff.mp hready).2
  have hindex : (w.shards i).shardIndex = i := hfinal ▸ h.index i
  have hsessions (sid) (hs : ((w.loaded i).session? sid).isSome = true) :
      shardForSession sid n = i := h.sessions i sid (hfinal ▸ hs)
  refine
    { index := fun j => ?_
      sessions := fun j sid hs => ?_
      housed := fun j sid => ?_
      registers := fun j ufrag t hmem => ?_
      sweeps := fun j sid pid hmem => ?_
      ufrags := h.ufrags
      addrs := h.addrs
      inHand := h.inHand
      handled := h.handled }
  · rw [final_acted]
    split
    · rename_i hj
      exact (SfuShard.turnover_step hstep).shardIndex.trans (hj ▸ hindex)
    · exact h.index j
  · rw [final_acted] at hs
    split at hs
    · rename_i hj
      subst hj
      rcases (SfuShard.turnover_step hstep).session sid hs with hs | ⟨ufrag, pid, hr⟩
      · exact hsessions sid hs
      · exact (registered_home hroute hr).2
    · exact h.sessions j sid hs
  · rw [final_acted]
    split
    · have hhoused := h.housed i sid
      rw [hfinal] at hhoused
      exact (SfuShard.turnover_step hstep).housed sid hhoused
    · exact h.housed j sid
  · rw [owed_acted] at hmem
    split at hmem
    · rename_i hj
      subst hj
      obtain ⟨hshard, hsid⟩ := registered_home hroute (SfuShard.register_mem_writes.mp hmem)
      exact ⟨hshard.trans hindex, hsid⟩
    · exact h.registers j ufrag t hmem
  · rw [owed_acted] at hmem
    split at hmem
    · rename_i hj
      subst hj
      rcases SfuShard.sweeps_sid (SfuShard.forgetUfrags_mem_writes.mp hmem) with hsid | hs
      · rw [routed, hsid] at hroute
        exact of_decide_eq_true hroute
      · exact hsessions sid hs
    · exact h.sweeps j sid pid hmem

/-- A write to the tables leaves all at home: its target is of this shard. -/
theorem Homed.wrote (h : w.Homed) {e : MapWrite} {rest : List (Chore S)}
    (htodo : w.todo i = .write e :: rest) : (w.wrote i e rest).Homed where
  index j := by
    rw [final_wrote htodo]
    exact h.index j
  sessions j := by
    rw [final_wrote htodo]
    exact h.sessions j
  housed j := by
    rw [final_wrote htodo]
    exact h.housed j
  registers j ufrag t hmem := h.registers j ufrag t (mem_owed_of_wrote htodo hmem)
  sweeps j sid pid hmem := h.sweeps j sid pid (mem_owed_of_wrote htodo hmem)
  ufrags ufrag t ht := by
    rcases SharedMaps.ufrags_write ht with ht | rfl
    · exact h.ufrags ufrag t ht
    · exact ⟨i, h.registers i ufrag t (mem_owed_self htodo)⟩
  addrs a t ht := h.addrs a t (SharedMaps.addrs_write.mp ht).1
  inHand := h.inHand
  handled := h.handled

/-- What a shard has for itself is nobody else's. -/
theorem Homed.changed (h : w.Homed) {st : SfuShard S} {rest : List (Chore S)}
    (htodo : w.todo i = .own st :: rest) : (w.changed i st rest).Homed where
  index j := by
    rw [final_changed htodo]
    exact h.index j
  sessions j := by
    rw [final_changed htodo]
    exact h.sessions j
  housed j := by
    rw [final_changed htodo]
    exact h.housed j
  registers j := by
    rw [owed_changed htodo]
    exact h.registers j
  sweeps j := by
    rw [owed_changed htodo]
    exact h.sweeps j
  ufrags := h.ufrags
  addrs := h.addrs
  inHand := h.inHand
  handled := h.handled

/-- A shard that ends has no session left. -/
theorem Homed.exited (h : w.Homed) (hready : w.ready i = true) : (w.exited i).Homed where
  index j := by
    rw [final_exited hready]
    split
    · rename_i hj
      rw [hj, ← h.index i, final_of_todo (ready_iff.mp hready).2]
    · exact h.index j
  sessions j sid hs := by
    rw [final_exited hready] at hs
    split at hs
    · cases hs
    · exact h.sessions j sid hs
  housed j sid := by
    rw [final_exited hready]
    split
    · intro hs
      cases hs
    · exact h.housed j sid
  registers := h.registers
  sweeps := h.sweeps
  ufrags := h.ufrags
  addrs := h.addrs
  inHand := h.inHand
  handled := h.handled

/-- The dispatcher has targets from the tables only. -/
theorem Homed.dispatched (h : w.Homed) (room : Bool) : (w.dispatched room).Homed where
  index := h.index
  sessions := h.sessions
  housed := h.housed
  registers := h.registers
  sweeps := h.sweeps
  ufrags ufrag t ht := by
    dsimp only [Pool.dispatched] at ht
    rw [Dispatcher.ufragToTarget_next] at ht
    exact h.ufrags ufrag t ht
  addrs a t ht := by
    rcases Dispatcher.addrToTarget_next ht with ht | ht
    · exact h.addrs a t ht
    · exact h.inHand t (Dispatcher.target?_of_binding? ht)
  inHand t ht := by
    rcases Dispatcher.target?_next ht with ht | ⟨a, ht⟩ | ⟨ufrag, ht⟩
    · exact h.inHand t ht
    · exact h.addrs a t ht
    · exact h.ufrags ufrag t ht
  handled e he t ht := by
    rcases List.mem_append.mp he with he | he
    · exact h.handled e he t ht
    · exact h.inHand t (Dispatcher.handled_next (Option.mem_toList.mp he) ht)

/-- **What happens in a pool** leaves all at home. -/
theorem Homed.step {a : Act n} (h : w.Homed) (hstep : Step w a w') : w'.Homed := by
  rcases step_cases hstep with rfl | ⟨i, input, st', -, hready, hroute, hst, rfl⟩ |
    ⟨i, e, rest, htodo, rfl⟩ | ⟨i, st, rest, htodo, rfl⟩ | ⟨i, hready, rfl⟩ | ⟨d, hidle, rfl⟩ |
    ⟨room, -, rfl⟩
  · exact h
  · exact h.acted hready hroute hst
  · exact h.wrote htodo
  · exact h.changed htodo
  · exact h.exited hready
  · exact { h with inHand := fun t ht => by cases ht }
  · exact h.dispatched room

/-- A pool that is spawned has all at home. -/
theorem homed_spawn (candidateAddrs : List SocketAddr) (zombieTimeout : Duration) :
    (spawn S n candidateAddrs zombieTimeout).Homed where
  index _ := rfl
  sessions _ _ hs := by cases hs
  housed _ _ hs := by cases hs
  registers _ _ _ hmem := by cases hmem
  sweeps _ _ _ hmem := by cases hmem
  ufrags _ _ ht := by cases ht
  addrs _ _ ht := by cases ht
  inHand _ ht := by cases ht
  handled _ he := by cases he

/-- **Whatever the order of the steps, the dispatcher and the shards agree on which shard
owns a session.** -/
theorem homed_reach {ok : Pool S n → Act n → Prop} (h : (system S n).Reach ok w) : w.Homed := by
  refine h.invariant (I := Homed) ?_ fun w a w' hw _ hstep => hw.step hstep
  rintro w ⟨candidateAddrs, zombieTimeout, rfl⟩
  exact homed_spawn candidateAddrs zombieTimeout

/-! ### The table of the ufrags is exact -/

/-- Whether a participant is in a shard. -/
def Live (w : Pool S n) (i : Fin n) (sid : SessionId) (pid : ParticipantId) : Prop :=
  ((w.shards i).participant? sid pid).isSome = true

/-- Whether a participant is in a shard when the step of the shard is done. -/
def Stays (w : Pool S n) (i : Fin n) (sid : SessionId) (pid : ParticipantId) : Prop :=
  ((w.final i).participant? sid pid).isSome = true

/-- Between two steps, who stays is who is live. -/
theorem stays_iff (h : w.todo i = []) {sid : SessionId} {pid : ParticipantId} :
    w.Stays i sid pid ↔ w.Live i sid pid := by
  rw [Stays, Live, final_of_todo h]

/-- The local ufrags are distinct: that of a new participant was registered for nobody. -/
def Fresh (w : Pool S n) : Act n → Prop
  | .shard _ (.command (.join _ _ _ _ _) creds _ _) => w.drawn creds.ufrag = none
  | _ => True

/-- **The table of the ufrags is exact**, once what the shards still have to write is
written. -/
structure Exact (w : Pool S n) : Prop where
  drawn : ∀ ufrag t, w.sharedMaps.ufragToTarget.lookup ufrag = some t → w.drawn ufrag = some t
  pending : ∀ i ufrag t, .register ufrag t ∈ w.owed i → w.drawn ufrag = some t
  named : ∀ i sid pid, w.Stays i sid pid → ∃ ufrag, w.localUfrag sid pid = some ufrag
  exact : ∀ i, w.running i = true → ∀ ufrag sid pid,
    (w.sharedMaps.settle (w.owed i)).owned i ufrag = some ⟨i, sid, pid⟩ ↔
      w.Stays i sid pid ∧ w.localUfrag sid pid = some ufrag

section Acted

variable {input : SfuShard.Input} {st' : SfuShard S}

/-- What a registration says, where it is of a shard of the pool. -/
theorem registration_cases (h : w.Homed) (hready : w.ready i = true)
    (hroute : routed i input = true) (hfresh : w.Fresh (.shard i input)) :
    (w.loaded i).registration? input = none ∨ ∃ ufrag sid pid,
      (w.loaded i).registration? input = some (ufrag, ⟨i, sid, pid⟩) ∧
        shardForSession sid n = i ∧ w.drawn ufrag = none := by
  rcases hr : (w.loaded i).registration? input with _ | ⟨ufrag, t⟩
  · exact .inl rfl
  · right
    obtain ⟨hshard, hsid⟩ := registered_home hroute hr
    obtain ⟨sid, pid, userId, sdpOffer, replyTx, creds, now, fuel, rfl, heq⟩ :=
      SfuShard.registration?_eq_some hr
    obtain ⟨rfl, rfl⟩ := Prod.mk.inj heq
    refine ⟨creds.ufrag, sid, pid, ?_, hsid, hfresh⟩
    rw [← h.index i, final_of_todo (ready_iff.mp hready).2]
    rfl

/-- The ufrags that have been drawn stay drawn, each for its target. -/
theorem drawn_acted (h : w.Homed) (hready : w.ready i = true) (hroute : routed i input = true)
    (hfresh : w.Fresh (.shard i input)) {ufrag : String} {t : ShardTarget}
    (ht : w.drawn ufrag = some t) : (w.acted i input st').drawn ufrag = some t := by
  rcases registration_cases h hready hroute hfresh with hr | ⟨ufrag', sid, pid, hr, -, hnone⟩
  · simp only [acted, hr]
    exact ht
  · simp only [acted, hr]
    rw [Function.update_of_ne, ht]
    rintro rfl
    rw [ht] at hnone
    cases hnone

/-- The ufrag of a participant after a step that registers one. -/
theorem localUfrag_acted {ufrag : String} {t : ShardTarget}
    (hr : (w.loaded i).registration? input = some (ufrag, t)) (sid : SessionId)
    (pid : ParticipantId) : (w.acted i input st').localUfrag sid pid =
      if sid = t.sid ∧ pid = t.pid then some ufrag else w.localUfrag sid pid := by
  simp only [acted, hr]

/-- The table after a step of a shard that found it exact. -/
theorem Exact.acted_self (h : w.Exact) (hh : w.Homed) (hready : w.ready i = true)
    (hroute : routed i input = true) (hfresh : w.Fresh (.shard i input))
    (hstep : SfuShard.Step (w.loaded i) input st') (ufrag : String) (sid : SessionId)
    (pid : ParticipantId) :
    (w.sharedMaps.settle ((w.loaded i).writes input)).owned i ufrag = some ⟨i, sid, pid⟩ ↔
      (st'.participant? sid pid).isSome = true ∧
        (w.acted i input st').localUfrag sid pid = some ufrag := by
  obtain ⟨hrun, htodo⟩ := ready_iff.mp hready
  have hturn := SfuShard.turnover_step hstep
  have hbefore (ufrag sid pid) : w.sharedMaps.owned i ufrag = some ⟨i, sid, pid⟩ ↔
      w.Live i sid pid ∧ w.localUfrag sid pid = some ufrag := by
    have hexact := h.exact i hrun ufrag sid pid
    rwa [owed_of_todo htodo, stays_iff htodo] at hexact
  have hindex : (w.loaded i).shardIndex = i := by
    have hindex := hh.index i
    rwa [final_of_todo htodo] at hindex
  -- what the sweeps leave
  have hleft : (w.sharedMaps.settle (((w.loaded i).sweeps input).flatMap
      Sweep.writes)).ufragToTarget.lookup ufrag = some ⟨i, sid, pid⟩ ↔
        (w.Live i sid pid ∧ w.localUfrag sid pid = some ufrag) ∧
          swept ((w.loaded i).sweeps input) sid pid = false := by
    rw [← hbefore, SharedMaps.owned_eq_some, SharedMaps.settle_sweeps]
    dsimp only
    rw [SharedMaps.lookup_sweeps, Option.filter_eq_some_iff, Bool.not_eq_true']
    exact and_congr_left fun _ => (and_iff_left rfl).symm
  rw [SharedMaps.owned_eq_some, SfuShard.writes, SharedMaps.settle_append, hturn.live, hindex,
    and_iff_left rfl]
  rcases registration_cases hh hready hroute hfresh with hr | ⟨ufrag', sid', pid', hr, hsid, hnone⟩
  · have hlocal : (w.acted i input st').localUfrag = w.localUfrag := by
      simp only [acted, hr]
    rw [hr, hlocal]
    refine hleft.trans ?_
    rw [or_iff_left (by rintro ⟨_, hsome⟩; cases hsome)]
    exact and_right_comm
  · rw [hr]
    change (AList.insert ufrag' _ _).lookup ufrag = _ ↔ _
    rw [Dict.lookup_insert_eq]
    by_cases hkey : sid = sid' ∧ pid = pid'
    · obtain ⟨rfl, rfl⟩ := hkey
      have hlocal : (w.acted i input st').localUfrag sid pid = some ufrag' :=
        (localUfrag_acted hr sid pid).trans (if_pos ⟨rfl, rfl⟩)
      rw [hlocal]
      split
      · rename_i heq
        subst heq
        exact iff_of_true rfl ⟨.inr ⟨_, rfl⟩, rfl⟩
      · rename_i hne
        refine iff_of_false (fun hold => ?_) fun hnew => hne (Option.some.inj hnew.2).symm
        -- the join takes its predecessor out of the table
        obtain ⟨⟨hlive, -⟩, hkept⟩ := hleft.mp hold
        rw [hturn.place ufrag' sid pid (by rw [hr, hindex]) hlive] at hkept
        cases hkept
    · have hlocal : (w.acted i input st').localUfrag sid pid = w.localUfrag sid pid :=
        (localUfrag_acted hr sid pid).trans (if_neg hkey)
      rw [hlocal, or_iff_left (by rintro ⟨_, hsome⟩; cases hsome; exact hkey ⟨rfl, rfl⟩)]
      split
      · rename_i heq
        subst heq
        refine iff_of_false (fun heq => ?_) fun hold => ?_
        · cases heq
          exact hkey ⟨rfl, rfl⟩
        · -- the ufrag was registered for nobody
          have hentry := (hbefore ufrag sid pid).mpr ⟨hold.1.1, hold.2⟩
          have hdrawn := h.drawn ufrag _ (SharedMaps.owned_eq_some.mp hentry).1
          rw [hnone] at hdrawn
          cases hdrawn
      · exact hleft.trans and_right_comm

/-- A join gives nobody else's participant another ufrag. -/
theorem localUfrag_of_ne (hh : w.Homed) (hready : w.ready i = true) (hroute : routed i input = true)
    (hfresh : w.Fresh (.shard i input)) (hj : j ≠ i) {sid : SessionId} {pid : ParticipantId}
    (hstays : w.Stays j sid pid) :
    (w.acted i input st').localUfrag sid pid = w.localUfrag sid pid := by
  rcases registration_cases hh hready hroute hfresh with hr | ⟨ufrag', sid', pid', hr, hsid, -⟩
  · simp only [acted, hr]
  · rw [localUfrag_acted hr, if_neg]
    rintro ⟨rfl, -⟩
    have hhome := hh.sessions j sid (SfuShard.session?_of_participant? hstays)
    exact hj (Fin.val_injective (hhome.symm.trans hsid))

/-- Who is there after a step of a shard was there before, or is registered by it. -/
theorem stays_acted (hready : w.ready i = true) (hstep : SfuShard.Step (w.loaded i) input st')
    {sid : SessionId} {pid : ParticipantId} (hstays : (w.acted i input st').Stays j sid pid) :
    w.Stays j sid pid ∨ ∃ ufrag shard,
      (w.loaded i).registration? input = some (ufrag, ⟨shard, sid, pid⟩) := by
  rw [Stays, final_acted] at hstays
  split at hstays
  · rename_i hj
    subst hj
    rcases ((SfuShard.turnover_step hstep).live sid pid).mp hstays with hold | ⟨ufrag, hr⟩
    · exact .inl ((stays_iff (ready_iff.mp hready).2).mpr hold.1)
    · exact .inr ⟨ufrag, _, hr⟩
  · exact .inl hstays

/-- **A step of a shard that begins** keeps the registry exact, with what it owes. -/
theorem Exact.acted (h : w.Exact) (hh : w.Homed) (hready : w.ready i = true)
    (hroute : routed i input = true) (hfresh : w.Fresh (.shard i input))
    (hstep : SfuShard.Step (w.loaded i) input st') : (w.acted i input st').Exact where
  drawn ufrag t ht := drawn_acted hh hready hroute hfresh (h.drawn ufrag t ht)
  pending j ufrag t hmem := by
    rw [owed_acted] at hmem
    split at hmem
    · have hr := SfuShard.register_mem_writes.mp hmem
      simp only [Pool.acted, hr, Function.update_self]
    · exact drawn_acted hh hready hroute hfresh (h.pending j ufrag t hmem)
  named j sid pid hstays := by
    rcases stays_acted hready hstep hstays with hold | ⟨ufrag, shard, hr⟩
    · obtain ⟨ufrag, hufrag⟩ := h.named j sid pid hold
      rcases hr : (w.loaded i).registration? input with _ | r
      · simp only [Pool.acted, hr]
        exact ⟨ufrag, hufrag⟩
      · rw [localUfrag_acted hr]
        split
        · exact ⟨_, rfl⟩
        · exact ⟨ufrag, hufrag⟩
    · exact ⟨ufrag, (localUfrag_acted hr sid pid).trans (if_pos ⟨rfl, rfl⟩)⟩
  exact j hrun ufrag sid pid := by
    rw [Stays, final_acted, owed_acted]
    split
    · rename_i hj
      subst hj
      exact h.acted_self hh hready hroute hfresh hstep ufrag sid pid
    · rename_i hj
      rw [show (w.acted i input st').sharedMaps = w.sharedMaps from rfl,
        h.exact j hrun ufrag sid pid]
      refine and_congr_right fun hstays => ?_
      rw [localUfrag_of_ne hh hready hroute hfresh hj hstays]

end Acted

/-- A write of another shard leaves the entries of a shard. -/
theorem Exact.owned_write (h : w.Exact) (hh : w.Homed) {e : MapWrite} (hmem : e ∈ w.owed i)
    (hj : j ≠ i) (ufrag : String) :
    (w.sharedMaps.write e).owned j ufrag = w.sharedMaps.owned j ufrag := by
  have hij : (i : ℕ) ≠ j := fun heq => hj (Fin.val_injective heq.symm)
  refine Option.ext fun t => ?_
  rw [SharedMaps.owned_eq_some, SharedMaps.owned_eq_some]
  refine and_congr_left fun hshard => ?_
  cases e with
  | forgetAddrs sid pid => rfl
  | forgetUfrags sid pid =>
    rw [SharedMaps.write, Dict.lookup_retain, Option.filter_eq_some_iff, Bool.not_eq_true']
    refine and_iff_left_of_imp fun ht => ?_
    -- the sweep is of a session of shard `i`, the entry of a session of shard `j`
    obtain ⟨k, hk, hhome⟩ := hh.ufrags ufrag t ht
    rw [Sweep.hits, Bool.and_eq_false_iff, decide_eq_false_iff_not]
    left
    rintro rfl
    have hhome' := hh.sweeps i t.sid pid hmem
    rw [hhome, ← hk, hshard] at hhome'
    exact hij hhome'.symm
  | register ufrag' t' =>
    rw [SharedMaps.write, Dict.lookup_insert_eq]
    split
    · rename_i heq
      subst heq
      have hdrawn' := h.pending i ufrag t' hmem
      have hshard' := (hh.registers i ufrag t' hmem).1
      -- the ufrag was registered once, and for shard `i`
      refine iff_of_false (fun heq => ?_) fun ht => ?_
      · cases heq
        exact hij (hshard'.symm.trans hshard)
      · obtain rfl : t' = t := Option.some.inj (hdrawn'.symm.trans (h.drawn ufrag t ht))
        exact hij (hshard'.symm.trans hshard)
    · rfl

/-- **A write to the tables** keeps it exact: the less is owed. -/
theorem Exact.wrote (h : w.Exact) (hh : w.Homed) {e : MapWrite} {rest : List (Chore S)}
    (htodo : w.todo i = .write e :: rest) : (w.wrote i e rest).Exact where
  drawn ufrag t ht := by
    rcases SharedMaps.ufrags_write ht with ht | rfl
    · exact h.drawn ufrag t ht
    · exact h.pending i ufrag t (mem_owed_self htodo)
  pending j ufrag t hmem := h.pending j ufrag t (mem_owed_of_wrote htodo hmem)
  named j sid pid := by
    rw [Stays, final_wrote htodo]
    exact h.named j sid pid
  exact j hrun ufrag sid pid := by
    rw [Stays, final_wrote htodo]
    refine Iff.trans ?_ (h.exact j hrun ufrag sid pid)
    rw [owed_wrote htodo]
    split
    · rfl
    · rename_i hj
      have hkept := h.owned_write hh (mem_owed_self htodo) hj
      exact iff_of_eq (congrArg (· = _) (SharedMaps.owned_settle_congr _ hkept ufrag))

/-- **A change of the shard** keeps it exact: where the step ends stays the same. -/
theorem Exact.changed (h : w.Exact) {st : SfuShard S} {rest : List (Chore S)}
    (htodo : w.todo i = .own st :: rest) : (w.changed i st rest).Exact where
  drawn := h.drawn
  pending j := by
    rw [owed_changed htodo]
    exact h.pending j
  named j sid pid := by
    rw [Stays, final_changed htodo]
    exact h.named j sid pid
  exact j hrun ufrag sid pid := by
    rw [Stays, final_changed htodo, owed_changed htodo]
    exact h.exact j hrun ufrag sid pid

/-- Whoever is in a shard after one has ended was there, and in a shard that runs. -/
theorem stays_exited (hready : w.ready i = true) {sid : SessionId} {pid : ParticipantId} :
    (w.exited i).Stays j sid pid ↔ j ≠ i ∧ w.Stays j sid pid := by
  rw [Stays, final_exited hready]
  split
  · rename_i hj
    exact iff_of_false nofun fun hne => hne.1 hj
  · rename_i hj
    exact (and_iff_right hj).symm

/-- **The exit of a shard** keeps the registry of the others exact. -/
theorem Exact.exited (h : w.Exact) (hready : w.ready i = true) : (w.exited i).Exact where
  drawn := h.drawn
  pending := h.pending
  named j sid pid hstays := h.named j sid pid ((stays_exited hready).mp hstays).2
  exact j hrun ufrag sid pid := by
    have hj : j ≠ i := by
      rintro rfl
      dsimp only [Pool.exited] at hrun
      rw [Function.update_self] at hrun
      cases hrun
    rw [stays_exited hready, and_iff_right hj]
    refine h.exact j ?_ ufrag sid pid
    dsimp only [Pool.exited] at hrun
    rwa [Function.update_of_ne hj] at hrun

/-- The dispatcher does not write to the table of the ufrags. -/
theorem Exact.dispatched (h : w.Exact) (room : Bool) : (w.dispatched room).Exact where
  drawn ufrag t ht := by
    dsimp only [Pool.dispatched] at ht
    rw [Dispatcher.ufragToTarget_next] at ht
    exact h.drawn ufrag t ht
  pending := h.pending
  named := h.named
  exact i hrun ufrag sid pid := by
    refine Iff.trans ?_ (h.exact i hrun ufrag sid pid)
    dsimp only [Pool.dispatched]
    rw [SharedMaps.owned_settle_congr _ fun ufrag => ?_]
    · rfl
    · rw [SharedMaps.owned, Dispatcher.ufragToTarget_next]
      rfl

/-- **What happens in a pool** keeps the registry exact. -/
theorem Exact.step {a : Act n} (h : w.Exact) (hh : w.Homed) (hfresh : w.Fresh a)
    (hstep : Step w a w') : w'.Exact := by
  rcases step_cases hstep with rfl | ⟨i, input, st', rfl, hready, hroute, hst, rfl⟩ |
    ⟨i, e, rest, htodo, rfl⟩ | ⟨i, st, rest, htodo, rfl⟩ | ⟨i, hready, rfl⟩ | ⟨d, -, rfl⟩ |
    ⟨room, -, rfl⟩
  · exact h
  · exact h.acted hh hready hroute hfresh hst
  · exact h.wrote hh htodo
  · exact h.changed htodo
  · exact h.exited hready
  · exact { h with }
  · exact h.dispatched room

/-- A pool that is spawned has an empty registry, which is exact. -/
theorem exact_spawn (candidateAddrs : List SocketAddr) (zombieTimeout : Duration) :
    (spawn S n candidateAddrs zombieTimeout).Exact where
  drawn _ _ ht := by cases ht
  pending _ _ _ hmem := by cases hmem
  named _ _ _ hstays := by cases hstays
  exact _ _ _ _ _ := iff_of_false nofun nofun

/-- The registry is exact in every run. -/
theorem exact_reach (h : (system S n).Reach Fresh w) : w.Exact := by
  refine (h.invariant (I := fun w => w.Homed ∧ w.Exact) ?_ fun w a w' hw hfresh hstep =>
    ⟨hw.1.step hstep, hw.2.step hw.1 hfresh hstep⟩).2
  rintro w ⟨candidateAddrs, zombieTimeout, rfl⟩
  exact ⟨homed_spawn candidateAddrs zombieTimeout, exact_spawn candidateAddrs zombieTimeout⟩

/-- Whether somebody is live can be looked up. -/
instance (w : Pool S n) (i : Fin n) (sid : SessionId) (pid : ParticipantId) :
    Decidable (w.Live i sid pid) := inferInstanceAs (Decidable (_ = true))

/-- **The table of the ufrags is exact.** Between two steps of a shard that runs, each of its
participants has one entry, under its own ufrag; every entry of the shard is of a participant
of it; and no session of it is empty. -/
theorem ufrags_exact (h : (system S n).Reach Fresh w) (hrun : w.running i = true)
    (htodo : w.todo i = []) :
    (∀ sid pid, w.Live i sid pid → ∃ ufrag, w.localUfrag sid pid = some ufrag ∧
      ∀ ufrag', w.sharedMaps.ufragToTarget.lookup ufrag' = some ⟨i, sid, pid⟩ ↔
        ufrag' = ufrag) ∧
    (∀ ufrag t, w.sharedMaps.ufragToTarget.lookup ufrag = some t → t.shard = i →
      w.Live i t.sid t.pid) ∧
    ∀ sid, ((w.shards i).session? sid).isSome = true → ∃ pid, w.Live i sid pid := by
  have hexact := exact_reach h
  have hentries := hexact.exact i hrun
  simp only [owed_of_todo htodo, stays_iff htodo, SharedMaps.settle, List.foldl_nil,
    SharedMaps.owned_eq_some, and_true] at hentries
  have hhoused := (homed_reach h).housed i
  rw [final_of_todo htodo] at hhoused
  refine ⟨fun sid pid hlive => ?_, fun ufrag t ht hshard => ?_, hhoused⟩
  · obtain ⟨ufrag, hufrag⟩ := hexact.named i sid pid ((stays_iff htodo).mpr hlive)
    refine ⟨ufrag, hufrag, fun ufrag' => ?_⟩
    rw [hentries, and_iff_right hlive, hufrag, Option.some_inj]
    exact eq_comm
  · obtain ⟨shard, sid, pid⟩ := t
    obtain rfl : shard = i := hshard
    exact ((hentries ufrag sid pid).mp ht).1

/-! ### Two calls on one shard -/

/-- A join of the session 7, with an offer of nothing. -/
def joining (pid : ParticipantId) (ufrag : String) : Act 1 :=
  .shard 0 (.command (.join 7 pid "user" "" pid.toNat) ⟨ufrag, "pwd"⟩ 0 3)

/-- A participant leaves. -/
def leaving (pid : ParticipantId) : Act 1 :=
  .shard 0 (.command (.leave 7 pid) ⟨"", ""⟩ 0 3)

/-- A pool of one shard. -/
def emptyPool : Pool scripted 1 := spawn scripted 1 [(1, 2)] 12000

/-- The runs begin with it. -/
theorem init_emptyPool : (system scripted 1).init emptyPool := ⟨[(1, 2)], 12000, rfl⟩

/-- A number of pieces of the shard's step. -/
def proceeding (k : ℕ) : List (Act 1) := List.replicate k (.proceed 0)

/-- Two join, one of them joins again, and the other leaves. -/
def comingAndGoing : List (Act 1) :=
  joining 1 "a" :: proceeding 3 ++ joining 2 "b" :: proceeding 3 ++ joining 1 "c" ::
    proceeding 6 ++ leaving 2 :: proceeding 4

/-- Somebody has joined, left, and joined again. -/
def rejoined : Pool scripted 1 := comingAndGoing.foldl next emptyPool

/-- The ufrags of that run are distinct. -/
theorem reach_rejoined : (system scripted 1).Reach Fresh rejoined :=
  .foldl Step.next (.start init_emptyPool) ⟨rfl, trivial, trivial, trivial, rfl, trivial, trivial,
    trivial, rfl, trivial, trivial, trivial, trivial, trivial, trivial, trivial, trivial, trivial,
    trivial, trivial, trivial⟩

/-- Who has joined again has one entry, under the second ufrag. -/
theorem ufrags_exact_rejoined : rejoined.Live 0 7 1 ∧
    ∃ ufrag, rejoined.localUfrag 7 1 = some ufrag ∧
      ∀ ufrag', rejoined.sharedMaps.ufragToTarget.lookup ufrag' = some ⟨0, 7, 1⟩ ↔
        ufrag' = ufrag :=
  ⟨by decide, (ufrags_exact (i := 0) reach_rejoined (by decide) (by decide)).1 7 1 (by decide)⟩

/-- One joins, and the thread of the shard ends. -/
def endedCall : Pool scripted 1 :=
  (joining 1 "a" :: proceeding 3 ++ [Act.exit 0]).foldl next emptyPool

/-- **The entries of a shard outlive it.** A shard that has ended is between two steps, and the
ufrag of a participant that was in it is registered still. -/
theorem entries_outlive : ∃ w : Pool scripted 1, (system scripted 1).Reach Fresh w ∧
    w.todo 0 = [] ∧ w.sharedMaps.ufragToTarget.lookup "a" = some ⟨0, 7, 1⟩ ∧ ¬ w.Live 0 7 1 :=
  ⟨endedCall, .foldl Step.next (.start init_emptyPool) ⟨rfl, trivial, trivial, trivial, trivial,
    trivial⟩, by decide, by decide, by decide⟩

/-! ### The table of the addresses -/

/-- The dispatcher binds an address to nobody that goes: the participant is in its shard when the
step that the shard is in is done, or a sweep that takes the address out again is still to come in
that step. -/
def Timely (w : Pool S n) : Act n → Prop
  | .dispatch _ => ∀ t ∈ w.dispatcher.binding?, ∀ i : Fin n, t.shard = i → w.running i = true →
    w.Stays i t.sid t.pid ∨ ∃ e ∈ w.owed i, e.forgets t = true
  | _ => True

/-- An address is bound to a participant who is there when the step of its shard is done, but for
the sweeps that are still to come. -/
def Bound (w : Pool S n) : Prop :=
  ∀ i, w.running i = true → ∀ a t, w.sharedMaps.addrToTarget.lookup a = some t → t.shard = i →
    (∀ e ∈ w.owed i, e.forgets t = false) → w.Stays i t.sid t.pid

/-- A step that begins leaves bound addresses bound to somebody who stays, or to be forgotten. -/
theorem Bound.acted (h : w.Bound) (hready : w.ready i = true) {input : SfuShard.Input}
    {st' : SfuShard S} (hstep : SfuShard.Step (w.loaded i) input st') :
    (w.acted i input st').Bound := by
  have htodo := (ready_iff.mp hready).2
  intro j hrun a t ht hshard hkept
  rw [owed_acted] at hkept
  rw [Stays, final_acted]
  split at hkept
  · rename_i hj
    subst hj
    rw [if_pos rfl]
    have hold : w.Live j t.sid t.pid := by
      refine (stays_iff htodo).mp (h j hrun a t ht hshard fun e he => ?_)
      rw [owed_of_todo htodo] at he
      cases he
    refine ((SfuShard.turnover_step hstep).live t.sid t.pid).mpr (.inl ⟨hold, ?_⟩)
    -- whoever is swept has the addresses forgotten
    rw [swept, List.any_eq_false]
    intro e he
    exact Bool.eq_false_iff.mp (hkept (.forgetAddrs e.1 e.2) (SfuShard.forgetAddrs_mem_writes he))
  · rename_i hj
    rw [if_neg hj]
    exact h j hrun a t ht hshard hkept

/-- A sweep takes the addresses that it is for. -/
theorem Bound.wrote (h : w.Bound) {e : MapWrite} {rest : List (Chore S)}
    (htodo : w.todo i = .write e :: rest) : (w.wrote i e rest).Bound := by
  intro j hrun a t ht hshard hkept
  obtain ⟨ht, hforgets⟩ := SharedMaps.addrs_write.mp ht
  rw [Stays, final_wrote htodo]
  refine h j hrun a t ht hshard fun e' he' => ?_
  rw [owed_wrote htodo] at he'
  split at he'
  · rcases List.mem_cons.mp he' with rfl | he'
    · exact hforgets
    · exact hkept e' he'
  · exact hkept e' he'

/-- A change of the shard takes only participants whose addresses have been swept. -/
theorem Bound.changed (h : w.Bound) {st : SfuShard S} {rest : List (Chore S)}
    (htodo : w.todo i = .own st :: rest) : (w.changed i st rest).Bound := by
  intro j hrun a t ht hshard hkept
  rw [owed_changed htodo] at hkept
  rw [Stays, final_changed htodo]
  exact h j hrun a t ht hshard hkept

/-- A shard that exits has nobody to be bound to, nor is it asked for. -/
theorem Bound.exited (h : w.Bound) (hready : w.ready i = true) : (w.exited i).Bound := by
  intro j hrun a t ht hshard hkept
  dsimp only [Pool.exited] at hrun
  rw [Function.update_apply] at hrun
  split at hrun
  · cases hrun
  · rename_i hj
    exact (stays_exited hready).mpr ⟨hj, h j hrun a t ht hshard hkept⟩

/-- An address that is bound in time is bound to somebody who stays. -/
theorem Bound.dispatched (h : w.Bound) {room : Bool} (htimely : w.Timely (.dispatch room)) :
    (w.dispatched room).Bound := by
  intro i hrun a t ht hshard hkept
  rcases Dispatcher.addrToTarget_next ht with ht | hbinding
  · exact h i hrun a t ht hshard hkept
  · refine (htimely t hbinding i hshard hrun).resolve_right ?_
    rintro ⟨e, he, hforgets⟩
    rw [hkept e he] at hforgets
    cases hforgets

/-- **What happens in a pool** leaves addresses bound to those who stay. -/
theorem Bound.step {a : Act n} (h : w.Bound) (htimely : w.Timely a) (hstep : Step w a w') :
    w'.Bound := by
  rcases step_cases hstep with rfl | ⟨i, input, st', -, hready, -, hst, rfl⟩ |
    ⟨i, e, rest, htodo, rfl⟩ | ⟨i, st, rest, htodo, rfl⟩ | ⟨i, hready, rfl⟩ | ⟨d, -, rfl⟩ |
    ⟨room, rfl, rfl⟩
  · exact h
  · exact h.acted hready hst
  · exact h.wrote htodo
  · exact h.changed htodo
  · exact h.exited hready
  · exact h
  · exact h.dispatched htimely

/-- In every run in which addresses are bound in time, they are. -/
theorem bound_reach (h : (system S n).Reach Timely w) : w.Bound := by
  refine h.invariant (I := Bound) ?_ fun w a w' hw htimely hstep => hw.step htimely hstep
  rintro w ⟨candidateAddrs, zombieTimeout, rfl⟩ i - a t ht
  cases ht

/-! ### Where a datagram goes -/

/-- One state of the pool comes after another in a run. -/
def After (w w' : Pool S n) : Prop := ((system S n).startingAt w).Reachable w'

theorem After.refl (w : Pool S n) : w.After w := .start rfl

/-- A state that comes later. -/
theorem After.step {w₀ : Pool S n} {a : Act n} (h : w₀.After w) (hstep : Step w a w') :
    w₀.After w' :=
  System.Reach.step h trivial hstep

/-- **The next access of the dispatcher** in a run: it is made from the state `w₁` of the pool,
when the dispatcher is in a state and is done with so many datagrams, and the run goes on to
`w`. -/
structure Accesses (w : Pool S n) (before : List Handled) (s : Dispatcher) (w₁ : Pool S n) :
    Prop where
  reachable : (system S n).Reachable w₁
  dispatcher : w₁.dispatcher = s
  handled : w₁.handled = before
  after : ∃ room, (w₁.dispatched room).After w

/-- An access that has been made stays made. -/
theorem Accesses.step {before : List Handled} {s : Dispatcher} {w₁ : Pool S n} {a : Act n}
    (h : w.Accesses before s w₁) (hstep : Step w a w') : w'.Accesses before s w₁ :=
  { h with after := h.after.imp fun _ hafter => hafter.step hstep }

/-- **Where the tables of a run send a datagram.** Its source is looked up when it is taken up. If
the source is bound to nobody and the datagram is a binding request with a ufrag, the ufrag is
looked up at the next access. -/
inductive Routed (w : Pool S n) (before : List Handled) (d : Datagram) : Option ShardTarget → Prop
  | bound {w₁ : Pool S n} {t : ShardTarget} : w.Accesses before (.received d) w₁ →
    w₁.sharedMaps.addrToTarget.lookup d.source = some t → Routed w before d (some t)
  | dropped {w₁ : Pool S n} : w.Accesses before (.received d) w₁ →
    w₁.sharedMaps.addrToTarget.lookup d.source = none → parseStunLocalUfrag d.data = none →
    Routed w before d none
  | asked {w₁ w₂ : Pool S n} {ufrag : String} : w₂.Accesses before (.received d) w₁ →
    w₁.sharedMaps.addrToTarget.lookup d.source = none →
    parseStunLocalUfrag d.data = some ufrag → w.Accesses before (.unbound d ufrag) w₂ →
    Routed w before d (w₂.sharedMaps.ufragToTarget.lookup ufrag)

/-- Where a datagram has been routed, it stays routed. -/
theorem Routed.step {before : List Handled} {d : Datagram} {target : Option ShardTarget}
    {a : Act n} (h : w.Routed before d target) (hstep : Step w a w') :
    w'.Routed before d target := by
  cases h with
  | bound h₁ hbound => exact .bound (h₁.step hstep) hbound
  | dropped h₁ hunbound hparse => exact .dropped (h₁.step hstep) hunbound hparse
  | asked h₁ hunbound hparse h₂ => exact .asked h₁ hunbound hparse (h₂.step hstep)

/-- **The log of the dispatcher is that of its lookups.** -/
structure Tracked (w : Pool S n) : Prop where
  reachable : (system S n).Reachable w
  unbound : ∀ d ufrag, w.dispatcher = .unbound d ufrag → ∃ w₁,
    w.Accesses w.handled (.received d) w₁ ∧
      w₁.sharedMaps.addrToTarget.lookup d.source = none ∧ parseStunLocalUfrag d.data = some ufrag
  inHand : ∀ d t, w.dispatcher = .resolved d t ∨ w.dispatcher = .sending d t →
    w.Routed w.handled d (some t)
  handled : ∀ before e after, w.handled = before ++ e :: after →
    w.Routed before e.datagram e.target

/-- The dispatcher goes on with what it has in hand. -/
theorem Tracked.goesOn {a : Act n} (h : w.Tracked) (hstep : Step w a w')
    (hhandled : w'.handled = w.handled)
    (hunbound : ∀ d ufrag, w'.dispatcher = .unbound d ufrag → ∃ w₁,
      w'.Accesses w.handled (.received d) w₁ ∧
        w₁.sharedMaps.addrToTarget.lookup d.source = none ∧
        parseStunLocalUfrag d.data = some ufrag)
    (hinHand : ∀ d t, w'.dispatcher = .resolved d t ∨ w'.dispatcher = .sending d t →
      w'.Routed w.handled d (some t)) : w'.Tracked where
  reachable := h.reachable.step trivial hstep
  unbound d ufrag heq := hhandled ▸ hunbound d ufrag heq
  inHand d t heq := hhandled ▸ hinHand d t heq
  handled before e after heq := by
    rw [hhandled] at heq
    exact (h.handled before e after heq).step hstep

/-- A step of somebody else. -/
theorem Tracked.aside {a : Act n} (h : w.Tracked) (hstep : Step w a w')
    (hdispatcher : w'.dispatcher = w.dispatcher) (hhandled : w'.handled = w.handled) :
    w'.Tracked := by
  refine h.goesOn hstep hhandled (fun d ufrag heq => ?_) fun d t heq => ?_
  · obtain ⟨w₁, h₁, hlookups⟩ := h.unbound d ufrag (hdispatcher.symm.trans heq)
    exact ⟨w₁, h₁.step hstep, hlookups⟩
  · rw [hdispatcher] at heq
    exact (h.inHand d t heq).step hstep

/-- The dispatcher is done with a datagram. -/
theorem Tracked.done {a : Act n} (h : w.Tracked) (hstep : Step w a w') {e : Handled}
    (hidle : w'.dispatcher = .idle) (hhandled : w'.handled = w.handled ++ [e])
    (hrouted : w'.Routed w.handled e.datagram e.target) : w'.Tracked where
  reachable := h.reachable.step trivial hstep
  unbound d ufrag heq := by
    rw [hidle] at heq
    cases heq
  inHand d t heq := by
    rw [hidle] at heq
    rcases heq with heq | heq <;> cases heq
  handled before e' after heq := by
    rw [hhandled] at heq
    rcases List.eq_nil_or_concat after with rfl | ⟨after, e'', rfl⟩
    · obtain ⟨rfl, rfl⟩ := List.append_inj' heq rfl |>.imp_right List.singleton_inj.mp
      exact hrouted
    · rw [List.concat_eq_append, ← List.cons_append, ← List.append_assoc] at heq
      exact (h.handled before e' after (List.append_inj' heq rfl).1).step hstep

/-- What the dispatcher does next, from what it has done. -/
theorem Tracked.dispatched (h : w.Tracked) (room : Bool) : (w.dispatched room).Tracked := by
  have hstep : Step w (.dispatch room) (w.dispatched room) := .next w (.dispatch room)
  have hnow {s : Dispatcher} (hs : w.dispatcher = s) :
      (w.dispatched room).Accesses w.handled s w := ⟨h.reachable, hs, rfl, room, .refl _⟩
  -- an access that the dispatcher is not done with the datagram after
  have hgoesOn {m : SharedMaps} {s : Dispatcher}
      (hnext : w.dispatcher.next w.sharedMaps room = (m, s, none)) :
      (w.dispatched room).dispatcher = s ∧ (w.dispatched room).handled = w.handled := by
    dsimp only [Pool.dispatched]
    rw [hnext]
    exact ⟨rfl, List.append_nil _⟩
  -- one that it is done with it after
  have hdone {m : SharedMaps} {e : Handled}
      (hnext : w.dispatcher.next w.sharedMaps room = (m, .idle, some e))
      (hrouted : (w.dispatched room).Routed w.handled e.datagram e.target) :
      (w.dispatched room).Tracked := by
    refine h.done (e := e) hstep ?_ ?_ hrouted <;> dsimp only [Pool.dispatched] <;> rw [hnext]
    rfl
  cases hs : w.dispatcher with
  | idle =>
    obtain ⟨hdispatcher, hhandled⟩ := hgoesOn (by rw [hs]; rfl)
    exact h.aside hstep (hdispatcher.trans hs.symm) hhandled
  | received d =>
    have h₁ := hnow hs
    rcases hbound : w.sharedMaps.addrToTarget.lookup d.source with _ | t
    · rcases hparse : parseStunLocalUfrag d.data with _ | ufrag
      · refine hdone (m := w.sharedMaps) (e := ⟨d, none, false⟩) ?_ (.dropped h₁ hbound hparse)
        simp [hs, Dispatcher.next, hbound, hparse]
      · have hstun : looksLikeStun d.data = true := by
          by_contra hnot
          rw [parseStunLocalUfrag, if_neg hnot] at hparse
          cases hparse
        obtain ⟨hdispatcher, hhandled⟩ := hgoesOn (s := .unbound d ufrag) (m := w.sharedMaps)
          (by simp [hs, Dispatcher.next, hbound, hparse, hstun])
        refine h.goesOn hstep hhandled (fun d' ufrag' heq => ?_) fun d' t heq => ?_
        · obtain ⟨rfl, rfl⟩ := Dispatcher.unbound.inj (hdispatcher.symm.trans heq)
          exact ⟨w, h₁, hbound, hparse⟩
        · rw [hdispatcher] at heq
          rcases heq with heq | heq <;> cases heq
    · obtain ⟨hdispatcher, hhandled⟩ := hgoesOn (s := .sending d t) (m := w.sharedMaps)
        (by simp [hs, Dispatcher.next, hbound])
      refine h.goesOn hstep hhandled (fun d' ufrag heq => ?_) fun d' t' heq => ?_
      · rw [hdispatcher] at heq
        cases heq
      · rw [hdispatcher] at heq
        obtain ⟨rfl, rfl⟩ := Dispatcher.sending.inj (heq.resolve_left nofun)
        exact .bound h₁ hbound
  | unbound d ufrag =>
    have h₂ := hnow hs
    obtain ⟨w₁, h₁, hbound, hparse⟩ := h.unbound d ufrag hs
    have hasked := Routed.asked h₁ hbound hparse h₂
    rcases ht : w.sharedMaps.ufragToTarget.lookup ufrag with _ | t
    · rw [ht] at hasked
      refine hdone (m := w.sharedMaps) (e := ⟨d, none, false⟩) ?_ hasked
      simp [hs, Dispatcher.next, ht]
    · rw [ht] at hasked
      obtain ⟨hdispatcher, hhandled⟩ := hgoesOn (s := .resolved d t) (m := w.sharedMaps)
        (by simp [hs, Dispatcher.next, ht])
      refine h.goesOn hstep hhandled (fun d' ufrag heq => ?_) fun d' t' heq => ?_
      · rw [hdispatcher] at heq
        cases heq
      · rw [hdispatcher] at heq
        obtain ⟨rfl, rfl⟩ := Dispatcher.resolved.inj (heq.resolve_right nofun)
        exact hasked
  | resolved d t =>
    obtain ⟨hdispatcher, hhandled⟩ := hgoesOn (s := .sending d t) (by rw [hs]; rfl)
    refine h.goesOn hstep hhandled (fun d' ufrag heq => ?_) fun d' t' heq => ?_
    · rw [hdispatcher] at heq
      cases heq
    · rw [hdispatcher] at heq
      obtain ⟨rfl, rfl⟩ := Dispatcher.sending.inj (heq.resolve_left nofun)
      exact (h.inHand d t (.inl hs)).step hstep
  | sending d t =>
    refine hdone (e := ⟨d, some t, room⟩) (by rw [hs]; rfl) ?_
    exact (h.inHand d t (.inr hs)).step hstep

/-- **What happens in a pool** leaves the datagrams tracked. -/
theorem Tracked.step {a : Act n} (h : w.Tracked) (hstep : Step w a w') : w'.Tracked := by
  have hcases := step_cases hstep
  rcases hcases with rfl | ⟨i, input, st', -, -, -, -, rfl⟩ | ⟨i, e, rest, -, rfl⟩ |
    ⟨i, st, rest, -, rfl⟩ | ⟨i, -, rfl⟩ | ⟨d, -, rfl⟩ | ⟨room, -, rfl⟩
  · exact h
  · exact h.aside hstep rfl rfl
  · exact h.aside hstep rfl rfl
  · exact h.aside hstep rfl rfl
  · exact h.aside hstep rfl rfl
  · exact h.goesOn hstep rfl (fun d ufrag heq => by cases heq)
      fun d t heq => by rcases heq with heq | heq <;> cases heq
  · exact h.dispatched room

/-- The datagrams are tracked in every run. -/
theorem tracked_reach (h : (system S n).Reachable w) : w.Tracked := by
  refine h.invariant (I := Tracked) (fun w hinit => ?_) fun w a w' hw _ hstep => hw.step hstep
  refine ⟨.start hinit, fun d ufrag heq => ?_, fun d t heq => ?_, fun before e after heq => ?_⟩ <;>
    obtain ⟨candidateAddrs, zombieTimeout, rfl⟩ := hinit
  · cases heq
  · rcases heq with heq | heq <;> cases heq
  · exact absurd heq.symm (by simp [spawn])

/-- **Addresses and datagrams.** As long as the dispatcher binds no address to somebody who
goes, between two steps of a shard no address is bound to somebody who is not in it. And in every
run the datagrams are sent, one after the other, where the tables say: to what the source is bound
to when the datagram is taken up; if that is nothing and it is a STUN binding request, to what its
ufrag is registered for at the next access; and else to nobody; and always to the shard that owns
the session. -/
theorem bound_and_routed (S : Str0m) (n : ℕ) :
    (∀ w : Pool S n, (system S n).Reach Timely w → ∀ i, w.running i = true → w.todo i = [] →
      ∀ a t, w.sharedMaps.addrToTarget.lookup a = some t → t.shard = i →
        w.Live i t.sid t.pid) ∧
    ∀ w : Pool S n, (system S n).Reachable w → ∀ before e after,
      w.handled = before ++ e :: after → w.Routed before e.datagram e.target ∧
        ∀ t, e.target = some t → AtHome n t := by
  refine ⟨fun w h i hrun htodo a t ht hshard => ?_, fun w h before e after heq => ?_⟩
  · refine (stays_iff htodo).mp (bound_reach h i hrun a t ht hshard fun e he => ?_)
    rw [owed_of_todo htodo] at he
    cases he
  · refine ⟨(tracked_reach h).handled before e after heq, (homed_reach h).handled e ?_⟩
    rw [heq]
    exact List.mem_append_right before List.mem_cons_self

/-- A STUN binding request for a ufrag of one letter. -/
def stunBinding (letter : UInt8) : Datagram where
  source := (9, 9)
  data := [0, 1, 0, 8, 0x21, 0x12, 0xA4, 0x42] ++ List.replicate 12 0 ++
    [0, 6, 0, 3, letter, 58, 120, 0]

/-- A datagram comes, and the dispatcher acts a number of times. -/
def dispatching (letter : UInt8) (k : ℕ) : List (Act 1) :=
  .receive (stunBinding letter) :: List.replicate k (.dispatch true)

/-- Two join, and the address of the first is bound. -/
def callWithAddress : Pool scripted 1 :=
  (joining 1 "a" :: proceeding 3 ++ joining 2 "b" :: proceeding 3 ++ dispatching 97 4).foldl next
    emptyPool

/-- The run in which an address is bound binds it in time. -/
theorem reach_callWithAddress : (system scripted 1).Reach Timely callWithAddress := by
  refine .foldl Step.next (.start init_emptyPool) ⟨trivial, trivial, trivial, trivial, trivial,
    trivial, trivial, trivial, trivial, fun t ht => ?_, fun t ht => ?_, fun t ht i _ _ => ?_,
    fun t ht => ?_, trivial⟩
  · cases ht
  · cases ht
  · obtain rfl : (⟨0, 7, 1⟩ : ShardTarget) = t := Option.some.inj ht
    obtain rfl : i = 0 := Subsingleton.elim i 0
    exact .inl rfl
  · cases ht

/-- The address of a participant is bound to it, and its datagrams are routed there. -/
theorem bound_and_routed_callWithAddress : callWithAddress.Live 0 7 1 ∧
    callWithAddress.Routed [] (stunBinding 97) (some ⟨0, 7, 1⟩) :=
  ⟨(bound_and_routed scripted 1).1 callWithAddress reach_callWithAddress 0 rfl rfl (9, 9)
      ⟨0, 7, 1⟩ rfl rfl,
    ((bound_and_routed scripted 1).2 callWithAddress
      (reach_callWithAddress.mono fun _ _ _ => trivial) [] ⟨_, some ⟨0, 7, 1⟩, true⟩ [] rfl).1⟩

/-- The address of a participant is bound after the participant has left. -/
def lateBinding : Pool scripted 1 :=
  (joining 1 "a" :: proceeding 3 ++ dispatching 97 2 ++ leaving 1 :: proceeding 6 ++
    [Act.dispatch true]).foldl next emptyPool

/-- The address is bound between the sweep of the table and the removal of the participant, which
is in the shard at that time. -/
def bindingInLeave : Pool scripted 1 :=
  (joining 1 "a" :: proceeding 3 ++ joining 2 "b" :: proceeding 3 ++ dispatching 97 2 ++
    leaving 1 :: proceeding 1).foldl next emptyPool

example : bindingInLeave.Live 0 7 1 ∧ ((bindingInLeave.final 0).participant? 7 1).isNone ∧
    bindingInLeave.dispatcher.binding? = some ⟨0, 7, 1⟩ ∧
    (bindingInLeave.owed 0).all fun e => !e.forgets ⟨0, 7, 1⟩ := by
  decide

/-- A STUN binding request for the second, from the address of the first. -/
def reusedAddress : Pool scripted 1 :=
  (dispatching 98 2).foldl next callWithAddress

/-- An address may stay bound to somebody who has left, and a STUN binding request for the
ufrag of one participant may be sent to another. -/
theorem stale_and_misrouted :
    (∃ w : Pool scripted 1, (system scripted 1).Reachable w ∧ w.running 0 = true ∧
      w.todo 0 = [] ∧ w.sharedMaps.addrToTarget.lookup (9, 9) = some ⟨0, 7, 1⟩ ∧
      ¬ w.Live 0 7 1) ∧
    ∃ w : Pool scripted 1, (system scripted 1).Reachable w ∧
      w.sharedMaps.ufragToTarget.lookup "b" = some ⟨0, 7, 2⟩ ∧ w.Live 0 7 2 ∧
      ∃ e ∈ w.handled, parseStunLocalUfrag e.datagram.data = some "b" ∧
        e.target = some ⟨0, 7, 1⟩ := by
  refine ⟨⟨lateBinding, ?_, by decide, by decide, by decide, by decide⟩,
    ⟨reusedAddress, ?_, by decide, by decide, _, List.mem_of_getLast? rfl, by decide, by decide⟩⟩
  · exact System.reachable_foldl init_emptyPool Step.next _
  · exact .foldl Step.next (reach_callWithAddress.mono fun _ _ _ => trivial)
      (System.accepted_true _ _ _)

end Pool

end Video

end MateHub
