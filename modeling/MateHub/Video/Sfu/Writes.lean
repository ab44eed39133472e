import MateHub.Video.Sfu.Owner
import MateHub.Video.Sfu.Signals

/-!
# What a shard writes to the routing tables

The shards and the dispatcher share two tables behind locks. A shard sweeps them of a
participant that leaves, and of a session that is gone with it, one table after the other;
and it registers the ufrag of a participant that has joined. Others may run between two such
writes, so this file names them in their order (`MateHub.Video.SfuShard.writes`), and with them
the changes that the shard makes to what it has for itself (`MateHub.Video.SfuShard.chores`).

The writes of a step say who comes and who goes: a participant is there after the step if it
was there and is not swept, or if it is registered (`MateHub.Video.SfuShard.live_step`).
-/

namespace MateHub

namespace Video

/-! ### Writes -/

/-- A write to one of the routing tables, under its lock. -/
inductive MapWrite
  /-- `retain` on `addr_to_target`, without a participant or without a session. -/
  | forgetAddrs (sid : SessionId) (pid : Option ParticipantId)
  /-- `retain` on `ufrag_to_target`. -/
  | forgetUfrags (sid : SessionId) (pid : Option ParticipantId)
  | register (ufrag : String) (t : ShardTarget)
  deriving DecidableEq, Repr

/-- Whether a write takes the addresses of a target out. -/
def MapWrite.forgets (t : ShardTarget) : MapWrite → Bool
  | .forgetAddrs sid pid => decide (t.sid = sid) && pid.all fun p => decide (t.pid = p)
  | _ => false

/-- What is swept: one participant of a session, or all of them. -/
abbrev Sweep := SessionId × Option ParticipantId

/-- Whether a participant is swept. -/
def Sweep.hits (e : Sweep) (sid : SessionId) (pid : ParticipantId) : Bool :=
  decide (sid = e.1) && e.2.all fun p => decide (pid = p)

/-- The two writes of a sweep. -/
def Sweep.writes (e : Sweep) : List MapWrite := [.forgetAddrs e.1 e.2, .forgetUfrags e.1 e.2]

/-- Whether a participant is swept in a list of sweeps. -/
def swept (l : List Sweep) (sid : SessionId) (pid : ParticipantId) : Bool :=
  l.any fun e => e.hits sid pid

/-- A participant is swept by two lists if one of them sweeps it. -/
theorem swept_append (l l' : List Sweep) (sid : SessionId) (pid : ParticipantId) :
    swept (l ++ l') sid pid = (swept l sid pid || swept l' sid pid) := List.any_append

/-- A sweep of a participant hits that participant only. -/
theorem hits_participant {sid sid' : SessionId} {pid pid' : ParticipantId} :
    Sweep.hits (sid, some pid) sid' pid' = true ↔ sid' = sid ∧ pid' = pid := by
  rw [Sweep.hits, Bool.and_eq_true, decide_eq_true_eq, Option.all_some, decide_eq_true_eq]

/-- A sweep of a session hits everybody in it. -/
theorem hits_session {sid sid' : SessionId} {pid' : ParticipantId} :
    Sweep.hits (sid, none) sid' pid' = true ↔ sid' = sid := by
  rw [Sweep.hits, Option.all_none, Bool.and_true, decide_eq_true_eq]

/-- A piece of a step that others may see: a write to a routing table, or a change of what the
shard has for itself. -/
inductive Chore (S : Str0m)
  | write (e : MapWrite)
  | own (st : SfuShard S)

namespace Chore

variable {S : Str0m}

/-- The write that a chore makes to the shared maps, if it makes one. -/
def write? : Chore S → Option MapWrite
  | .write e => some e
  | .own _ => none

/-- What a shard has after a piece of a step. -/
def after (st : SfuShard S) : Chore S → SfuShard S
  | .write _ => st
  | .own st' => st'

end Chore

/-- The session that a command is about. -/
def SfuCommand.sid : SfuCommand → SessionId
  | .join sid _ _ _ _ => sid
  | .answer sid _ _ => sid
  | .iceCandidate sid _ _ _ => sid
  | .leave sid _ => sid
  | .publishTrack sid _ _ _ => sid
  | .clientOffer sid _ _ => sid
  | .udpInput sid _ _ _ => sid

namespace SharedMaps

/-- The shared maps after a write. -/
def write (m : SharedMaps) : MapWrite → SharedMaps
  | .forgetAddrs sid pid =>
    { m with addrToTarget := m.addrToTarget.retain fun _ t => !Sweep.hits (sid, pid) t.sid t.pid }
  | .forgetUfrags sid pid =>
    { m with ufragToTarget := m.ufragToTarget.retain fun _ t => !Sweep.hits (sid, pid) t.sid t.pid }
  | .register ufrag t => { m with ufragToTarget := m.ufragToTarget.insert ufrag t }

/-- What a write leaves of the table of the addresses. -/
theorem addrs_write {m : SharedMaps} {e : MapWrite} {a : SocketAddr} {t : ShardTarget} :
    (m.write e).addrToTarget.lookup a = some t ↔
      m.addrToTarget.lookup a = some t ∧ e.forgets t = false := by
  cases e with
  | forgetAddrs sid pid =>
    rw [write, Dict.lookup_retain, Option.filter_eq_some_iff, Bool.not_eq_true']
    rfl
  | forgetUfrags sid pid => exact (and_iff_left rfl).symm
  | register ufrag t' => exact (and_iff_left rfl).symm

/-- An entry of the table of the ufrags was there before a write, or is written by it. -/
theorem ufrags_write {m : SharedMaps} {e : MapWrite} {ufrag : String} {t : ShardTarget}
    (h : (m.write e).ufragToTarget.lookup ufrag = some t) :
    m.ufragToTarget.lookup ufrag = some t ∨ e = .register ufrag t := by
  cases e with
  | forgetAddrs sid pid => exact .inl h
  | forgetUfrags sid pid =>
    rw [write, Dict.lookup_retain, Option.filter_eq_some_iff] at h
    exact .inl h.1
  | register ufrag' t' =>
    rw [write, Dict.lookup_insert_eq] at h
    split at h
    · rename_i heq
      obtain rfl := heq
      obtain rfl := Option.some.inj h
      exact .inr rfl
    · exact .inl h

/-- The tables after a list of writes. -/
def settle (m : SharedMaps) (ws : List MapWrite) : SharedMaps := ws.foldl write m

/-- Writes are settled one after the other. -/
theorem settle_append (m : SharedMaps) (ws ws' : List MapWrite) :
    m.settle (ws ++ ws') = (m.settle ws).settle ws' := List.foldl_append

/-- A sweep is a `retain` on both tables. -/
theorem retain_eq_settle (m : SharedMaps) (e : Sweep) {keep : ShardTarget → Bool}
    (hkeep : ∀ t, keep t = !e.hits t.sid t.pid) : m.retain keep = m.settle e.writes := by
  obtain rfl : keep = fun t => !e.hits t.sid t.pid := funext hkeep
  rfl

/-- The entry of a ufrag, if it is one of a shard. -/
def owned (m : SharedMaps) (i : ℕ) (ufrag : String) : Option ShardTarget :=
  (m.ufragToTarget.lookup ufrag).filter fun t => t.shard = i

/-- A shard owns the entries whose targets are in it. -/
theorem owned_eq_some {m : SharedMaps} {i : ℕ} {ufrag : String} {t : ShardTarget} :
    m.owned i ufrag = some t ↔ m.ufragToTarget.lookup ufrag = some t ∧ t.shard = i := by
  rw [owned, Option.filter_eq_some_iff, decide_eq_true_eq]

/-- What a write leaves of a shard's entries does not depend on those of the others. -/
theorem owned_write_congr {m m' : SharedMaps} {i : ℕ} (h : ∀ ufrag, m.owned i ufrag = m'.owned i ufrag)
    (e : MapWrite) (ufrag : String) : (m.write e).owned i ufrag = (m'.write e).owned i ufrag := by
  cases e with
  | forgetAddrs sid pid => exact h ufrag
  | forgetUfrags sid pid =>
    have hfilter (m : SharedMaps) : (m.write (.forgetUfrags sid pid)).owned i ufrag =
        (m.owned i ufrag).filter fun t => !Sweep.hits (sid, pid) t.sid t.pid := by
      rw [owned, write, Dict.lookup_retain, owned, Option.filter_filter, Option.filter_filter]
      exact congrArg (Option.filter · _) (funext fun t => Bool.and_comm _ _)
    rw [hfilter, hfilter, h]
  | register ufrag' t =>
    rw [owned, owned, write, write, Dict.lookup_insert_eq, Dict.lookup_insert_eq]
    split
    · rfl
    · exact h ufrag

/-- What a shard owns after some writes depends on what it owned before them only. -/
theorem owned_settle_congr (ws : List MapWrite) {m m' : SharedMaps} {i : ℕ}
    (h : ∀ ufrag, m.owned i ufrag = m'.owned i ufrag) (ufrag : String) :
    (m.settle ws).owned i ufrag = (m'.settle ws).owned i ufrag := by
  induction ws generalizing m m' with
  | nil => exact h ufrag
  | cons e ws ih => exact ih (owned_write_congr h e)

section Sweeps

variable {κ : Type*} [DecidableEq κ]

/-- A sweep of one table. -/
def sweep (d : Dict κ ShardTarget) (e : Sweep) : Dict κ ShardTarget :=
  d.retain fun _ t => !e.hits t.sid t.pid

/-- Who is swept is not in the table any more. -/
theorem lookup_sweeps (l : List Sweep) (d : Dict κ ShardTarget) (k : κ) :
    (l.foldl sweep d).lookup k = (d.lookup k).filter fun t => !swept l t.sid t.pid := by
  induction l generalizing d with
  | nil => cases hk : d.lookup k <;> exact hk
  | cons e l ih =>
    rw [List.foldl_cons, ih, sweep, Dict.lookup_retain, Option.filter_filter]
    refine congrArg (Option.filter · _) (funext fun t => ?_)
    rw [swept, swept, List.any_cons, Bool.not_or]

end Sweeps

/-- A list of sweeps sweeps both tables. -/
theorem settle_sweeps (l : List Sweep) (m : SharedMaps) :
    m.settle (l.flatMap Sweep.writes) =
      ⟨l.foldl sweep m.addrToTarget, l.foldl sweep m.ufragToTarget⟩ := by
  induction l generalizing m with
  | nil => rfl
  | cons e l ih =>
    rw [List.flatMap_cons, settle_append, ih]
    rfl

end SharedMaps

namespace SfuShard

variable {S : Str0m} {st st' : SfuShard S} {sid : SessionId} {pid : ParticipantId}

/-! ### The writes of a step -/

/-- What a leave sweeps: the participant, and the session if it is gone with it. -/
def leaveSweeps (st : SfuShard S) (sid : SessionId) (pid : ParticipantId) : List Sweep :=
  (sid, some pid) ::
    if (st.session? sid).isSome && ((st.handleLeave sid pid).1.session? sid).isNone then
      [(sid, none)] else []

/-- What a join sweeps, of the participant that it replaces. -/
def kickSweeps (st : SfuShard S) (sid : SessionId) (pid : ParticipantId) : List Sweep :=
  match st.participant? sid pid with
  | none => []
  | some p => (st.wsTrySend p.wsTx (.forceDisconnected "joined_elsewhere")).leaveSweeps sid pid

/-- What a row of leaves sweeps. -/
def leavesSweeps (st : SfuShard S) : List (SessionId × ParticipantId) → List Sweep
  | [] => []
  | e :: l => st.leaveSweeps e.1 e.2 ++ leavesSweeps (st.handleLeave e.1 e.2).1 l

/-- What a step sweeps. -/
def sweeps (st : SfuShard S) : Input → List Sweep
  | .command (.join sid pid _ _ _) _ _ _ => st.kickSweeps sid pid
  | .command (.leave sid pid) _ _ _ => st.leaveSweeps sid pid
  | .tick now _ => (st.timeouts now).leavesSweeps ((st.timeouts now).zombies now)
  | _ => []

/-- What a step registers: the ufrag of a participant that has joined. -/
def registration? (st : SfuShard S) : Input → Option (String × ShardTarget)
  | .command (.join sid pid userId sdpOffer replyTx) creds now _ =>
    if ((st.handleJoin creds now sid pid userId sdpOffer replyTx).1.participant? sid pid).isSome
    then some (creds.ufrag, ⟨st.shardIndex, sid, pid⟩) else none
  | _ => none

/-- **The writes of a step**, in their order. -/
def writes (st : SfuShard S) (i : Input) : List MapWrite :=
  (st.sweeps i).flatMap Sweep.writes ++
    (st.registration? i).toList.map fun r => .register r.1 r.2

/-- A registration is among the writes of an input if the input admits somebody. -/
theorem register_mem_writes {i : Input} {ufrag : String} {t : ShardTarget} :
    .register ufrag t ∈ st.writes i ↔ st.registration? i = some (ufrag, t) := by
  rw [writes, List.mem_append, List.mem_flatMap, List.mem_map]
  constructor
  · rintro (⟨e, -, he⟩ | ⟨r, hr, heq⟩)
    · simp [Sweep.writes] at he
    · obtain ⟨rfl, rfl⟩ := MapWrite.register.inj heq
      exact Option.mem_toList.mp hr
  · intro hr
    exact .inr ⟨_, Option.mem_toList.mpr hr, rfl⟩

/-- The ufrags that an input forgets are those of its sweeps. -/
theorem forgetUfrags_mem_writes {i : Input} {pid : Option ParticipantId} :
    .forgetUfrags sid pid ∈ st.writes i ↔ (sid, pid) ∈ st.sweeps i := by
  rw [writes, List.mem_append, List.mem_flatMap, List.mem_map]
  constructor
  · rintro (⟨e, he, hmem⟩ | ⟨r, -, heq⟩)
    · obtain ⟨rfl, rfl⟩ : sid = e.1 ∧ pid = e.2 := by simpa [Sweep.writes] using hmem
      exact he
    · cases heq
  · intro he
    exact .inl ⟨_, he, by simp [Sweep.writes]⟩

/-- A sweep forgets addresses, too. -/
theorem forgetAddrs_mem_writes {i : Input} {pid : Option ParticipantId}
    (he : (sid, pid) ∈ st.sweeps i) : .forgetAddrs sid pid ∈ st.writes i :=
  List.mem_append_left _ (List.mem_flatMap.mpr ⟨_, he, List.mem_cons_self⟩)

/-! ### The pieces of a step -/

/-- `handle_leave` piece by piece: the entries of the participant go first, then the
participant, with the session if that is empty, and the entries of the session last. -/
def leaveChores (st : SfuShard S) (sid : SessionId) (pid : ParticipantId) : List (Chore S) :=
  [.write (.forgetAddrs sid (some pid)), .write (.forgetUfrags sid (some pid)),
    .own (st.handleLeave sid pid).1] ++
    if (st.session? sid).isSome && ((st.handleLeave sid pid).1.session? sid).isNone then
      [.write (.forgetAddrs sid none), .write (.forgetUfrags sid none)] else []

/-- The leave of the participant that a join replaces. -/
def kickChores (st : SfuShard S) (sid : SessionId) (pid : ParticipantId) : List (Chore S) :=
  match st.participant? sid pid with
  | none => []
  | some p => (st.wsTrySend p.wsTx (.forceDisconnected "joined_elsewhere")).leaveChores sid pid

/-- The chores of leaves, each in the state that those before it have left. -/
def leavesChores (st : SfuShard S) : List (SessionId × ParticipantId) → List (Chore S)
  | [] => []
  | e :: l => st.leaveChores e.1 e.2 ++ leavesChores (st.handleLeave e.1 e.2).1 l

/-- The leaves of a step. -/
def departures (st : SfuShard S) : Input → List (Chore S)
  | .command (.join sid pid _ _ _) _ _ _ => st.kickChores sid pid
  | .command (.leave sid pid) _ _ _ => st.leaveChores sid pid
  | .tick now _ => (st.timeouts now).leavesChores ((st.timeouts now).zombies now)
  | _ => []

/-- The end of a join: the participant is inserted, and its ufrag is registered. -/
def arrival (st : SfuShard S) : Input → List (Chore S)
  | .command (.join sid pid userId sdpOffer replyTx) creds now _ =>
    let joined := (st.handleJoin creds now sid pid userId sdpOffer replyTx).1
    if (joined.participant? sid pid).isSome then
      [.own joined, .write (.register creds.ufrag ⟨st.shardIndex, sid, pid⟩)] else []
  | _ => []

/-- **A step piece by piece**, to the state that it ends in. -/
def chores (st : SfuShard S) (i : Input) (st' : SfuShard S) : List (Chore S) :=
  st.departures i ++ st.arrival i ++ [.own st']

/-- The writes of a leave are those of its sweeps. -/
theorem writes_leaveChores (st : SfuShard S) (sid : SessionId) (pid : ParticipantId) :
    (st.leaveChores sid pid).filterMap Chore.write? =
      (st.leaveSweeps sid pid).flatMap Sweep.writes := by
  rw [leaveChores, leaveSweeps]
  split <;> rfl

/-- The writes of leaves are those of their sweeps, by induction over the list. -/
theorem writes_leavesChores (l : List (SessionId × ParticipantId)) (st : SfuShard S) :
    (st.leavesChores l).filterMap Chore.write? = (st.leavesSweeps l).flatMap Sweep.writes := by
  induction l generalizing st with
  | nil => rfl
  | cons e l ih =>
    rw [leavesChores, leavesSweeps, List.filterMap_append, List.flatMap_append, ih,
      writes_leaveChores]

/-- The writes of what goes at an input are those of its sweeps. -/
theorem writes_departures (st : SfuShard S) (i : Input) :
    (st.departures i).filterMap Chore.write? = (st.sweeps i).flatMap Sweep.writes := by
  rcases i with ⟨cmd, _, _, _⟩ | ⟨now, fuel⟩ | _ | _ | _ | _ | _
  · cases cmd with
    | join sid pid userId sdpOffer replyTx =>
      dsimp only [departures, sweeps, kickChores, kickSweeps]
      split
      · rfl
      · exact writes_leaveChores _ sid pid
    | leave sid pid => exact writes_leaveChores st sid pid
    | _ => rfl
  · exact writes_leavesChores _ _
  all_goals rfl

/-- The writes of what comes at an input are its registration. -/
theorem writes_arrival (st : SfuShard S) (i : Input) :
    (st.arrival i).filterMap Chore.write? =
      (st.registration? i).toList.map fun r => .register r.1 r.2 := by
  rcases i with ⟨cmd, _, _, _⟩ | ⟨now, fuel⟩ | _ | _ | _ | _ | _
  · cases cmd with
    | join sid pid userId sdpOffer replyTx =>
      dsimp only [arrival, registration?]
      split <;> rfl
    | _ => rfl
  all_goals rfl

/-- The pieces of a step have its writes. -/
theorem writes_chores (st : SfuShard S) (i : Input) (st' : SfuShard S) :
    (st.chores i st').filterMap Chore.write? = st.writes i := by
  rw [chores, List.filterMap_append, List.filterMap_append, writes_departures, writes_arrival,
    writes]
  exact List.append_nil _

/-! ### Sessions come with their participants -/

/-- Moves neither make a session nor remove one, but for an admission and a close. -/
theorem Move.isSome_session? {e : Effect} (h : Move e st st') (hc : e ≠ .closed sid)
    (ha : ∀ pid tx, e ≠ .admitted sid pid tx) :
    (st'.session? sid).isSome = (st.session? sid).isSome := by
  have hset (st : SfuShard S) (sid' : SessionId) (pid : ParticipantId) (p : SfuParticipant S) :
      ((st.setParticipant sid' pid p).session? sid).isSome = (st.session? sid).isSome := by
    rw [session?_setParticipant]
    split
    · rename_i hsid
      rw [hsid, Option.isSome_map]
    · rfl
  cases h with
  | framed hf =>
    have hrel := hf.sessions sid
    cases hs : st.session? sid with
    | none =>
      rw [hs] at hrel
      rw [hrel.none_left]
    | some s =>
      rw [hs] at hrel
      obtain ⟨s', hs', -⟩ := hrel.some_left
      rw [hs']
      rfl
  | @announced _ sid' pid p rtc mid kind _ _ =>
    refine Eq.trans ?_ (hset st sid' pid { p with rtc := rtc })
    unfold mediaAdded
    split
    · rfl
    · rename_i s hs
      refine (congrArg Option.isSome (session?_setSession _ sid' sid _)).trans ?_
      split
      · rename_i hsid
        rw [hsid, hs]
        rfl
      · rfl
  | left _ sid' pid' =>
    have hmodify : (st.leaveMove sid' pid').session? sid = if sid = sid' then
        (st.session? sid).map fun s => dropParticipant s pid' else st.session? sid :=
      Dict.lookup_modify st.sessions sid' sid _
    rw [hmodify]
    split
    · rw [Option.isSome_map]
    · rfl
  | deactivated => exact hset ..
  | @closed _ sid' s hs hempty =>
    rw [session?, Dict.lookup_erase_eq, if_neg]
    · rfl
    · rintro rfl
      exact hc rfl
  | admitted =>
    rw [session?_addParticipant, if_neg]
    rintro rfl
    exact ha _ _ rfl
  | @opened _ sid' pid s p _ _ rtc hs _ _ _ =>
    rw [session?_setSession]
    split
    · rename_i hsid
      rw [hsid, hs]
      rfl
    · rfl
  | refused => exact hset ..
  | taken => rfl
  | offered => exact hset ..
  | unsent => exact hset ..

/-- Moves make no session but by an admission. -/
theorem Moves.session?_back {E : Effect → Prop} (h : Moves E st st')
    (ha : ∀ pid tx, ¬ E (.admitted sid pid tx)) (hs : (st'.session? sid).isSome = true) :
    (st.session? sid).isSome = true := by
  refine h.invariant (I := fun s => (s.session? sid).isSome = true → (st.session? sid).isSome = true)
    (fun e s s' he hm hback hs' => ?_) id hs
  by_cases hc : e = .closed sid
  · subst hc
    cases hm
    rw [session?, AList.lookup_erase] at hs'
    cases hs'
  · refine hback ?_
    rw [← hm.isSome_session? hc, hs']
    rintro pid tx rfl
    exact ha pid tx he

/-- Somebody is in a session that is there. -/
def Housed (st : SfuShard S) (sid : SessionId) : Prop :=
  (st.session? sid).isSome = true → ∃ pid, (st.participant? sid pid).isSome = true

/-- A participant is in a shard if it has an owner there. -/
theorem isSome_participant? (st : SfuShard S) (sid : SessionId) (pid : ParticipantId) :
    (st.participant? sid pid).isSome = (st.owner sid pid).isSome := Option.isSome_map.symm

/-- A participant is in a session. -/
theorem session?_of_participant? (h : (st.participant? sid pid).isSome = true) :
    (st.session? sid).isSome = true := by
  obtain ⟨p, hp⟩ := Option.isSome_iff_exists.mp h
  obtain ⟨s, hs, -⟩ := participant?_eq_some.mp hp
  rw [hs]
  rfl

/-- A session stays housed where nobody in it leaves and nobody is admitted. -/
theorem Moves.housed {E : Effect → Prop} (h : Moves E st st') (hl : ∀ pid, ¬ E (.left sid pid))
    (ha : ∀ pid tx, ¬ E (.admitted sid pid tx)) (hh : st.Housed sid) : st'.Housed sid := by
  intro hs
  obtain ⟨pid, hpid⟩ := hh (h.session?_back ha hs)
  refine ⟨pid, ?_⟩
  rw [isSome_participant?, h.owner (hl pid) (ha pid), ← isSome_participant?]
  exact hpid

/-! ### A leave -/

/-- What a leave may do. -/
def Leaves (sid : SessionId) (pid : ParticipantId) : Effect → Prop
  | .framed => True
  | .deactivated _ _ => True
  | .closed _ => True
  | .left sid' pid' => sid' = sid ∧ pid' = pid
  | _ => False

/-- A leave does nothing but let one participant go. -/
theorem moves_leave (st : SfuShard S) (sid : SessionId) (pid : ParticipantId) :
    Moves (Leaves sid pid) st (st.handleLeave sid pid).1 :=
  moves_handleLeave trivial (fun _ _ => trivial) (fun _ => trivial) ⟨rfl, rfl⟩ st

/-- The session of a leave is there until it is closed. -/
theorem session?_deactivates (entries : List (ParticipantId × List Mid)) (st : SfuShard S)
    (sid sid' : SessionId) : ((entries.foldl (deactivate sid) st).session? sid').isSome =
      (st.session? sid').isSome := by
  have hmoves : Moves (fun e => (∀ sid, e ≠ .closed sid) ∧ ∀ sid pid tx, e ≠ .admitted sid pid tx)
      st (entries.foldl (deactivate sid) st) :=
    .foldl (fun st e _ => moves_deactivate ⟨nofun, nofun⟩ (fun _ _ => ⟨nofun, nofun⟩) sid st e) st
  exact hmoves.invariant (I := fun s => (s.session? sid').isSome = (st.session? sid').isSome)
    (fun e s s' he hm hs => (hm.isSome_session? (he.1 sid') (he.2 sid')).trans hs) rfl

/-- **A leave** leaves every session housed: one in which nobody is left is removed. -/
theorem housed_handleLeave {sid' : SessionId} (h : st.Housed sid') (sid : SessionId)
    (pid : ParticipantId) : (st.handleLeave sid pid).1.Housed sid' := by
  by_cases hsid : sid' = sid
  · subst hsid
    intro hs
    rcases handleLeave_cases st sid' pid with ⟨hnone, heq⟩ | ⟨s, st₁, -, hst₁, hend⟩
    · have hthere : (st.session? sid').isSome = true := by
        rw [heq] at hs
        exact hs
      rw [hnone] at hthere
      cases hthere
    · rcases hend with ⟨s₁, -, -, heq⟩ | ⟨heq, hsome⟩
      · rw [heq, session?, AList.lookup_erase] at hs
        cases hs
      · rw [heq] at hs ⊢
        obtain ⟨s₁, hs₁⟩ := Option.isSome_iff_exists.mp hs
        by_contra hnobody
        refine Bool.eq_false_iff.mp (hsome s₁ hs₁) (Dict.isEmpty_iff.mpr fun pid' => ?_)
        rw [Option.eq_none_iff_forall_ne_some]
        intro p hp
        refine hnobody ⟨pid', ?_⟩
        rw [participant?_eq_some.mpr ⟨s₁, hs₁, hp⟩]
        rfl
  · exact (moves_leave st sid pid).housed (fun _ hl => hsid hl.1) (fun _ _ => id) h

/-- **Who is swept by a leave is gone**, and nobody else is. -/
theorem live_handleLeave (st : SfuShard S) (sid sid' : SessionId) (pid pid' : ParticipantId) :
    ((st.handleLeave sid pid).1.participant? sid' pid').isSome = true ↔
      (st.participant? sid' pid').isSome = true ∧
        swept (st.leaveSweeps sid pid) sid' pid' = false := by
  have hsame (hne : ¬ (sid' = sid ∧ pid' = pid)) :
      ((st.handleLeave sid pid).1.participant? sid' pid').isSome =
        (st.participant? sid' pid').isSome := by
    rw [isSome_participant?, isSome_participant?,
      (moves_leave st sid pid).owner (fun hl => hne ⟨hl.1, hl.2⟩) fun _ => id]
  constructor
  · intro hlive
    have hne : ¬ (sid' = sid ∧ pid' = pid) := by
      rintro ⟨rfl, rfl⟩
      rw [participant?_handleLeave] at hlive
      cases hlive
    refine ⟨(hsame hne).symm.trans hlive, Bool.eq_false_iff.mpr fun hswept => ?_⟩
    obtain ⟨e, he, hhits⟩ := List.any_eq_true.mp hswept
    rcases List.mem_cons.mp he with rfl | he
    · exact hne (hits_participant.mp hhits)
    · -- the session is swept only if it is gone
      split at he
      · rename_i hgone
        obtain rfl := List.mem_singleton.mp he
        obtain rfl := hits_session.mp hhits
        have hnone := Option.isNone_iff_eq_none.mp (Bool.and_eq_true_iff.mp hgone).2
        have hsome := session?_of_participant? hlive
        rw [hnone] at hsome
        cases hsome
      · cases he
  · rintro ⟨hlive, hswept⟩
    rw [hsame, hlive]
    intro hkey
    rw [leaveSweeps, swept, List.any_cons, hits_participant.mpr hkey] at hswept
    cases hswept

/-- A leave does not renumber a shard. -/
theorem shardIndex_handleLeave (st : SfuShard S) (sid : SessionId) (pid : ParticipantId) :
    (st.handleLeave sid pid).1.shardIndex = st.shardIndex := by
  rcases handleLeave_cases st sid pid with ⟨-, heq⟩ | ⟨s, st₁, -, hst₁, hend⟩
  · rw [heq]
  · have hloop : st₁.shardIndex = st.shardIndex := by
      rw [hst₁]
      exact (stays_deactivates sid _ (st.leaveStart sid pid s)).shardIndex
    rcases hend with ⟨s₁, -, -, heq⟩ | ⟨heq, -⟩
    · rw [heq]
      exact hloop
    · rw [heq, hloop]

/-- **A leave** settles the writes of its sweeps. -/
theorem sharedMaps_handleLeave (st : SfuShard S) (sid : SessionId) (pid : ParticipantId) :
    (st.handleLeave sid pid).1.sharedMaps =
      st.sharedMaps.settle ((st.leaveSweeps sid pid).flatMap Sweep.writes) := by
  have hpid : (st.sharedMaps.retain fun t => !(t.sid = sid && t.pid = pid)) =
      st.sharedMaps.settle (Sweep.writes (sid, some pid)) :=
    SharedMaps.retain_eq_settle _ _ fun _ => rfl
  have hsession (m : SharedMaps) : (m.retain fun t => t.sid ≠ sid) =
      m.settle (Sweep.writes (sid, none)) := by
    refine SharedMaps.retain_eq_settle m _ fun t => ?_
    rw [Sweep.hits, Option.all_none, Bool.and_true, decide_not]
  rw [leaveSweeps, List.flatMap_cons, SharedMaps.settle_append]
  rcases handleLeave_cases st sid pid with ⟨hnone, heq⟩ | ⟨s, st₁, hs, hst₁, hend⟩
  · rw [heq, hnone, ← hpid]
    rfl
  · have hmaps : st₁.sharedMaps = st.sharedMaps.settle (Sweep.writes (sid, some pid)) := by
      rw [hst₁, (stays_deactivates sid _ (st.leaveStart sid pid s)).sharedMaps, ← hpid]
      rfl
    rcases hend with ⟨s₁, -, -, heq⟩ | ⟨heq, -⟩
    · have hgone : (st.handleLeave sid pid).1.session? sid = none := by
        rw [heq, session?, AList.lookup_erase]
      rw [hgone, hs, heq]
      dsimp only
      rw [hsession, hmaps]
      rfl
    · have hthere : ((st.handleLeave sid pid).1.session? sid).isSome = true := by
        rw [heq, hst₁, session?_deactivates, leaveStart, session?_setSession, if_pos rfl]
        rfl
      rw [Option.isNone_eq_false_iff.mpr hthere, Bool.and_false, heq, hmaps]
      rfl

/-! ### What a step sweeps and registers -/

/-- **Nobody comes, and who goes is swept**: what a list of sweeps says of two states. -/
structure Clears (st st' : SfuShard S) (l : List Sweep) : Prop where
  live : ∀ sid pid, (st'.participant? sid pid).isSome = true ↔
    (st.participant? sid pid).isSome = true ∧ swept l sid pid = false
  housed : ∀ sid, st.Housed sid → st'.Housed sid
  session : ∀ sid, (st'.session? sid).isSome = true → (st.session? sid).isSome = true
  sharedMaps : st'.sharedMaps = st.sharedMaps.settle (l.flatMap Sweep.writes)
  shardIndex : st'.shardIndex = st.shardIndex

namespace Clears

variable {st'' : SfuShard S} {l l' : List Sweep}

theorem trans (h : st.Clears st' l) (h' : st'.Clears st'' l') : st.Clears st'' (l ++ l') where
  live sid pid := by
    rw [h'.live, h.live, swept_append, Bool.or_eq_false_iff, and_assoc]
  housed sid hh := h'.housed sid (h.housed sid hh)
  session sid hs := h.session sid (h'.session sid hs)
  sharedMaps := by
    rw [h'.sharedMaps, h.sharedMaps, List.flatMap_append, SharedMaps.settle_append]
  shardIndex := h'.shardIndex.trans h.shardIndex

/-- Nobody goes when no move is a departure. -/
theorem of_moves {E : Effect → Prop} (hm : Moves E st st') (hl : ∀ sid pid, ¬ E (.left sid pid))
    (ha : ∀ sid pid tx, ¬ E (.admitted sid pid tx)) (hmaps : st'.sharedMaps = st.sharedMaps)
    (hindex : st'.shardIndex = st.shardIndex) : st.Clears st' [] where
  live sid pid := by
    rw [isSome_participant?, isSome_participant?, hm.owner (hl sid pid) (ha sid pid)]
    exact (and_iff_left rfl).symm
  housed sid hh := hm.housed (hl sid) (ha sid) hh
  session sid hs := hm.session?_back (ha sid) hs
  sharedMaps := hmaps
  shardIndex := hindex

theorem refl (st : SfuShard S) : st.Clears st [] :=
  of_moves (E := Polls) (.refl st) (fun _ _ => id) (fun _ _ _ => id) rfl rfl

/-- Nothing is read of the state but the sessions, the tables and the index. -/
theorem of_eq (h : st'.sessions = st.sessions) (hmaps : st'.sharedMaps = st.sharedMaps)
    (hindex : st'.shardIndex = st.shardIndex) : st.Clears st' [] where
  live sid pid := by
    rw [participant?, participant?, session?, session?, h]
    exact (and_iff_left rfl).symm
  housed sid hh := by
    rw [Housed, session?, h]
    intro hs
    obtain ⟨pid, hpid⟩ := hh hs
    refine ⟨pid, ?_⟩
    rw [participant?, session?, h]
    exact hpid
  session sid hs := by
    rw [session?, h] at hs
    exact hs
  sharedMaps := hmaps
  shardIndex := hindex

end Clears

/-- **A leave** clears what it sweeps. -/
theorem clears_handleLeave (st : SfuShard S) (sid : SessionId) (pid : ParticipantId) :
    st.Clears (st.handleLeave sid pid).1 (st.leaveSweeps sid pid) where
  live sid' pid' := live_handleLeave st sid sid' pid pid'
  housed _ hh := housed_handleLeave hh sid pid
  session _ := (moves_leave st sid pid).session?_back fun _ _ => id
  sharedMaps := sharedMaps_handleLeave st sid pid
  shardIndex := shardIndex_handleLeave st sid pid

/-- A join that finds an earlier participant clears it. -/
theorem clears_kickPrior (st : SfuShard S) (sid : SessionId) (pid : ParticipantId) :
    st.Clears (st.kickPrior sid pid) (st.kickSweeps sid pid) := by
  cases hp : st.participant? sid pid with
  | none =>
    simp only [kickPrior, kickSweeps, hp]
    exact .refl st
  | some p =>
    simp only [kickPrior, kickSweeps, hp]
    have htold : st.Clears (st.wsTrySend p.wsTx (.forceDisconnected "joined_elsewhere")) [] :=
      .of_eq rfl rfl rfl
    exact htold.trans (clears_handleLeave _ sid pid)

/-- Leaves clear what they sweep, by induction over the list. -/
theorem clears_leaves (l : List (SessionId × ParticipantId)) (st : SfuShard S) :
    st.Clears (l.foldl (fun st e => (st.handleLeave e.1 e.2).1) st) (st.leavesSweeps l) := by
  induction l generalizing st with
  | nil => exact .refl st
  | cons e l ih => exact (clears_handleLeave st e.1 e.2).trans (ih _)

/-- Polling takes nobody out. -/
theorem clears_pollTarget (now : Instant) (fuel : ℕ) (st : SfuShard S)
    (target : Option PollTarget) : st.Clears (pollTarget now fuel st target) [] :=
  have hstays := stays_polls.pollTarget now fuel st target
  .of_moves (E := Polls) ((moves_polls trivial fun _ _ => trivial).pollTarget now fuel st target)
    (fun _ _ => id) (fun _ _ _ => id) hstays.sharedMaps hstays.shardIndex

/-- A poll of everybody clears nothing. -/
theorem clears_pollAll (now : Instant) (fuel : ℕ) (st : SfuShard S) :
    st.Clears (pollAll now fuel st) [] :=
  have hstays := stays_polls.pollAll now fuel st
  .of_moves (E := Polls) ((moves_polls trivial fun _ _ => trivial).pollAll now fuel st)
    (fun _ _ => id) (fun _ _ _ => id) hstays.sharedMaps hstays.shardIndex

/-- Timeouts clear nothing. -/
theorem clears_timeouts (st : SfuShard S) (now : Instant) : st.Clears (st.timeouts now) [] :=
  have hstays := stays_timeouts st now
  .of_moves (E := Polls) (.frame trivial (frame_timeouts st now)) (fun _ _ => id)
    (fun _ _ _ => id) hstays.sharedMaps hstays.shardIndex

/-- A tick clears those that it takes for zombies. -/
theorem clears_tick (st : SfuShard S) (now : Instant) :
    st.Clears (st.tick now) ((st.timeouts now).leavesSweeps ((st.timeouts now).zombies now)) :=
  (clears_timeouts st now).trans (clears_leaves _ _)

/-- A step in which nobody comes or goes. -/
theorem clears_quiet {i : Input} (hstep : Step st i st') (hi : i.comesOrGoes = false) :
    st.Clears st' [] := by
  have hkeeps : st'.sharedMaps = st.sharedMaps ∧ st'.shardIndex = st.shardIndex := by
    by_cases hdrain : ∃ tx n, i = .drain tx n
    · obtain ⟨tx, n, rfl⟩ := hdrain
      cases hstep
      exact ⟨rfl, rfl⟩
    · by_cases hclose : ∃ tx, i = .close tx
      · obtain ⟨tx, rfl⟩ := hclose
        cases hstep
        exact ⟨rfl, rfl⟩
      · have hstays := stays_step hstep hi (fun tx n heq => hdrain ⟨tx, n, heq⟩)
          fun tx heq => hclose ⟨tx, heq⟩
        exact ⟨hstays.sharedMaps, hstays.shardIndex⟩
  refine .of_moves (moves_of_step hstep) (fun sid pid => ?_) (fun sid pid tx => ?_) hkeeps.1
    hkeeps.2
  · intro hleft
    rcases i with ⟨cmd, _, _, _⟩ | _ | _ | _ | _ | _ | _
    · cases cmd with
      | join => cases hi
      | leave => cases hi
      | _ => exact hleft
    · cases hi
    all_goals exact hleft
  · intro hadmitted
    rcases i with ⟨cmd, _, _, _⟩ | _ | _ | _ | _ | _ | _
    · cases cmd with
      | join => cases hi
      | _ => exact hadmitted
    all_goals exact hadmitted

/-- What a join does: it clears its place, and takes it if the offer is good. -/
theorem handleJoin_cases (st : SfuShard S) (creds : IceCreds) (now : Instant) (sid : SessionId)
    (pid : ParticipantId) (userId sdpOffer : String) (replyTx : WsTx) :
    (∃ e, (st.handleJoin creds now sid pid userId sdpOffer replyTx).1 =
      (st.kickPrior sid pid).wsTrySend replyTx (.error e)) ∨
    ∃ rtc answer, (st.handleJoin creds now sid pid userId sdpOffer replyTx).1 =
      (st.kickPrior sid pid).addParticipant sid pid userId replyTx rtc answer creds now := by
  unfold handleJoin
  dsimp only
  split
  · exact .inl ⟨_, rfl⟩
  · split
    · exact .inl ⟨_, rfl⟩
    · exact .inr ⟨_, _, rfl⟩

/-- **Who comes and who goes**: the participants of a list of sweeps go, and the one that is
registered comes. -/
structure Turnover (st st' : SfuShard S) (l : List Sweep) (r : Option (String × ShardTarget)) :
    Prop where
  live : ∀ sid pid, (st'.participant? sid pid).isSome = true ↔
    ((st.participant? sid pid).isSome = true ∧ swept l sid pid = false) ∨
      ∃ ufrag, r = some (ufrag, ⟨st.shardIndex, sid, pid⟩)
  /-- Who is registered anew was swept before. -/
  place : ∀ ufrag sid pid, r = some (ufrag, ⟨st.shardIndex, sid, pid⟩) →
    (st.participant? sid pid).isSome = true → swept l sid pid = true
  housed : ∀ sid, st.Housed sid → st'.Housed sid
  session : ∀ sid, (st'.session? sid).isSome = true → (st.session? sid).isSome = true ∨
    ∃ ufrag pid, r = some (ufrag, ⟨st.shardIndex, sid, pid⟩)
  sharedMaps : st'.sharedMaps = st.sharedMaps.settle
    (l.flatMap Sweep.writes ++ r.toList.map fun r => .register r.1 r.2)
  shardIndex : st'.shardIndex = st.shardIndex

/-- What clears and admits nobody is a turnover. -/
theorem Clears.turnover {l : List Sweep} (h : st.Clears st' l) : st.Turnover st' l none where
  live sid pid := by
    rw [h.live]
    refine (or_iff_left ?_).symm
    rintro ⟨ufrag, hr⟩
    cases hr
  place ufrag sid pid hr := by cases hr
  housed := h.housed
  session sid hs := .inl (h.session sid hs)
  sharedMaps := by
    rw [h.sharedMaps, Option.toList_none, List.map_nil, List.append_nil]
  shardIndex := h.shardIndex

/-- What clears nothing may follow a turnover. -/
theorem Turnover.clears {st'' : SfuShard S} {l : List Sweep} {r : Option (String × ShardTarget)}
    (h : st.Turnover st' l r) (h' : st'.Clears st'' []) : st.Turnover st'' l r where
  live sid pid := by
    rw [h'.live, h.live]
    exact and_iff_left rfl
  place := h.place
  housed sid hh := h'.housed sid (h.housed sid hh)
  session sid hs := h.session sid (h'.session sid hs)
  sharedMaps := h'.sharedMaps.trans h.sharedMaps
  shardIndex := h'.shardIndex.trans h.shardIndex

/-- The place that was cleared is taken. -/
theorem turnover_addParticipant {st₁ : SfuShard S} {l : List Sweep} (h : st.Clears st₁ l)
    (hplace : st₁.participant? sid pid = none) (userId : String) (replyTx : WsTx) (rtc : S.Rtc) (answer : S.SdpAnswer) (creds : IceCreds)
    (now : Instant) :
    st.Turnover (st₁.addParticipant sid pid userId replyTx rtc answer creds now) l
      (some (creds.ufrag, ⟨st.shardIndex, sid, pid⟩)) := by
  have hindex : (st₁.addParticipant sid pid userId replyTx rtc answer creds now).shardIndex =
      st₁.shardIndex := by
    unfold addParticipant
    dsimp only
    split <;> rfl
  have hmaps : (st₁.addParticipant sid pid userId replyTx rtc answer creds now).sharedMaps =
      st₁.sharedMaps.write (.register creds.ufrag ⟨st₁.shardIndex, sid, pid⟩) := by
    unfold addParticipant
    dsimp only
    split <;> rfl
  refine ⟨fun sid' pid' => ?_, fun ufrag sid' pid' hr hlive => ?_, fun sid' hh => ?_,
    fun sid' hs => ?_, ?_, hindex.trans h.shardIndex⟩
  · rw [participant?_addParticipant]
    split
    · rename_i heq
      obtain ⟨rfl, rfl⟩ := heq
      exact iff_of_true rfl (.inr ⟨_, rfl⟩)
    · rename_i hne
      rw [h.live]
      refine (or_iff_left ?_).symm
      rintro ⟨ufrag, hr⟩
      cases hr
      exact hne ⟨rfl, rfl⟩
  · cases hr
    by_contra hkept
    have hthere := (h.live sid pid).mpr ⟨hlive, Bool.eq_false_iff.mpr hkept⟩
    rw [hplace] at hthere
    cases hthere
  · intro hs
    by_cases hsid : sid' = sid
    · refine ⟨pid, ?_⟩
      rw [participant?_addParticipant, if_pos ⟨hsid, rfl⟩]
      rfl
    · rw [session?_addParticipant, if_neg hsid] at hs
      obtain ⟨pid', hpid'⟩ := h.housed sid' hh hs
      refine ⟨pid', ?_⟩
      rw [participant?_addParticipant, if_neg fun heq => hsid heq.1]
      exact hpid'
  · by_cases hsid : sid' = sid
    · subst hsid
      exact .inr ⟨_, _, rfl⟩
    · rw [session?_addParticipant, if_neg hsid] at hs
      exact .inl (h.session sid' hs)
  · rw [hmaps, h.sharedMaps, h.shardIndex, SharedMaps.settle_append]
    rfl

/-- **A join** turns over: it sweeps an earlier participant and registers its own. -/
theorem turnover_handleJoin (st : SfuShard S) (creds : IceCreds) (now : Instant) (sid : SessionId)
    (pid : ParticipantId) (userId sdpOffer : String) (replyTx : WsTx) (fuel : ℕ) :
    st.Turnover (st.handleJoin creds now sid pid userId sdpOffer replyTx).1
      (st.kickSweeps sid pid)
      (st.registration? (.command (.join sid pid userId sdpOffer replyTx) creds now fuel)) := by
  have hkick := clears_kickPrior st sid pid
  rw [registration?]
  rcases handleJoin_cases st creds now sid pid userId sdpOffer replyTx with
    ⟨e, heq⟩ | ⟨rtc, answer, heq⟩
  · have hplace : ((st.kickPrior sid pid).wsTrySend replyTx (.error e)).participant? sid pid =
        none := participant?_kickPrior st sid pid
    rw [heq, hplace, if_neg nofun]
    exact hkick.turnover.clears (.of_eq rfl rfl rfl)
  · have hplace : (((st.kickPrior sid pid).addParticipant sid pid userId replyTx rtc answer creds
        now).participant? sid pid).isSome = true := by
      rw [participant?_addParticipant, if_pos ⟨rfl, rfl⟩]
      rfl
    rw [heq, if_pos hplace]
    exact turnover_addParticipant hkick (participant?_kickPrior st sid pid) userId replyTx rtc answer creds now

/-- **Who comes and who goes in a step**, and what the tables are told of it. -/
theorem turnover_step {i : Input} (hstep : Step st i st') :
    st.Turnover st' (st.sweeps i) (st.registration? i) := by
  by_cases hi : i.comesOrGoes = false
  · have hclears := (clears_quiet hstep hi).turnover
    rcases i with ⟨cmd, _, _, _⟩ | _ | _ | _ | _ | _ | _
    · cases cmd with
      | join => cases hi
      | leave => cases hi
      | _ => exact hclears
    · cases hi
    all_goals exact hclears
  · cases hstep with
    | rehash => exact absurd rfl hi
    | next =>
      rcases i with ⟨cmd, creds, now, fuel⟩ | ⟨now, fuel⟩ | _ | _ | _ | _ | _
      · cases cmd with
        | join sid pid userId sdpOffer replyTx =>
          exact (turnover_handleJoin st creds now sid pid userId sdpOffer replyTx fuel).clears
            (clears_pollTarget now fuel _ _)
        | leave sid pid =>
          exact ((clears_handleLeave st sid pid).turnover).clears (clears_pollTarget now fuel _ _)
        | _ => exact absurd rfl hi
      · exact (clears_tick st now).turnover.clears (clears_pollAll now fuel _)
      all_goals exact absurd rfl hi

/-! ### Whose session is swept -/

/-- The session that a step is about, if it is a command. -/
def Input.sid? : Input → Option SessionId
  | .command cmd _ _ _ => some cmd.sid
  | _ => none

/-- The sweeps of a leave are in its session. -/
theorem leaveSweeps_sid {e : Sweep} (he : e ∈ st.leaveSweeps sid pid) : e.1 = sid := by
  rcases List.mem_cons.mp he with rfl | he
  · rfl
  · split at he
    · rw [List.mem_singleton.mp he]
    · cases he

/-- The sweeps of leaves are in their sessions. -/
theorem leavesSweeps_sid (l : List (SessionId × ParticipantId)) (st : SfuShard S) {e : Sweep}
    (he : e ∈ st.leavesSweeps l) : ∃ pid, (e.1, pid) ∈ l := by
  induction l generalizing st with
  | nil => cases he
  | cons e' l ih =>
    rcases List.mem_append.mp he with he | he
    · refine ⟨e'.2, ?_⟩
      rw [leaveSweeps_sid he]
      exact List.mem_cons_self
    · obtain ⟨pid, hpid⟩ := ih _ he
      exact ⟨pid, List.mem_cons_of_mem _ hpid⟩

/-- **A shard sweeps the session of the command, or one that it has.** -/
theorem sweeps_sid {i : Input} {e : Sweep} (he : e ∈ st.sweeps i) :
    i.sid? = some e.1 ∨ (st.session? e.1).isSome = true := by
  rcases i with ⟨cmd, _, _, _⟩ | ⟨now, fuel⟩ | _ | _ | _ | _ | _
  · cases cmd with
    | join sid pid userId sdpOffer replyTx =>
      left
      dsimp only [sweeps, kickSweeps] at he
      split at he
      · cases he
      · rw [leaveSweeps_sid he]
        rfl
    | leave sid pid =>
      left
      rw [leaveSweeps_sid he]
      rfl
    | _ => cases he
  · right
    obtain ⟨pid, hpid⟩ := leavesSweeps_sid _ _ he
    obtain ⟨⟨sid, s⟩, hs, hmem⟩ := List.mem_flatMap.mp hpid
    obtain ⟨p, -, heq⟩ := List.mem_map.mp hmem
    obtain rfl : sid = e.1 := congrArg Prod.fst heq
    refine (clears_timeouts st now).session _ ?_
    rw [session?, Dict.mem_pairs.mp hs]
    rfl
  all_goals cases he

/-- **A shard registers the participant of a join**, under the ufrag of the credentials that
its transport was built with. -/
theorem registration?_eq_some {i : Input} {r : String × ShardTarget}
    (h : st.registration? i = some r) : ∃ sid pid userId sdpOffer replyTx creds now fuel,
      i = .command (.join sid pid userId sdpOffer replyTx) creds now fuel ∧
        r = (creds.ufrag, ⟨st.shardIndex, sid, pid⟩) := by
  rcases i with ⟨cmd, creds, now, fuel⟩ | _ | _ | _ | _ | _ | _
  · cases cmd with
    | join sid pid userId sdpOffer replyTx =>
      dsimp only [registration?] at h
      split at h
      · exact ⟨sid, pid, userId, sdpOffer, replyTx, creds, now, fuel, rfl,
          (Option.some.inj h).symm⟩
      · cases h
    | _ => cases h
  all_goals cases h

end SfuShard

end Video

end MateHub
