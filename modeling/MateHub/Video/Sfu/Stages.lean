import MateHub.Video.Sfu.Drain
import MateHub.Video.Sfu.Owner

/-!
# The event loop, stage by stage

An iteration of `run_blocking` handles a command and polls what it touched, again for every
further command that waits; when the tick is due it sweeps all transports; then it flushes what
has been written, and makes the offers for newly queued tracks. `SfuShard.Stage` names these
stages, with what happens beside the loop, and `SfuShard.Performs` says what each of them does,
its loops without a bound and with a log of the events that they handle.

Each stage ends (`MateHub.Video.SfuShard.total_performs`), so each iteration does, and what it
comes to is what the loop of `MateHub.Video.SfuShard.system` comes to with fuel enough
(`MateHub.Video.SfuShard.Performs.eventually`).
-/

namespace MateHub

namespace Video

variable {S : Str0m} {Q : S.Pump}

namespace SfuShard

/-- The stages of an iteration, and what happens beside them. -/
inductive Stage
  /-- A command is handled, and what it touched is polled. -/
  | command (cmd : SfuCommand) (creds : IceCreds) (now : Instant)
  /-- The tick, and the sweep of all transports. -/
  | tick (now : Instant)
  | flush (now : Instant)
  | negotiate
  /-- The handler of a WebSocket takes messages off its channel. -/
  | drain (tx : WsTx) (n : ℕ)
  /-- The handler of a WebSocket is gone. -/
  | close (tx : WsTx)
  /-- The hash maps are met in another order. -/
  | rehash

namespace Stage

/-- The step of the shard, its loops with a bound on their turns. -/
def input : Stage → ℕ → Input
  | .command cmd creds now, n => .command cmd creds now n
  | .tick now, n => .tick now n
  | .flush now, n => .flush now n n
  | .negotiate, _ => .negotiate
  | .drain tx k, _ => .drain tx k
  | .close tx, _ => .close tx
  | .rehash, _ => .rehash

/-- What is done before anybody is polled. -/
def handles (st : SfuShard S) : Stage → SfuShard S
  | .command cmd creds now => (st.handleCommand creds now cmd).1
  | .tick now => st.tick now
  | .flush _ => st
  | .negotiate => st.negotiatePendingTracks
  | .drain tx n => st.next (.drain tx n)
  | .close tx => st.next (.close tx)
  | .rehash => st

/-- A stage that comes between the flush of an iteration and the commands of the next. -/
def Rests : Stage → Prop
  | .command _ _ _ => False
  | .tick _ => False
  | .flush _ => False
  | _ => True

/-- Whether it is the Join of a participant. -/
def brings (sid : SessionId) (pid : ParticipantId) : Stage → Bool
  | .command (.join sid' pid' _ _ _) _ _ => sid' = sid ∧ pid' = pid
  | _ => false

end Stage

theorem Rehashed.refl (st : SfuShard S) : Rehashed st st where
  sessions := fun _ => Option.Rel.refl (fun _ => ⟨rfl, .refl _, .refl _, .refl _, .refl _⟩) _
  pendingNegotiation := .refl _
  pendingFlush := .refl _
  rest := rfl

/-- **What a stage does**, and which events it handles. -/
inductive Performs : Stage → Logged (SfuShard S) (HandledEvent S)
  | command {cmd : SfuCommand} {creds : IceCreds} {now : Instant} {st st' : SfuShard S}
      {log : List (HandledEvent S)} :
    ExhaustsTarget now (st.handleCommand creds now cmd).2 (st.handleCommand creds now cmd).1
      log st' → Performs (.command cmd creds now) st log st'
  | tick {now : Instant} {st st' : SfuShard S} {log : List (HandledEvent S)} :
    ExhaustsAll now (st.tick now) log st' → Performs (.tick now) st log st'
  | flush {now : Instant} {st st' : SfuShard S} {log : List (HandledEvent S)} :
    Flushes now st log st' → Performs (.flush now) st log st'
  | negotiate (st : SfuShard S) : Performs .negotiate st [] st.negotiatePendingTracks
  | drain (st : SfuShard S) (tx : WsTx) (n : ℕ) :
    Performs (.drain tx n) st [] (st.next (.drain tx n))
  | close (st : SfuShard S) (tx : WsTx) : Performs (.close tx) st [] (st.next (.close tx))
  | rehash {st st' : SfuShard S} : Rehashed st st' → Performs .rehash st [] st'

section Performs

variable {a : Stage} {st st' : SfuShard S} {log : List (HandledEvent S)}

/-- **With fuel enough** the shard does what the stage does. -/
theorem Performs.eventually (h : Performs a st log st') :
    ∀ᶠ n in Filter.atTop, Step st (a.input n) st' := by
  have hnext {f : ℕ → SfuShard S} (hf : ∀ᶠ n in Filter.atTop, f n = st')
      (heq : ∀ n, st.next (a.input n) = f n) : ∀ᶠ n in Filter.atTop, Step st (a.input n) st' := by
    filter_upwards [hf] with n hn
    exact hn ▸ heq n ▸ .next st (a.input n)
  cases h with
  | command h => exact hnext h.eventually fun _ => rfl
  | tick h => exact hnext h.eventually fun _ => rfl
  | flush h => exact hnext h.eventually fun _ => rfl
  | negotiate => exact .of_forall fun _ => .next _ _
  | drain tx n => exact .of_forall fun _ => .next _ _
  | close tx => exact .of_forall fun _ => .next _ _
  | rehash h => exact .of_forall fun _ => .rehash h

theorem Performs.exists_step (h : Performs a st log st') : ∃ i, Step st i st' :=
  h.eventually.exists.elim fun n hstep => ⟨a.input n, hstep⟩

/-- **Every stage ends.** -/
theorem total_performs (Q : S.Pump) (hfinal : Str0m.Final (S := S) Eq) (a : Stage) :
    Logged.Total (fun _ => True) (Performs (S := S) a) := by
  intro st _
  cases a with
  | command cmd creds now =>
    obtain ⟨log, st', h⟩ := total_pollsTarget Q hfinal now _ _ trivial
    exact ⟨log, st', .command h⟩
  | tick now =>
    obtain ⟨log, st', h⟩ := total_pollsAll Q hfinal now (st.tick now) trivial
    exact ⟨log, st', .tick h⟩
  | flush now =>
    obtain ⟨log, st', h⟩ := total_flushes Q hfinal now st trivial
    exact ⟨log, st', .flush h⟩
  | negotiate => exact ⟨_, _, .negotiate st⟩
  | drain tx n => exact ⟨_, _, .drain st tx n⟩
  | close tx => exact ⟨_, _, .close st tx⟩
  | rehash => exact ⟨_, _, .rehash (.refl st)⟩

end Performs

/-! ### By computation -/

/-- A turn of `poll_participant_inner`, and whether it is the last. -/
def pollOnce (now : Instant) (sid : SessionId) (pid : ParticipantId) (st : SfuShard S) :
    Bool × List (HandledEvent S) × SfuShard S :=
  match st.participant? sid pid with
  | none => (true, [], st)
  | some p =>
    if S.isAlive p.rtc = false then (true, [], st)
    else match S.pollOutput p.rtc with
      | (rtc, .error _) => (true, [], st.setParticipant sid pid { p with rtc := S.disconnect rtc })
      | (rtc, .ok (.timeout _)) => (true, [], st.setParticipant sid pid { p with rtc := rtc })
      | (rtc, .ok (.transmit _ _)) => (false, [], st.setParticipant sid pid { p with rtc := rtc })
      | (rtc, .ok (.event e)) =>
        let st := st.setParticipant sid pid { p with rtc := rtc }
        (false, [⟨now, sid, pid, e, st⟩], st.handleEvent now sid pid e)

/-- `poll_participant`, if so many turns are enough. -/
def exhaust (now : Instant) (sid : SessionId) (n : ℕ) (pid : ParticipantId) :
    SfuShard S → Option (List (HandledEvent S) × SfuShard S) :=
  Logged.repeated (fun st => some (pollOnce now sid pid st)) n

/-- `poll_session`. -/
def exhaustSession (now : Instant) (n : ℕ) (sid : SessionId) (st : SfuShard S) :
    Option (List (HandledEvent S) × SfuShard S) :=
  Logged.each (exhaust now sid n) (st.pids sid) st

/-- `poll_target`. -/
def exhaustTarget (now : Instant) (n : ℕ) (st : SfuShard S) :
    Option PollTarget → Option (List (HandledEvent S) × SfuShard S)
  | some (.one sid pid) => exhaust now sid n pid st
  | some (.session sid) => exhaustSession now n sid st
  | none => some ([], st)

/-- A turn of `flush_pending_writes`. -/
def flushOnce (now : Instant) (n : ℕ) (st : SfuShard S) :
    Option (Bool × List (HandledEvent S) × SfuShard S) :=
  match st.pendingFlush.keys with
  | [] => some (true, [], st)
  | (sid, pid) :: _ =>
    (exhaust now sid n pid { st with pendingFlush := st.pendingFlush.erase (sid, pid) }).map
      fun r => (false, r)

/-- What a stage comes to, if so many turns are enough for each of its loops. -/
def carryOut (n : ℕ) (a : Stage) (st : SfuShard S) : Option (List (HandledEvent S) × SfuShard S) :=
  match a with
  | .command cmd creds now =>
    exhaustTarget now n (st.handleCommand creds now cmd).1 (st.handleCommand creds now cmd).2
  | .tick now => Logged.each (exhaustSession now n) (st.tick now).sessions.keys (st.tick now)
  | .flush now => Logged.repeated (flushOnce now n) n st
  | .rehash => some ([], st)
  | a => some ([], a.handles st)

theorem pollTurn_pollOnce {now : Instant} {sid : SessionId} {pid : ParticipantId}
    {st st' : SfuShard S} {log : List (HandledEvent S)}
    (h : some (pollOnce now sid pid st) = some (false, log, st')) :
    PollTurn now sid pid st log st' := by
  have h := Option.some.inj h
  unfold pollOnce at h
  split at h
  · cases h
  · rename_i p hp
    split_ifs at h with hdead
    · cases h
    · have halive : S.isAlive p.rtc = true := by simpa using hdead
      split at h
      · cases h
      · cases h
      · rename_i rtc _ _ hpoll
        obtain ⟨rfl, rfl⟩ : [] = log ∧ _ = st' := Prod.mk.inj (Prod.mk.inj h).2
        exact .transmit hp halive hpoll
      · rename_i rtc e hpoll
        obtain ⟨rfl, rfl⟩ : _ = log ∧ _ = st' := Prod.mk.inj (Prod.mk.inj h).2
        exact .event hp halive hpoll

theorem pollEnd_pollOnce {now : Instant} {sid : SessionId} {pid : ParticipantId}
    {st st' : SfuShard S} {log : List (HandledEvent S)}
    (h : some (pollOnce now sid pid st) = some (true, log, st')) : PollEnd sid pid st log st' := by
  have h := Option.some.inj h
  unfold pollOnce at h
  split at h
  · rename_i hp
    obtain ⟨rfl, rfl⟩ := Prod.mk.inj (Prod.mk.inj h).2
    exact .gone hp
  · rename_i p hp
    split_ifs at h with hdead
    · obtain ⟨rfl, rfl⟩ := Prod.mk.inj (Prod.mk.inj h).2
      exact .dead hp hdead
    · have halive : S.isAlive p.rtc = true := by simpa using hdead
      split at h
      · rename_i hpoll
        obtain ⟨rfl, rfl⟩ := Prod.mk.inj (Prod.mk.inj h).2
        exact .error hp halive hpoll
      · rename_i hpoll
        obtain ⟨rfl, rfl⟩ := Prod.mk.inj (Prod.mk.inj h).2
        exact .timeout hp halive hpoll
      · cases h
      · cases h

theorem computes_exhaust (now : Instant) (sid : SessionId) (n : ℕ) (pid : ParticipantId) :
    Logged.Computes (exhaust (S := S) now sid n pid) (Exhausts now sid pid) :=
  Logged.computes_repeated pollTurn_pollOnce pollEnd_pollOnce n

theorem computes_exhaustSession (now : Instant) (n : ℕ) (sid : SessionId) :
    Logged.Computes (exhaustSession (S := S) now n sid) (ExhaustsSession now sid) :=
  fun h => Logged.computes_each (computes_exhaust now sid n) _ h

theorem computes_flushes (now : Instant) (n m : ℕ) :
    Logged.Computes (Logged.repeated (flushOnce (S := S) now n) m) (Flushes now) := by
  refine Logged.computes_repeated (fun {st log st'} h => ?_) (fun {st log st'} h => ?_) m
  · unfold flushOnce at h
    split at h
    · cases h
    · rename_i sid pid rest hkeys
      obtain ⟨r, hr, hsame⟩ := Option.map_eq_some_iff.mp h
      obtain ⟨-, rfl⟩ := Prod.mk.inj hsame
      exact ⟨sid, pid, rest, hkeys, computes_exhaust now sid n pid hr⟩
  · unfold flushOnce at h
    split at h
    · rename_i hkeys
      obtain ⟨rfl, rfl⟩ := Prod.mk.inj (Prod.mk.inj (Option.some.inj h)).2
      exact ⟨hkeys, rfl, rfl⟩
    · obtain ⟨r, -, hsame⟩ := Option.map_eq_some_iff.mp h
      cases hsame

/-- **What is computed is what the stage does.** -/
theorem computes_carryOut (n : ℕ) (a : Stage) :
    Logged.Computes (carryOut (S := S) n a) (Performs a) := by
  intro st log st' h
  have hsame {st₁ : SfuShard S} (h : some (([] : List (HandledEvent S)), st₁) = some (log, st')) :
      log = [] ∧ st' = st₁ :=
    ⟨(Prod.mk.inj (Option.some.inj h)).1.symm, (Prod.mk.inj (Option.some.inj h)).2.symm⟩
  cases a with
  | command cmd creds now =>
    refine .command ?_
    unfold carryOut at h
    dsimp only at h
    revert h
    rcases (st.handleCommand creds now cmd).2 with _ | ⟨sid, pid⟩ | sid
    · exact fun h => hsame h
    · exact fun h => computes_exhaust now sid n pid h
    · exact fun h => computes_exhaustSession now n sid h
  | tick now => exact .tick (Logged.computes_each (computes_exhaustSession now n) _ h)
  | flush now => exact .flush (computes_flushes now n n h)
  | negotiate =>
    obtain ⟨rfl, rfl⟩ := hsame h
    exact .negotiate _
  | drain tx k =>
    obtain ⟨rfl, rfl⟩ := hsame h
    exact .drain _ tx k
  | close tx =>
    obtain ⟨rfl, rfl⟩ := hsame h
    exact .close _ tx
  | rehash =>
    obtain ⟨rfl, rfl⟩ := hsame h
    exact .rehash (.refl _)

end SfuShard

end Video

end MateHub
