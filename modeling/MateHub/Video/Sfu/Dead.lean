import MateHub.Video.Sfu.Flags
import MateHub.Video.Sfu.Owner

/-!
# Whether a dead participant is swept

The SFU disconnects a transport in five places: on a leave and in the zombie sweep, where the
participant goes at once; on a caught panic, which sets `ice_disconnected` for the sweep; and
on an error of `handle_input` or of `poll_output`, which sets nothing. A participant whose
transport is disconnected gets no ICE event any more, so the sweep finds it only if the flag
was set before. And it takes the participant only when that has been silent for the timeout:
every datagram that the dead transport accepts is counted as activity. Where neither is in the
way, the sweep takes whoever is dead (`MateHub.Video.dead_swept`).
-/

namespace MateHub

namespace Video

variable {S : Str0m} {leaves : S.Rtc → S.Rtc → Prop}

namespace SfuShard

variable {sid : SessionId} {pid : ParticipantId} {st st' : SfuShard S}

/-! ### Errors -/

/-- `handle_input` returns an error for this datagram. -/
def InputError (st : SfuShard S) (now : Instant) (sid : SessionId) (pid : ParticipantId)
    (source : SocketAddr) (data : List UInt8) : Prop :=
  ∃ p contents rtc e, st.participant? sid pid = some p ∧ S.datagram data = some contents ∧
    S.accepts p.rtc now source st.primaryCandidateAddr contents = true ∧
    S.handleReceive p.rtc now source st.primaryCandidateAddr contents = (rtc, .error e)

/-- `poll_output` returns an error in this turn. -/
def PollError (st : SfuShard S) (sid : SessionId) (pid : ParticipantId) : Prop :=
  ∃ p rtc e, st.participant? sid pid = some p ∧ S.isAlive p.rtc = true ∧
    S.pollOutput p.rtc = (rtc, .error e)

/-- The participant is flagged for the sweep. -/
def Flagged (st : SfuShard S) (sid : SessionId) (pid : ParticipantId) : Prop :=
  ∀ p, st.participant? sid pid = some p → p.iceDisconnected = true

/-- Whether the SFU disconnects the transport of a participant in a step. -/
def Disconnects (st : SfuShard S) (sid : SessionId) (pid : ParticipantId) : Piece S → Prop
  | .command (.leave sid' pid') _ _ => sid' = sid ∧ pid' = pid
  | .command (.udpInput sid' pid' source data) _ now =>
    sid' = sid ∧ pid' = pid ∧ st.InputError now sid pid source data
  | .turn sid' pid' _ => sid' = sid ∧ pid' = pid ∧ st.PollError sid pid
  | .panic sid' pid' _ _ _ => sid' = sid ∧ pid' = pid
  | .tick now => (sid, pid) ∈ (st.timeouts now).zombies now
  | _ => False

/-- Whether a step is a Join of this participant id, whose participant has a transport of its
own. -/
def Joins (sid : SessionId) (pid : ParticipantId) : Piece S → Prop
  | .command (.join sid' pid' _ _ _) _ _ => sid' = sid ∧ pid' = pid
  | _ => False

/-- Whether a step is a panic caught in a poll of the participant, which disconnects it anew. -/
def Panics (sid : SessionId) (pid : ParticipantId) : Piece S → Prop
  | .panic sid' pid' _ _ _ => sid' = sid ∧ pid' = pid
  | _ => False

/-- **Whoever is disconnected on an error is flagged already.** -/
def FlaggedFirst (st : SfuShard S) : Piece S → Prop
  | .command (.udpInput sid pid source data) _ now =>
    st.InputError now sid pid source data → st.Flagged sid pid
  | .turn sid pid _ => st.PollError sid pid → st.Flagged sid pid
  | _ => True

/-! ### The sweep -/

theorem mem_zombies {p : SfuParticipant S} (hids : st.Ids) (hp : st.participant? sid pid = some p)
    (hflag : p.iceDisconnected = true) {now : Instant}
    (hsilent : st.zombieTimeout < now - p.lastActivityAt) :
    (sid, pid) ∈ (st.timeouts now).zombies now := by
  have hp' : (st.timeouts now).participant? sid pid =
      some { p with rtc := S.handleTimeout p.rtc now } := by
    rw [participant?_timeouts, hp]
    rfl
  obtain ⟨s, hs, hlookup⟩ := participant?_eq_some.mp hp'
  refine List.mem_flatMap.mpr ⟨(sid, s), Dict.mem_pairs.mpr hs, List.mem_map.mpr
    ⟨_, List.mem_filter.mpr ⟨Dict.mem_values.mpr ⟨pid, hlookup⟩, ?_⟩, ?_⟩⟩
  · rw [isZombie, Bool.and_eq_true_iff]
    exact ⟨hflag, decide_eq_true hsilent⟩
  · exact congrArg (Prod.mk sid) (hids sid pid p hp)

/-- Whoever is not there is not brought back by a leave. -/
theorem participant?_handleLeave_none (h : st.participant? sid pid = none) (sid' : SessionId)
    (pid' : ParticipantId) : (st.handleLeave sid' pid').1.participant? sid pid = none := by
  have hmoves : Moves (fun e => ∀ tx, e ≠ .admitted sid pid tx) st (st.handleLeave sid' pid').1 :=
    moves_handleLeave nofun (fun _ _ => nofun) (fun _ => nofun) nofun st
  refine hmoves.invariant (I := fun st => st.participant? sid pid = none)
    (fun e st st' he hm hst => ?_) h
  by_cases hl : e = .left sid pid
  · subst hl
    cases hm
    rw [participant?_leaveMove, if_pos rfl, if_pos rfl]
  · have hrel := hm.participant hl he
    rw [hst] at hrel
    exact hrel.none_left

theorem participant?_leaves_none (l : List (SessionId × ParticipantId)) {st : SfuShard S}
    (h : st.participant? sid pid = none ∨ (sid, pid) ∈ l) :
    (l.foldl (fun st e => (st.handleLeave e.1 e.2).1) st).participant? sid pid = none := by
  induction l generalizing st with
  | nil => exact h.resolve_right List.not_mem_nil
  | cons e l ih =>
    refine ih ?_
    rcases h with h | h
    · exact .inl (participant?_handleLeave_none h e.1 e.2)
    · rcases List.mem_cons.mp h with rfl | h
      · exact .inl (participant?_handleLeave st sid pid)
      · exact .inr h

/-- **The sweep takes every zombie.** -/
theorem participant?_tick {now : Instant} (h : (sid, pid) ∈ (st.timeouts now).zombies now) :
    (st.tick now).participant? sid pid = none :=
  participant?_leaves_none _ (.inr h)

/-- The sweep brings nobody. -/
theorem participant?_tick_none (h : st.participant? sid pid = none) (now : Instant) :
    (st.tick now).participant? sid pid = none :=
  participant?_leaves_none _ (.inl (by rw [participant?_timeouts, h]; rfl))

/-- The sweep takes nobody that is no zombie. -/
theorem participant?_tick_of_not_zombie {p : SfuParticipant S} {now : Instant} (hids : st.Ids)
    (hp : st.participant? sid pid = some p) (hz : isZombie st.zombieTimeout now p = false) :
    ((st.tick now).participant? sid pid).isSome = true := by
  have hnot : (sid, pid) ∉ (st.timeouts now).zombies now := by
    intro hmem
    obtain ⟨p', hp', hz'⟩ := isZombie_of_mem_zombies hids hmem
    obtain rfl := Option.some.inj (hp.symm.trans hp')
    rw [hz] at hz'
    cases hz'
  have hmoves : Moves (fun e => e ≠ .left sid pid ∧ ∀ tx, e ≠ .admitted sid pid tx) st
      (st.tick now) := by
    refine moves_tick ⟨nofun, nofun⟩ (fun _ _ => ⟨nofun, nofun⟩) (fun _ => ⟨nofun, nofun⟩) st now
      fun e he => ⟨fun heq => hnot ?_, nofun⟩
    obtain ⟨rfl, rfl⟩ := Effect.left.inj heq
    exact he
  refine hmoves.invariant (I := fun st => (st.participant? sid pid).isSome = true)
    (fun e st st' he hm hst => ?_) (by rw [hp]; rfl)
  obtain ⟨q, hq⟩ := Option.isSome_iff_exists.mp hst
  have hrel := hm.participant he.1 he.2
  rw [hq] at hrel
  obtain ⟨q', hq', -⟩ := hrel.some_left
  rw [hq']
  rfl

/-- The sweep takes nobody that is not flagged. -/
theorem participant?_tick_of_not_flagged {p : SfuParticipant S} (hids : st.Ids)
    (hp : st.participant? sid pid = some p) (hflag : p.iceDisconnected = false) (now : Instant) :
    ((st.tick now).participant? sid pid).isSome = true :=
  participant?_tick_of_not_zombie hids hp (by rw [isZombie, hflag, Bool.false_and])

/-- **A datagram that is accepted puts the sweep off** for the timeout, be the transport dead. -/
theorem participant?_tick_handleUdpInput {p : SfuParticipant S} {now now' : Instant}
    {source : SocketAddr} {data : List UInt8} {contents : S.DatagramRecv} (hids : st.Ids)
    (hp : st.participant? sid pid = some p) (hdata : S.datagram data = some contents)
    (haccepts : S.accepts p.rtc now source st.primaryCandidateAddr contents = true)
    (hsoon : now' - now ≤ st.zombieTimeout) :
    (((st.handleUdpInput now sid pid source data).1.tick now').participant? sid pid).isSome =
      true := by
  have hheard : ∃ rtc, (st.handleUdpInput now sid pid source data).1 =
      st.setParticipant sid pid { p with rtc := rtc, lastActivityAt := now } := by
    rcases hreceive : S.handleReceive p.rtc now source st.primaryCandidateAddr contents with
      ⟨rtc, _ | _⟩
    · exact ⟨S.disconnect rtc, by simp [handleUdpInput, hp, hdata, haccepts, hreceive]⟩
    · exact ⟨rtc, by simp [handleUdpInput, hp, hdata, haccepts, hreceive]⟩
  obtain ⟨rtc, heq⟩ := hheard
  rw [heq]
  refine participant?_tick_of_not_zombie (p := { p with rtc := rtc, lastActivityAt := now }) ?_ ?_
    ?_
  · intro sid' pid' q hq
    rw [participant?_setParticipant hp] at hq
    split at hq
    · next hsame =>
      obtain rfl := Option.some.inj hq
      exact (hids sid pid p hp).trans hsame.2.symm
    · exact hids sid' pid' q hq
  · rw [participant?_setParticipant hp, if_pos ⟨rfl, rfl⟩]
  · exact Bool.and_eq_false_iff.mpr (.inr (decide_eq_false (Nat.not_lt.mpr hsoon)))

/-! ### Steps -/

theorem Ids.command (h : st.Ids) (creds : IceCreds) (now : Instant) (cmd : SfuCommand) :
    (st.handleCommand creds now cmd).1.Ids :=
  h.moves (moves_handleCommand st cmd creds now 0)

theorem Ids.turn (h : st.Ids) (sid : SessionId) (pid : ParticipantId) (now : Instant) :
    (pollParticipant now sid pid 1 st).Ids :=
  h.moves ((moves_polls (E := fun _ => True) trivial fun _ _ => trivial).pollParticipant now sid
    pid 1 st)

theorem Ids.perform {i : Piece S} (h : st.Ids) (hi : st.Happens leaves i) :
    (st.perform i).Ids := by
  cases i with
  | command cmd creds now => exact h.command creds now cmd
  | turn sid pid now => exact h.turn sid pid now
  | panic sid pid now calls poison =>
    have hspares : Spares leaves sid pid st (pollCaught poison (some calls) now sid pid st) :=
      spares_pollCaught (fun rtc => .single (.panicked (hi.1 rtc))) (some calls) now sid pid st
    intro sid' pid' p' hp'
    have hrel : Option.Rel SameOwner (st.participant? sid' pid') (some p') := by
      rw [← hp']
      by_cases heq : sid' = sid ∧ pid' = pid
      · rw [heq.1, heq.2]
        exact hspares.own
      · exact (hspares.others sid' pid' heq).imp Bystander.owner
    obtain ⟨p, hp, ho⟩ := hrel.some_right
    exact ho.1.trans (h sid' pid' p hp)
  | tick now =>
    exact h.moves (moves_tick (E := fun _ => True) trivial (fun _ _ => trivial) (fun _ => trivial)
      st now fun _ _ => trivial)
  | flush e => exact h
  | negotiate => exact h.step (.next st .negotiate)
  | drain tx n => exact h.step (.next st (.drain tx n))
  | close tx => exact h.step (.next st (.close tx))
  | rehash => exact h

/-- A participant that is disconnected in a step is gone after it, or dead and flagged. -/
theorem dead_of_disconnects (hfinal : Str0m.Final leaves) {i : Piece S}
    (hi : st.Happens leaves i) (hok : st.FlaggedFirst i) (hd : st.Disconnects sid pid i)
    {p' : SfuParticipant S} (hp' : (st.perform i).participant? sid pid = some p') :
    p'.iceDisconnected = true ∧ S.isAlive p'.rtc = false := by
  cases i with
  | command cmd creds now =>
    cases cmd with
    | leave sid' pid' =>
      obtain ⟨rfl, rfl⟩ := hd
      exact absurd (hp'.symm.trans (participant?_handleLeave st sid' pid')) (by simp)
    | udpInput sid' pid' source data =>
      obtain ⟨rfl, rfl, herror⟩ := hd
      have hflag := hok herror
      obtain ⟨p, contents, rtc, e, hp, hdata, haccepts, hreceive⟩ := herror
      have heq : (st.perform (.command (.udpInput sid' pid' source data) creds now)) =
          st.setParticipant sid' pid'
            { p with rtc := S.disconnect rtc, lastActivityAt := now } := by
        simp [perform, handleCommand, handleUdpInput, hp, hdata, haccepts, hreceive]
      rw [heq, participant?_setParticipant hp, if_pos ⟨rfl, rfl⟩] at hp'
      obtain rfl := Option.some.inj hp'
      exact ⟨hflag p hp, hfinal.disconnect rtc⟩
    | _ => exact absurd hd id
  | turn sid' pid' now =>
    obtain ⟨rfl, rfl, herror⟩ := hd
    have hflag := hok herror
    obtain ⟨p, rtc, e, hp, halive, hpoll⟩ := herror
    have heq : (st.perform (.turn sid' pid' now)) =
        st.setParticipant sid' pid' { p with rtc := S.disconnect rtc } := by
      simp [perform, pollParticipant, hp, halive, hpoll]
    rw [heq, participant?_setParticipant hp, if_pos ⟨rfl, rfl⟩] at hp'
    obtain rfl := Option.some.inj hp'
    exact ⟨hflag p hp, hfinal.disconnect rtc⟩
  | panic sid' pid' now calls poison =>
    obtain ⟨rfl, rfl⟩ := hd
    have hpanics : PollPanics leaves sid' pid' now 0 calls st
        (st.perform (.panic sid' pid' now calls poison)) := ⟨poison, hi, rfl⟩
    obtain ⟨p, hp⟩ := hpanics.isolated.dead
    obtain rfl := Option.some.inj (hp'.symm.trans hp)
    exact ⟨rfl, hfinal.disconnect p.rtc⟩
  | tick now => exact absurd (hp'.symm.trans (participant?_tick hd)) (by simp)
  | _ => exact absurd hd id

theorem disconnects_of_panics {i : Piece S} (h : Panics sid pid i) :
    st.Disconnects sid pid i := by
  cases i with
  | panic => exact h
  | _ => exact absurd h id

/-- What the sweep goes by stays as it is in a step that is neither a Join nor a panic of the
participant. -/
theorem keeping_of_not_joins (hfinal : Str0m.Final leaves) {i : Piece S}
    (hi : st.Happens leaves i) (hjoin : ¬ Joins sid pid i) (hpanic : ¬ Panics sid pid i) :
    Keeping (st.Deaf sid pid i) sid pid st (st.perform i) := by
  refine keeping_perform hfinal hi ?_ ?_
  · rintro userId sdpOffer tx creds now rfl
    exact hjoin ⟨rfl, rfl⟩
  · rintro now calls poison rfl
    exact hpanic ⟨rfl, rfl⟩

end SfuShard

/-! ### Runs -/

/-- A shard, with whom the SFU has disconnected: a participant id is on record from the time
its transport was disconnected until a Join brings it another one. -/
structure Watch (S : Str0m) where
  shard : SfuShard S
  disconnected : SessionId → ParticipantId → Prop

/-- The steps of the shard, taken apart, with whom they disconnect. -/
def watching (leaves : S.Rtc → S.Rtc → Prop) : System (Watch S) (SfuShard.Piece S) where
  init w := (SfuShard.system S).init w.shard ∧ ∀ sid pid, ¬ w.disconnected sid pid
  step w i w' := SfuShard.PieceStep leaves w.shard i w'.shard ∧
    ∀ sid pid, w'.disconnected sid pid ↔ w.shard.Disconnects sid pid i ∨
      w.disconnected sid pid ∧ ¬ SfuShard.Joins sid pid i

/-- Whoever has been disconnected and is there is dead and flagged. -/
structure Watch.Good (w : Watch S) : Prop where
  ids : w.shard.Ids
  dead : ∀ sid pid p, w.disconnected sid pid → w.shard.participant? sid pid = some p →
    p.iceDisconnected = true ∧ S.isAlive p.rtc = false

theorem Watch.Good.step (hfinal : Str0m.Final leaves) {w w' : Watch S} {i : SfuShard.Piece S}
    (h : w.Good) (hok : w.shard.FlaggedFirst i) (hstep : (watching leaves).step w i w') :
    w'.Good := by
  obtain ⟨st, disconnected⟩ := w
  obtain ⟨st', disconnected'⟩ := w'
  obtain ⟨hpiece, hdisc⟩ := hstep
  dsimp only at hpiece hdisc
  cases hpiece with
  | rehash hr =>
    refine ⟨h.ids.move (.framed (.rehashed hr)), fun sid pid p hd hp => ?_⟩
    rcases (hdisc sid pid).mp hd with hd | ⟨hd, -⟩
    · exact absurd hd id
    · exact h.dead sid pid p hd ((SfuShard.participant?_rehashed hr).symm.trans hp)
  | perform hi =>
    refine ⟨h.ids.perform hi, fun sid pid p' hd hp' => ?_⟩
    by_cases hnew : st.Disconnects sid pid i
    · exact SfuShard.dead_of_disconnects hfinal hi hok hnew hp'
    · obtain ⟨hold, hjoin⟩ := ((hdisc sid pid).mp hd).resolve_left hnew
      obtain ⟨p, hp, hk⟩ := SfuShard.keeping_of_not_joins hfinal hi hjoin
        (fun hpanic => hnew (SfuShard.disconnects_of_panics hpanic)) p' hp'
      obtain ⟨hflag, halive⟩ := h.dead sid pid p hold hp
      obtain ⟨halive', hflag', -⟩ := hk halive
      exact ⟨hflag'.trans hflag, halive'⟩

theorem good_of_reach (hfinal : Str0m.Final leaves) {w : Watch S}
    (hw : (watching leaves).Reach (fun w i => w.shard.FlaggedFirst i) w) : w.Good := by
  refine hw.invariant (fun w hinit => ?_) fun w i w' h hok hstep => h.step hfinal hok hstep
  obtain ⟨⟨_, _, _, hnew⟩, hnobody⟩ := hinit
  exact ⟨hnew ▸ SfuShard.ids_new _ _ _, fun sid pid p hd => absurd hd (hnobody sid pid)⟩

/-- **The steps after a death that do not put off the sweep**: no datagram is given to the dead
transport that it accepts, and nothing begins anew. -/
def Watch.Undisturbed (sid : SessionId) (pid : ParticipantId) (w : Watch S)
    (i : SfuShard.Piece S) : Prop :=
  w.shard.FlaggedFirst i ∧ w.shard.Deaf sid pid i ∧ ¬ SfuShard.Joins sid pid i ∧
    ¬ SfuShard.Panics sid pid i

/-- A participant that is dead and flagged, and has been silent since a time, or is gone. -/
structure Watch.Doomed (sid : SessionId) (pid : ParticipantId) (since : Instant) (w : Watch S) :
    Prop where
  good : w.Good
  disconnected : w.disconnected sid pid
  silent : ∀ p, w.shard.participant? sid pid = some p → p.lastActivityAt = since

theorem Watch.Doomed.step (hfinal : Str0m.Final leaves) {w w' : Watch S} {i : SfuShard.Piece S}
    {sid : SessionId} {pid : ParticipantId} {since : Instant} (h : w.Doomed sid pid since)
    (hok : w.Undisturbed sid pid i) (hstep : (watching leaves).step w i w') :
    w'.Doomed sid pid since := by
  obtain ⟨hflagged, hdeaf, hjoin, hpanic⟩ := hok
  have hgood := h.good.step hfinal hflagged hstep
  obtain ⟨st, disconnected⟩ := w
  obtain ⟨st', disconnected'⟩ := w'
  obtain ⟨hpiece, hdisc⟩ := hstep
  dsimp only at hpiece hdisc
  refine ⟨hgood, (hdisc sid pid).mpr (.inr ⟨h.disconnected, hjoin⟩), fun p' hp' => ?_⟩
  cases hpiece with
  | rehash hr => exact h.silent p' ((SfuShard.participant?_rehashed hr).symm.trans hp')
  | perform hi =>
    obtain ⟨p, hp, hk⟩ := SfuShard.keeping_of_not_joins hfinal hi hjoin hpanic p' hp'
    obtain ⟨-, -, hactive⟩ := hk (h.good.dead sid pid p h.disconnected hp).2
    exact (hactive hdeaf).trans (h.silent p hp)

/-- A tick takes a participant that is doomed once it has been silent for the timeout. -/
theorem Watch.Doomed.swept {w : Watch S} {sid : SessionId} {pid : ParticipantId} {since : Instant}
    (h : w.Doomed sid pid since) {now : Instant} (hsilent : w.shard.zombieTimeout < now - since) :
    (w.shard.tick now).participant? sid pid = none := by
  rcases hp : w.shard.participant? sid pid with _ | p
  · exact SfuShard.participant?_tick_none hp now
  · refine SfuShard.participant?_tick (SfuShard.mem_zombies h.good.ids hp ?_ ?_)
    · exact (h.good.dead sid pid p h.disconnected hp).1
    · rwa [h.silent p hp]

/-- **A dead participant is swept**, in a run in which whoever is disconnected on an error of
`handle_input` or `poll_output` is flagged already. It is gone, or it is flagged; and from then
on, as long as its transport is given no datagram that it accepts, the silence window elapses:
whatever else is done, the first tick that comes later than the timeout after its last activity
takes it. -/
theorem dead_swept (hfinal : Str0m.Final leaves) {w : Watch S}
    (hw : (watching leaves).Reach (fun w i => w.shard.FlaggedFirst i) w) {sid : SessionId}
    {pid : ParticipantId} (hd : w.disconnected sid pid) :
    w.shard.participant? sid pid = none ∨
      ∃ p, w.shard.participant? sid pid = some p ∧ p.iceDisconnected = true ∧
        ∀ w', ((watching leaves).startingAt w).Reach (Watch.Undisturbed sid pid) w' →
          ∀ now, w'.shard.zombieTimeout < now - p.lastActivityAt →
            (w'.shard.tick now).participant? sid pid = none := by
  have hgood := good_of_reach hfinal hw
  rcases hp : w.shard.participant? sid pid with _ | p
  · exact .inl rfl
  · refine .inr ⟨p, rfl, (hgood.dead sid pid p hd hp).1, fun w' hw' now hsilent => ?_⟩
    have hdoomed : w'.Doomed sid pid p.lastActivityAt :=
      hw'.invariant (fun w' hinit => hinit ▸ ⟨hgood, hd, fun q hq =>
        congrArg SfuParticipant.lastActivityAt (Option.some.inj (hq.symm.trans hp))⟩)
        fun w i w' h hok hstep => h.step hfinal hok hstep
    exact hdoomed.swept hsilent

/-! ### A panic, and an error -/

theorem Scripted.final_scriptedWith (pollOutput : Rtc → Rtc × Except String Output)
    (streamRx : Rtc → Ssrc → Option (Mid × Option Rid)) (params : Rtc → Pt → Option Pt)
    (hpoll : ∀ rtc, rtc.alive = false → (pollOutput rtc).1.alive = false) :
    Str0m.Final (S := scriptedWith pollOutput streamRx params) Eq where
  disconnect := fun _ => rfl
  call := fun {rtc rtc'} h hdead => by
    rcases call_scriptedWith pollOutput streamRx params h with rfl | ⟨-, hkeeps⟩
    · exact hpoll rtc hdead
    · exact hkeeps hdead
  panicked := fun h hdead => h ▸ hdead

theorem Scripted.final_scripted : Str0m.Final (S := scripted) Eq := by
  refine final_scriptedWith scripted.pollOutput scripted.streamRx scripted.findPayload
    fun rtc hdead => ?_
  have halive : (pollOutput rtc).1.alive = rtc.alive := by
    rw [pollOutput]
    split <;> rfl
  exact halive.trans hdead

/-- A transport whose `poll_output` fails. -/
def failing : Str0m :=
  Scripted.scriptedWith (fun rtc => (rtc, .error "closed")) (fun _ _ => none) fun _ _ => none

namespace Watch

/-- The state after a step that the shard performs. -/
def next (w : Watch S) (i : SfuShard.Piece S) : Watch S where
  shard := w.shard.perform i
  disconnected := fun sid pid =>
    w.shard.Disconnects sid pid i ∨ w.disconnected sid pid ∧ ¬ SfuShard.Joins sid pid i

theorem step_next {w : Watch S} {i : SfuShard.Piece S} (hi : w.shard.Happens leaves i) :
    (watching leaves).step w i (w.next i) :=
  ⟨.perform w.shard hi, fun _ _ => Iff.rfl⟩

/-- Participant 1 has joined. -/
def joined (S : Str0m) : Watch S :=
  next ⟨.new 0 [(1, 2)] 12000, fun _ _ => False⟩
    (.command (.join 7 1 "alice" "" 11) ⟨"ua", "pa"⟩ 0)

theorem ids_joined : (joined S).shard.Ids :=
  (SfuShard.ids_new 0 [(1, 2)] 12000).command ⟨"ua", "pa"⟩ 0 (.join 7 1 "alice" "" 11)

theorem reach_joined {ok : Watch S → SfuShard.Piece S → Prop}
    (hok : ∀ w, ok w (.command (.join 7 1 "alice" "" 11) ⟨"ua", "pa"⟩ 0)) :
    (watching leaves).Reach ok (joined S) :=
  .step (.start ⟨⟨0, [(1, 2)], 12000, rfl⟩, fun _ _ => id⟩) (hok _) (step_next trivial)

end Watch

/-- The poll of participant 1 panics. -/
def Watch.panicked : Watch scripted := (Watch.joined scripted).next (.panic 7 1 5000 1 id)

/-- When the poll of participant 1 panics, a tick that comes too early leaves it, and the first
one that is late enough takes it. -/
theorem dead_swept_panicked : ∃ p, Watch.panicked.shard.participant? 7 1 = some p ∧
    p.iceDisconnected = true ∧
    ((Watch.panicked.next (.tick 6000)).shard.participant? 7 1).isSome = true ∧
    ∀ now, 12000 < now - p.lastActivityAt →
      ((Watch.panicked.next (.tick 6000)).shard.tick now).participant? 7 1 = none := by
  have hreach : (watching Eq).Reach (fun w i => w.shard.FlaggedFirst i) Watch.panicked :=
    .step (l := .panic 7 1 5000 1 id) (Watch.reach_joined fun _ => trivial) trivial
      (Watch.step_next ⟨fun _ => rfl, by decide⟩)
  obtain ⟨p, hp, hflag, hswept⟩ :=
    (dead_swept Scripted.final_scripted hreach (.inl ⟨rfl, rfl⟩)).resolve_left (by decide)
  have hearly : ((watching Eq).startingAt Watch.panicked).Reach (Watch.Undisturbed 7 1)
      (Watch.panicked.next (.tick 6000)) :=
    .step (l := .tick 6000) (.start rfl) ⟨trivial, trivial, id, id⟩ (Watch.step_next trivial)
  exact ⟨p, hp, hflag, by decide, hswept _ hearly⟩

/-- **A dead participant is left**: after an error of `poll_output` its transport is
disconnected, it is not flagged, and no tick takes it. -/
theorem dead_left : Str0m.Final (S := failing) Eq ∧ ∃ w : Watch failing,
    (watching Eq).Reachable w ∧ w.disconnected 7 1 ∧
    ∃ p, w.shard.participant? 7 1 = some p ∧ p.iceDisconnected = false ∧
      ∀ now, ((w.shard.tick now).participant? 7 1).isSome = true := by
  refine ⟨Scripted.final_scriptedWith _ _ _ fun _ hdead => hdead,
    (Watch.joined failing).next (.turn 7 1 0), ?_, ?_, ?_⟩
  · exact .step (l := .turn 7 1 0) (Watch.reach_joined fun _ => trivial) trivial
      (Watch.step_next trivial)
  · have hp := Option.some_get
      (show ((Watch.joined failing).shard.participant? 7 1).isSome from by decide)
    exact .inl ⟨rfl, rfl, _, _, _, hp.symm, by decide, rfl⟩
  · have hp := Option.some_get (show (((Watch.joined failing).next
      (.turn 7 1 0)).shard.participant? 7 1).isSome from by decide)
    have hids : ((Watch.joined failing).next (.turn 7 1 0)).shard.Ids :=
      Watch.ids_joined.turn 7 1 0
    exact ⟨_, hp.symm, by decide,
      SfuShard.participant?_tick_of_not_flagged hids hp.symm (by decide)⟩

end Video

end MateHub
