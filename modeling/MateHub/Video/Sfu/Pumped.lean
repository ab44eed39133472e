import MateHub.Video.Sfu.Buffered
import MateHub.Video.Sfu.Ledger
import MateHub.Video.Sfu.Once

/-!
# The packet pump

What the event loop of a shard makes of its transports, over every run: every stage ends; no
datagram is fed to a transport alive while a packet waits in its slot; what a transport has raised
is handled once each, and after a tick all of it; what was forwarded has been sent when an
iteration is over; and a packet of media is written once to each of its subscribers
(`MateHub.Video.packets_pumped`).

A transport that is dead is left alone until it is swept, a participant that is swept leaves its
events behind, and a packet of retransmissions or one for which there is no send stream is written
to nobody (`MateHub.Video.not_all_pumped`).
-/

namespace MateHub

namespace Video

variable {S : Str0m} {Q : S.Pump}

namespace SfuShard

variable {st st' : SfuShard S} {log : List (HandledEvent S)}

/-! ### When an iteration is over -/

/-- Nothing that was forwarded waits to be sent, of anybody alive. -/
def Flushed (Q : S.Pump) (st : SfuShard S) : Prop :=
  ∀ sid pid p, st.participant? sid pid = some p → S.isAlive p.rtc = true → Q.unsent p.rtc = 0

theorem Flushed.attends (h : Flushed Q st) (hfinal : Str0m.Final (S := S) Eq)
    (hattends : ∀ sid pid, Attends sid pid st st') : Flushed Q st' := by
  intro sid pid p' hp' halive
  obtain ⟨p, hp, ha⟩ := (hattends sid pid).participant p' hp'
  have hkept : p.Kept Q p' := ha.kept hfinal
  exact hkept.unsent.trans (h sid pid p hp (hkept.alive halive))

/-- What comes after the flush forwards nothing. -/
theorem Flushed.rests (h : Flushed Q st) (hfinal : Str0m.Final (S := S) Eq) {a : Stage}
    (ha : a.Rests) (hperforms : Performs a st log st') : Flushed Q st' := by
  cases hperforms with
  | command => exact ha.elim
  | tick => exact ha.elim
  | flush => exact ha.elim
  | negotiate => exact h.attends hfinal fun _ _ => attends_negotiatePendingTracks st
  | drain => exact h.attends hfinal fun _ _ => .of_eq rfl rfl
  | close => exact h.attends hfinal fun _ _ => .of_eq rfl rfl
  | rehash hr =>
    intro sid pid p hp
    exact h sid pid p ((participant?_rehashed hr).symm.trans hp)

/-- **When an iteration is over** nothing that was forwarded waits to be sent. -/
theorem flushed_of_flush (hfinal : Str0m.Final (S := S) Eq)
    (hst : Clear Q (fun _ => False) st) {now : Instant} {as : List Stage}
    (has : ∀ a ∈ as, a.Rests) (h : Logged.ForEach Performs (.flush now :: as) st log st') :
    Flushed Q st' := by
  have hrests {as : List Stage} {st st' : SfuShard S} {log : List (HandledEvent S)}
      (h : Logged.ForEach Performs as st log st') (has : ∀ a ∈ as, a.Rests)
      (hst : Flushed Q st) : Flushed Q st' := by
    induction h with
    | nil => exact hst
    | cons ha _ ih =>
      obtain ⟨hrest, has⟩ := List.forall_mem_cons.mp has
      exact ih has (hst.rests hfinal hrest ha)
  cases h with
  | cons hflush hrest =>
    cases hflush with
    | flush hflush => exact hrests hrest has (hflush.clear hfinal hst).2

/-! ### After a tick -/

/-- After a tick no event waits. -/
theorem spent_of_tick (hfinal : Str0m.Final (S := S) Eq) {now : Instant}
    (h : Performs (.tick now) st log st') (sid : SessionId) (pid : ParticipantId) :
    Spent Q st' sid pid := by
  cases h with
  | tick h => exact h.spent hfinal

end SfuShard

open SfuShard in
/-- **The packet pump ends and loses nothing.** -/
theorem packets_pumped (Q : S.Pump) (hfinal : Str0m.Final (S := S) Eq)
    (hmedia : S.MediaAddedOnce) :
    -- every stage ends, in so many turns of its loops that more do not matter
    (∀ as st, ∃ log st', Logged.ForEach (Performs (S := S)) as st log st') ∧
    (∀ a st log st', Performs (S := S) a st log st' →
      ∀ᶠ n in Filter.atTop, Step st (a.input n) st') ∧
    ∀ w, (pumping Q).Reachable w →
      -- no packet waits in a slot, and what has been raised has been handled or waits
      (∀ sid pid p, w.shard.participant? sid pid = some p → S.isAlive p.rtc = true →
        Q.slot p.rtc = none ∧ w.raised sid pid = w.handled sid pid + Q.events p.rtc) ∧
      (∀ now log st, Performs (.tick now) w.shard log st → ∀ sid pid, Spent Q st sid pid) ∧
      (∀ now as log st, (∀ a ∈ as, a.Rests) →
        Logged.ForEach Performs (.flush now :: as) w.shard log st → Flushed Q st) ∧
      ∀ a log st, Performs a w.shard log st → ∀ h ∈ log, ∀ pkt mid kind pp,
        h.event = .rtpPacket pkt → h.before.ToForward h.sid (h.pid, mid) pkt kind pp →
        ForwardsOnce h.sid (h.pid, mid) pkt kind pp h.before h.after := by
  refine ⟨fun as st => Logged.ForEach.total (total_performs Q hfinal) (fun _ _ _ _ _ => id) st
    trivial, fun _ _ _ _ => Performs.eventually, fun w hw => ?_⟩
  have hbalanced := balanced_of_reachable hfinal hw
  refine ⟨fun sid pid p hp halive => ⟨hbalanced.clear.slot sid pid p id hp halive,
    hbalanced.account sid pid p hp halive⟩, fun now log st h => spent_of_tick hfinal h,
    fun now as log st has h => flushed_of_flush hfinal hbalanced.clear has h,
    fun a log st ha h hmem pkt mid kind pp hevent hforward => ?_⟩
  obtain ⟨R⟩ := hmedia
  have hbefore := ha.vouches (sound_of_reachable R (reachable_of_pumping hw)) h hmem
  rw [HandledEvent.after, hevent]
  exact hforward.forwardsOnce (hbefore.nodup_subscribers h.sid (h.pid, mid)) h.now

/-! ### A call of two -/

namespace SfuShard

/-- Stages lead on from a ledger. -/
theorem exists_pumping {w : Ledger S} (hw : (pumping Q).Reachable w) {as : List Stage}
    {log : List (HandledEvent S)} {st : SfuShard S}
    (h : Logged.ForEach Performs as w.shard log st) :
    ∃ w', (pumping Q).Reachable w' ∧ w'.shard = st := by
  generalize hshard : w.shard = st₀ at h
  induction h generalizing w with
  | nil => exact ⟨w, hw, hshard⟩
  | @cons a as st₀ st₁ _ log _ ha _ ih =>
    refine ih (w := w.enter Q a log st₁) (.step (l := a) hw trivial ⟨log, st₁, ?_, rfl⟩) rfl
    rwa [hshard]

end SfuShard

namespace Buffered

open SfuShard

/-- Stages from no session. -/
def running (as : List Stage) : Option (List (HandledEvent buffered) × SfuShard buffered) :=
  Logged.each (carryOut 20) as (.new 0 [(1, 2)] 12000)

theorem exists_running {as : List Stage} {r : List (HandledEvent buffered) × SfuShard buffered}
    (h : running as = some r) : ∃ w, (pumping pump).Reachable w ∧ w.shard = r.2 :=
  exists_pumping (.start ⟨0, [(1, 2)], 12000, rfl⟩)
    (Logged.computes_each (computes_carryOut 20) as h)

/-- After these stages comes another one. -/
theorem exists_stage {as : List Stage} {a : Stage}
    {r q : List (HandledEvent buffered) × SfuShard buffered} (h : running as = some r)
    (h' : carryOut 20 a r.2 = some q) :
    ∃ w, (pumping pump).Reachable w ∧ w.shard = r.2 ∧ Performs a w.shard q.1 q.2 := by
  obtain ⟨w, hw, hshard⟩ := exists_running h
  exact ⟨w, hw, hshard, hshard ▸ computes_carryOut 20 a h'⟩

/-- The credentials of every join. -/
def creds : IceCreds := ⟨"u", "p"⟩

/-- Participants 1 and 2 join, and answer what they are offered. -/
def call (answer : String) : List Stage :=
  [.command (.join 7 1 "alice" "v" 11) creds 0, .command (.join 7 2 "bob" "v" 12) creds 0,
    .negotiate, .command (.answer 7 1 "accept") creds 0, .command (.answer 7 2 answer) creds 0]

/-- A datagram comes from participant 1. -/
def fromAlice (contents : List UInt8) : Stage :=
  .command (.udpInput 7 1 (0, 0) contents) creds 0

/-- A datagram comes from participant 2. -/
def fromBob (contents : List UInt8) : Stage :=
  .command (.udpInput 7 2 (0, 0) contents) creds 0

/-- A call in which both accept. -/
def talking : List (HandledEvent buffered) × SfuShard buffered :=
  (running (call "accept")).get (by decide +kernel)

/-- A packet of the video of participant 1 has come. -/
def seen : List (HandledEvent buffered) × SfuShard buffered :=
  (carryOut 20 (fromAlice [0]) talking.2).get (by decide +kernel)

/-- The event of that packet. -/
def arrival : HandledEvent buffered := seen.1.head (by decide +kernel)

theorem toForward_arrival : arrival.before.ToForward 7 (1, 0) (packet 0 mediaPt) .video mediaPt := by
  have hp := Option.some_get
    (show (arrival.before.participant? 7 1).isSome from by decide +kernel)
  have ht := Option.some_get (show (((arrival.before.participant? 7 1).get
    (by decide +kernel)).tracksIn.find? fun t => t.mid = 0).isSome from by decide +kernel)
  exact ⟨⟨_, none, _, hp.symm, rfl, rfl, ht.symm, by decide +kernel, rfl⟩, rfl, by decide +kernel⟩

end Buffered

open SfuShard Buffered in
/-- In a call of two, a packet of the one is written once to the other. -/
theorem packets_pumped_talking : ∃ w log st h, (pumping pump).Reachable w ∧
    Performs (fromAlice [0]) w.shard log st ∧ h ∈ log ∧ (2, 1000) ∈ h.before.targets 7 (1, 0) ∧
    ForwardsOnce 7 (1, 0) (packet 0 mediaPt) .video mediaPt h.before h.after := by
  obtain ⟨w, hw, -, hperforms⟩ := exists_stage (r := talking) (q := seen)
    (Option.some_get _).symm (Option.some_get _).symm
  refine ⟨w, seen.1, seen.2, arrival, hw, hperforms, List.head_mem _, by decide +kernel, ?_⟩
  exact ((packets_pumped pump final mediaAddedOnce).2.2 w hw).2.2.2 _ _ _ hperforms arrival
    (List.head_mem _) (packet 0 mediaPt) 0 .video mediaPt (by decide +kernel) toForward_arrival

namespace Buffered

open SfuShard

/-- Participant 2 has sent a datagram that is refused, and another one. -/
def deaf : List (HandledEvent buffered) × SfuShard buffered :=
  (running (call "accept" ++ [fromBob [], fromBob [1], fromAlice [0]])).get (by decide +kernel)

/-- The shard flushes then. -/
def deafFlushed : List (HandledEvent buffered) × SfuShard buffered :=
  (carryOut 20 (.flush 0) deaf.2).get (by decide +kernel)

/-- Everybody has been disconnected for long. -/
def silent : List (HandledEvent buffered) × SfuShard buffered :=
  (running (call "accept" ++ [.tick 20])).get (by decide +kernel)

/-- They are swept. -/
def swept : List (HandledEvent buffered) × SfuShard buffered :=
  (carryOut 20 (.tick 20000) silent.2).get (by decide +kernel)

/-- A packet of the video of participant 1 is not written to participant 2, which is subscribed to
it and has negotiated its codec. -/
structure Withholds (pkt : RtpPacket) (h : HandledEvent buffered) : Prop where
  event : h.sid = 7 ∧ h.pid = 1 ∧ h.event = .rtpPacket pkt
  layer : (h.before.participant? 7 1).map (fun p => buffered.streamRx p.rtc pkt.ssrc) =
    some (some (0, none))
  letsThrough : h.before.letsThrough 7 (1, 0) = true
  subscribed : (2, 1000) ∈ h.before.targets 7 (1, 0)
  codec : (h.before.participant? 7 2).map
    (fun p => (buffered.matchParams p.rtc pkt.payloadType).map buffered.pt) =
      some (some pkt.payloadType)
  written : (h.after.participant? 7 2).map (fun p => pump.unsent p.rtc) =
    (h.before.participant? 7 2).map (fun p => pump.unsent p.rtc)

/-- Participant 2 declines what it is offered. -/
def declined : List (HandledEvent buffered) × SfuShard buffered :=
  (running (call "decline")).get (by decide +kernel)

/-- A packet of participant 1 comes then. -/
def unstreamed : List (HandledEvent buffered) × SfuShard buffered :=
  (carryOut 20 (fromAlice [0]) declined.2).get (by decide +kernel)

/-- A retransmission comes. -/
def resent : List (HandledEvent buffered) × SfuShard buffered :=
  (carryOut 20 (fromAlice [0, 97]) talking.2).get (by decide +kernel)

end Buffered

open SfuShard Buffered in
/-- **Not everything is pumped**: a transport that is dead keeps what is forwarded to it, and the
packet in its slot is overwritten; a participant that is swept leaves an event of its timeout
behind; and a packet is not written where the track is open without a send stream, nor one of
retransmissions. -/
theorem not_all_pumped :
    (∃ w log st p p', (pumping pump).Reachable w ∧ Performs (.flush 0) w.shard log st ∧
      st.participant? 7 2 = some p ∧ pump.unsent p.rtc ≠ 0 ∧
      pump.slot p.rtc = some (packet 1 mediaPt) ∧
      ((fromBob [3]).handles st).participant? 7 2 = some p' ∧
      pump.slot p'.rtc = some (packet 3 mediaPt)) ∧
    (∃ w log st p, (pumping pump).Reachable w ∧ Performs (.tick 20000) w.shard log st ∧
      (w.shard.timeouts 20000).participant? 7 1 = some p ∧ buffered.isAlive p.rtc = true ∧
      pump.events p.rtc = {disconnection} ∧ handled log 7 1 = 0 ∧
      st.participant? 7 1 = none) ∧
    (∃ w log st h, (pumping pump).Reachable w ∧ Performs (fromAlice [0]) w.shard log st ∧
      h ∈ log ∧ Withholds (packet 0 mediaPt) h) ∧
    ∃ w log st h, (pumping pump).Reachable w ∧ Performs (fromAlice [0, 97]) w.shard log st ∧
      h ∈ log ∧ Withholds (packet 0 rtxPt) h := by
  refine ⟨?_, ?_, ?_, ?_⟩
  · obtain ⟨w, hw, -, hperforms⟩ := exists_stage (r := deaf) (q := deafFlushed)
      (Option.some_get _).symm (Option.some_get _).symm
    have hp := Option.some_get (show (deafFlushed.2.participant? 7 2).isSome from
      by decide +kernel)
    have hp' := Option.some_get (show
      (((fromBob [3]).handles deafFlushed.2).participant? 7 2).isSome from by decide +kernel)
    exact ⟨w, _, _, _, _, hw, hperforms, hp.symm, by decide +kernel, by decide +kernel, hp'.symm,
      by decide +kernel⟩
  · obtain ⟨w, hw, hshard, hperforms⟩ := exists_stage (r := silent) (q := swept)
      (Option.some_get _).symm (Option.some_get _).symm
    have hp := Option.some_get (show ((silent.2.timeouts 20000).participant? 7 1).isSome from
      by decide +kernel)
    have hsame := congrArg (fun st => (timeouts st 20000).participant? 7 1) hshard
    exact ⟨w, _, _, _, hw, hperforms, hsame.trans hp.symm, by decide +kernel, by decide +kernel,
      by decide +kernel, Option.isNone_iff_eq_none.mp (by decide +kernel)⟩
  · obtain ⟨w, hw, -, hperforms⟩ := exists_stage (r := declined) (q := unstreamed)
      (Option.some_get _).symm (Option.some_get _).symm
    exact ⟨w, _, _, unstreamed.1.head (by decide +kernel), hw, hperforms, List.head_mem _,
      by decide +kernel, by decide +kernel, by decide +kernel, by decide +kernel,
      by decide +kernel, by decide +kernel⟩
  · obtain ⟨w, hw, -, hperforms⟩ := exists_stage (r := talking) (q := resent)
      (Option.some_get _).symm (Option.some_get _).symm
    exact ⟨w, _, _, resent.1.head (by decide +kernel), hw, hperforms, List.head_mem _,
      by decide +kernel, by decide +kernel, by decide +kernel, by decide +kernel,
      by decide +kernel, by decide +kernel⟩

end Video

end MateHub
