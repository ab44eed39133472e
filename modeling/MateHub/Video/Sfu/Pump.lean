import Mathlib.Algebra.Order.Group.Multiset
import MateHub.Video.Sfu.Flags

/-!
# Transports as pumps

The event loop of a shard is written for transports of which its comments say this: what a
transport has to say waits in a queue, and `poll_output` takes it out piece by piece, until there
is nothing but a timeout; an ingress packet waits beside the queue, in a slot that has room for
one, and a second one overwrites it; a packet that is written into a transport, and a keyframe
that is asked of it, come out as datagrams and raise no event.

`MateHub.Video.Str0m.Pump` says so of the parameter. In which order `poll_output` takes what waits
is left open.
-/

namespace MateHub

namespace Video

variable {S : Str0m}

/-- A call leaves nothing alive that was dead. -/
theorem Str0m.Final.alive (hfinal : Str0m.Final (S := S) Eq) {rtc rtc' : S.Rtc}
    (h : S.Call rtc rtc') (halive : S.isAlive rtc' = true) : S.isAlive rtc = true := by
  by_contra hdead
  rw [hfinal.call h (Bool.eq_false_iff.mpr hdead)] at halive
  cases halive

/-- The event that an output is. -/
def Output.event? : Output → Option Event
  | .event e => some e
  | _ => none

/-- An output that is sent to the network. -/
def Output.IsTransmit (o : Output) : Prop :=
  ∃ destination contents, o = .transmit destination contents

/-- **A transport as the event loop takes it to be.** -/
structure Str0m.Pump (S : Str0m) where
  /-- What waits to be polled. -/
  queue : S.Rtc → Multiset Output
  /-- What waits of the packets that were written. -/
  unsent : S.Rtc → Multiset Output
  /-- An ingress packet that waits to be polled. -/
  slot : S.Rtc → Option RtpPacket
  unsent_le : ∀ rtc, unsent rtc ≤ queue rtc
  build : ∀ creds now, unsent (S.build creds now) = 0 ∧ slot (S.build creds now) = none
  /-- There is a timeout when nothing waits. -/
  timeout : ∀ {rtc rtc' t}, S.isAlive rtc = true → S.pollOutput rtc = (rtc', .ok (.timeout t)) →
    (queue rtc = 0 ∧ slot rtc = none) ∧ queue rtc' = 0 ∧ slot rtc' = none
  /-- Anything else comes from the queue or from the slot. -/
  take : ∀ {rtc rtc' o}, S.isAlive rtc = true → S.pollOutput rtc = (rtc', .ok o) →
    (∀ t, o ≠ .timeout t) →
    queue rtc = o ::ₘ queue rtc' ∧ unsent rtc' ≤ unsent rtc ∧ slot rtc' = slot rtc ∨
    ∃ pkt, o = .event (.rtpPacket pkt) ∧ slot rtc = some pkt ∧ slot rtc' = none ∧
      queue rtc' = queue rtc ∧ unsent rtc' = unsent rtc
  addLocalCandidate : ∀ rtc c, queue rtc ≤ queue (S.addLocalCandidate rtc c) ∧
    unsent (S.addLocalCandidate rtc c) = unsent rtc ∧ slot (S.addLocalCandidate rtc c) = slot rtc
  tend : ∀ {rtc rtc'}, Str0m.Tend rtc rtc' →
    queue rtc ≤ queue rtc' ∧ unsent rtc' = unsent rtc ∧ slot rtc' = slot rtc
  /-- A datagram may fill the slot, whether or not there is a packet in it. -/
  receive : ∀ {rtc rtc' now src dst d}, S.handleReceive rtc now src dst d = (rtc', .ok ()) →
    queue rtc ≤ queue rtc' ∧ unsent rtc' = unsent rtc ∧
      (slot rtc' = slot rtc ∨ ∃ pkt, slot rtc' = some pkt)
  writeRtp : ∀ {rtc rtc' mid w}, S.writeRtp rtc mid w = some rtc' →
    ∃ os : Multiset Output, (∀ o ∈ os, o.IsTransmit) ∧ queue rtc' = queue rtc + os ∧
      unsent rtc' = unsent rtc + os ∧ slot rtc' = slot rtc
  requestKeyframe : ∀ {rtc rtc' mid}, S.requestKeyframe rtc mid = some rtc' →
    ∃ os : Multiset Output, (∀ o ∈ os, o.IsTransmit) ∧ queue rtc' = queue rtc + os

namespace Str0m.Pump

variable (Q : S.Pump) {rtc rtc' : S.Rtc}

/-- The events that wait, in the queue or in the slot. -/
def events (rtc : S.Rtc) : Multiset Event :=
  (Q.queue rtc).filterMap Output.event? +
    ((Q.slot rtc).toList.map Event.rtpPacket : Multiset Event)

/-- Nothing waits. -/
structure Drained (rtc : S.Rtc) : Prop where
  queue : Q.queue rtc = 0
  slot : Q.slot rtc = none

variable {Q}

theorem Drained.events (h : Q.Drained rtc) : Q.events rtc = 0 := by
  rw [Pump.events, h.queue, h.slot]
  rfl

theorem Drained.unsent (h : Q.Drained rtc) : Q.unsent rtc = 0 :=
  Multiset.le_zero.mp (h.queue ▸ Q.unsent_le rtc)

theorem drained_of_timeout {t : Instant} (halive : S.isAlive rtc = true)
    (h : S.pollOutput rtc = (rtc', .ok (.timeout t))) : Q.Drained rtc ∧ Q.Drained rtc' := by
  obtain ⟨⟨hq, hs⟩, hq', hs'⟩ := Q.timeout halive h
  exact ⟨⟨hq, hs⟩, hq', hs'⟩

/-- What is taken is no event, or an event that has waited. -/
theorem events_take {o : Output} (halive : S.isAlive rtc = true)
    (h : S.pollOutput rtc = (rtc', .ok o)) (ho : ∀ t, o ≠ .timeout t) :
    Q.events rtc = (o.event?.toList : Multiset Event) + Q.events rtc' := by
  rcases Q.take halive h ho with ⟨hqueue, -, hslot⟩ | ⟨pkt, rfl, hslot, hslot', hqueue, -⟩
  · have hcons : (o ::ₘ Q.queue rtc').filterMap Output.event? =
        (o.event?.toList : Multiset Event) + (Q.queue rtc').filterMap Output.event? := by
      rw [Multiset.filterMap_cons]
      rcases o.event? with _ | e <;> rfl
    rw [events, events, hqueue, hslot, hcons, add_assoc]
  · rw [events, events, hqueue, hslot, hslot']
    exact (add_comm _ _).trans (congrArg _ (add_zero _).symm)

theorem slot_take {o : Output} (halive : S.isAlive rtc = true)
    (h : S.pollOutput rtc = (rtc', .ok o)) (ho : ∀ t, o ≠ .timeout t)
    (hslot : Q.slot rtc = none) : Q.slot rtc' = none := by
  rcases Q.take halive h ho with ⟨-, -, hsame⟩ | ⟨pkt, -, -, hnone, -⟩
  · rw [hsame, hslot]
  · exact hnone

/-! ### Writing -/

/-- Nothing but datagrams has been added. -/
structure Pours (Q : S.Pump) (rtc rtc' : S.Rtc) : Prop where
  events : Q.events rtc' = Q.events rtc
  slot : Q.slot rtc' = Q.slot rtc

theorem Pours.refl (rtc : S.Rtc) : Q.Pours rtc rtc := ⟨rfl, rfl⟩

theorem Pours.trans {rtc'' : S.Rtc} (h : Q.Pours rtc rtc') (h' : Q.Pours rtc' rtc'') :
    Q.Pours rtc rtc'' := ⟨h'.events.trans h.events, h'.slot.trans h.slot⟩

theorem pours_of_transmits {os : Multiset Output} (hos : ∀ o ∈ os, o.IsTransmit)
    (hqueue : Q.queue rtc' = Q.queue rtc + os) (hslot : Q.slot rtc' = Q.slot rtc) :
    Q.Pours rtc rtc' := by
  refine ⟨?_, hslot⟩
  have hnone : os.filterMap Output.event? = 0 := by
    refine Multiset.eq_zero_of_forall_notMem fun e he => ?_
    obtain ⟨o, ho, hevent⟩ := (Multiset.mem_filterMap _ _).mp he
    obtain ⟨_, _, rfl⟩ := hos o ho
    cases hevent
  rw [events, events, hqueue, hslot, Multiset.filterMap_add, hnone, add_zero]

theorem pours_writeRtp {mid : Mid} {w : RtpWrite} (h : S.writeRtp rtc mid w = some rtc') :
    Q.Pours rtc rtc' := by
  obtain ⟨os, hos, hqueue, -, hslot⟩ := Q.writeRtp h
  exact pours_of_transmits hos hqueue hslot

theorem pours_requestKeyframe {mid : Mid} (h : S.requestKeyframe rtc mid = some rtc') :
    Q.Pours rtc rtc' := by
  obtain ⟨os, hos, hqueue⟩ := Q.requestKeyframe h
  exact pours_of_transmits hos hqueue (Q.tend (.requestKeyframe h)).2.2

/-! ### Handling -/

/-- Something may have been added, but no packet. -/
structure Tended (Q : S.Pump) (rtc rtc' : S.Rtc) : Prop where
  events : Q.events rtc ≤ Q.events rtc'
  unsent : Q.unsent rtc' = Q.unsent rtc
  slot : Q.slot rtc' = Q.slot rtc

theorem Tended.refl (rtc : S.Rtc) : Q.Tended rtc rtc := ⟨le_rfl, rfl, rfl⟩

theorem Tended.trans {rtc'' : S.Rtc} (h : Q.Tended rtc rtc') (h' : Q.Tended rtc' rtc'') :
    Q.Tended rtc rtc'' :=
  ⟨h.events.trans h'.events, h'.unsent.trans h.unsent, h'.slot.trans h.slot⟩

theorem events_le (hqueue : Q.queue rtc ≤ Q.queue rtc')
    (hslot : Q.slot rtc = none ∨ Q.slot rtc' = Q.slot rtc) : Q.events rtc ≤ Q.events rtc' := by
  refine add_le_add (Multiset.filterMap_le_filterMap _ hqueue) ?_
  rcases hslot with hnone | hsame
  · rw [hnone]
    exact Multiset.zero_le _
  · rw [hsame]

theorem tended_addLocalCandidate (rtc : S.Rtc) (c : S.Candidate) :
    Q.Tended rtc (S.addLocalCandidate rtc c) := by
  obtain ⟨hqueue, hunsent, hslot⟩ := Q.addLocalCandidate rtc c
  exact ⟨events_le hqueue (.inr hslot), hunsent, hslot⟩

theorem tended_of_tend (h : Relation.ReflTransGen Str0m.Tend rtc rtc') : Q.Tended rtc rtc' := by
  induction h with
  | refl => exact .refl rtc
  | tail _ htend ih =>
    obtain ⟨hqueue, hunsent, hslot⟩ := Q.tend htend
    exact ih.trans ⟨events_le hqueue (.inr hslot), hunsent, hslot⟩

end Str0m.Pump

end Video

end MateHub
