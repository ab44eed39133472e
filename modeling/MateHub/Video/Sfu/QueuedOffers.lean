import MateHub.Video.Scripted
import MateHub.Video.Sfu.Exchange

/-!
# Queued offers of the client

An offer of the client that meets a server offer which awaits its answer is queued, in the
place of one queued before, and `handle_answer` ends with handing it to the transport.

A queued offer has a server offer to wait for, and is the latest of the offers that came
while that one awaited its answer: `MateHub.Video.OfferRun` runs the shard with a record of
what a participant has sent and of what was handed to its transport, and
`MateHub.Video.queued_offers` compares the two. Only offers that can be read count:
`handle_client_offer` gives one up that cannot be before it looks whether it is to be queued,
and so the offer queued before outlives it (`MateHub.Video.unreadable_offer_passed_over`).
-/

namespace MateHub

namespace Video

namespace SfuShard

open Negotiator (takeAnswer)

variable {S : Str0m} {st st' : SfuShard S} {sid : SessionId} {pid : ParticipantId}

/-! ### What a step hands to the transport -/

/-- The offers that `handle_client_offer` hands to the transport: the one it is called with,
or none. -/
def offersAccepted (st : SfuShard S) (sid : SessionId) (pid : ParticipantId)
    (sdpOffer : String) : List String :=
  match S.readOffer sdpOffer, st.participant? sid pid with
  | .ok _, some p => if p.pendingOffer.isSome then [] else [sdpOffer]
  | _, _ => []

/-- The offers that the end of `handle_answer` hands to the transport. -/
def offersDrained (st : SfuShard S) (sid : SessionId) (pid : ParticipantId) : List String :=
  match st.participant? sid pid with
  | none => []
  | some p =>
    match p.queuedClientOffer with
    | none => []
    | some sdp =>
      (st.setParticipant sid pid { p with queuedClientOffer := none }).offersAccepted sid pid sdp

/-- The shard when `handle_answer` comes to drain the queue, if it gets there: the
participant is here, and the answer can be read. -/
def answered (st : SfuShard S) (now : Instant) (sid : SessionId) (pid : ParticipantId)
    (sdpAnswer : String) : Option (SfuShard S) :=
  match st.session? sid with
  | none => none
  | some s =>
    match s.participants.lookup pid, S.readAnswer sdpAnswer with
    | some p, .ok answer => some (takeAnswer st now sid pid s p answer)
    | _, _ => none

/-- The offers of a participant that a step hands to its transport. -/
def offersHandled (st : SfuShard S) (sid : SessionId) (pid : ParticipantId) :
    Input → List String
  | .command (.clientOffer sid' pid' sdpOffer) _ _ _ =>
    if sid' = sid ∧ pid' = pid then st.offersAccepted sid pid sdpOffer else []
  | .command (.answer sid' pid' sdpAnswer) _ now _ =>
    if sid' = sid ∧ pid' = pid then
      ((st.answered now sid pid sdpAnswer).map (·.offersDrained sid pid)).getD []
    else []
  | _ => []

/-- The offers of a participant that a step brings, of those that count. -/
def offersReceived (counts : String → Bool) (sid : SessionId) (pid : ParticipantId) :
    Input → List String
  | .command (.clientOffer sid' pid' sdpOffer) _ _ _ =>
    if sid' = sid ∧ pid' = pid then [sdpOffer].filter counts else []
  | _ => []

/-- Whether a text can be read as an offer. -/
def readable (S : Str0m) (sdpOffer : String) : Bool :=
  match S.readOffer sdpOffer with
  | .ok _ => true
  | .error _ => false

/-- What an offer comes to that is handed to the transport: it is taken, and answered, or
refused. -/
theorem handleClientOffer_of_accepted {sdpOffer : String}
    (h : sdpOffer ∈ st.offersAccepted sid pid sdpOffer) : ∃ p offer,
    st.participant? sid pid = some p ∧ S.readOffer sdpOffer = .ok offer ∧
    (st.handleClientOffer sid pid sdpOffer).1.sessions = (st.setParticipant sid pid
      { p with rtc := (S.acceptOffer (S.sdpApi p.rtc) offer).1 }).sessions := by
  unfold offersAccepted at h
  split at h
  · rename_i offer p hread hp
    split_ifs at h with hpend
    · cases h
    · refine ⟨p, offer, hp, hread, ?_⟩
      rcases hacc : S.acceptOffer (S.sdpApi p.rtc) offer with ⟨rtc, e | answer⟩
      · simp only [handleClientOffer, hread, hp, hpend, hacc, if_false, Bool.false_eq_true]
      · simp only [handleClientOffer, hread, hp, hpend, hacc, if_false, Bool.false_eq_true]
        rfl
  · cases h

end SfuShard

/-! ### Runs with a record of the offers -/

/-- A run of the shard with a record of the offers of one participant. -/
structure OfferRun (S : Str0m) where
  shard : SfuShard S
  /-- The offers that came, of those that count. -/
  received : List String
  /-- The latest one that came since the server offer awaits its answer. -/
  waiting : Option String
  /-- The offers handed to the transport. -/
  handled : List String

namespace SfuShard

variable {S : Str0m} {st st' : SfuShard S} {sid : SessionId} {pid : ParticipantId}

/-- The offer of the client that is queued. -/
def queuedOffer (st : SfuShard S) (sid : SessionId) (pid : ParticipantId) : Option String :=
  (st.participant? sid pid).bind (·.queuedClientOffer)

/-- Whether an offer of the shard awaits its answer. -/
def awaitsAnswer (st : SfuShard S) (sid : SessionId) (pid : ParticipantId) : Bool :=
  (st.participant? sid pid).any (·.pendingOffer.isSome)

theorem queuedOffer_none (hp : st.participant? sid pid = none) :
    st.queuedOffer sid pid = none := by
  rw [queuedOffer, hp, Option.bind_none]

theorem queuedOffer_some {p : SfuParticipant S} (hp : st.participant? sid pid = some p) :
    st.queuedOffer sid pid = p.queuedClientOffer := by
  rw [queuedOffer, hp, Option.bind_some]

theorem awaitsAnswer_none (hp : st.participant? sid pid = none) :
    st.awaitsAnswer sid pid = false := by
  rw [awaitsAnswer, hp, Option.any_none]

theorem awaitsAnswer_some {p : SfuParticipant S} (hp : st.participant? sid pid = some p) :
    st.awaitsAnswer sid pid = p.pendingOffer.isSome := by
  rw [awaitsAnswer, hp, Option.any_some]

/-! ### What a step does to the queue -/

/-- **What a step does to the queue of a participant**, whose queued offer, if any, waits. -/
inductive Turn (sid : SessionId) (pid : ParticipantId) (st : SfuShard S) (i : Input)
    (st' : SfuShard S) : Prop
  /-- Nothing. -/
  | kept : st'.queuedOffer sid pid = st.queuedOffer sid pid →
      (st.awaitsAnswer sid pid → st'.awaitsAnswer sid pid) →
      (st.awaitsAnswer sid pid → offersReceived (readable S) sid pid i = []) →
      st.offersHandled sid pid i = [] → Turn sid pid st i st'
  /-- The participant leaves, or joins anew. -/
  | gone : st'.queuedOffer sid pid = none → st'.awaitsAnswer sid pid = false →
      st.offersHandled sid pid i = [] → Turn sid pid st i st'
  /-- The answer is here: what is queued is handled. -/
  | drained : st'.queuedOffer sid pid = none → st'.awaitsAnswer sid pid = false →
      st.offersHandled sid pid i = (st.queuedOffer sid pid).toList → Turn sid pid st i st'
  /-- An offer is queued. -/
  | queued (sdp : String) : readable S sdp → st'.queuedOffer sid pid = some sdp →
      st.awaitsAnswer sid pid → st'.awaitsAnswer sid pid →
      offersReceived (readable S) sid pid i = [sdp] → st.offersHandled sid pid i = [] →
      Turn sid pid st i st'
  /-- An offer is handled as it comes. -/
  | direct (sdp : String) : st'.queuedOffer sid pid = st.queuedOffer sid pid →
      st.awaitsAnswer sid pid = false → st'.awaitsAnswer sid pid = false →
      offersReceived (readable S) sid pid i = [sdp] → st.offersHandled sid pid i = [sdp] →
      Turn sid pid st i st'

theorem Turn.of_keeps {i : Input} (h : Keeps sid pid st st')
    (hreceived : offersReceived (readable S) sid pid i = [])
    (hhandled : st.offersHandled sid pid i = []) : Turn sid pid st i st' := by
  rcases hp' : st'.participant? sid pid with _ | p'
  · exact .gone (queuedOffer_none hp') (awaitsAnswer_none hp') hhandled
  · obtain ⟨p, hp, hqueued, hpend⟩ := h p' hp'
    refine .kept ?_ ?_ (fun _ => hreceived) hhandled
    · rw [queuedOffer_some hp, queuedOffer_some hp', hqueued]
    · rwa [awaitsAnswer_some hp, awaitsAnswer_some hp']

/-- Polling after a step is nothing to the exchange. -/
theorem Turn.quiet {i : Input} {st'' : SfuShard S} (h : Turn sid pid st i st')
    (hq : st'.Quiet st'') : Turn sid pid st i st'' := by
  have hqueued : st''.queuedOffer sid pid = st'.queuedOffer sid pid := by
    have hrel := hq sid pid
    rcases hp : st'.participant? sid pid with _ | p
    · rw [hp] at hrel
      rw [queuedOffer_none hp, queuedOffer_none hrel.none_left]
    · rw [hp] at hrel
      obtain ⟨p', hp', hsame⟩ := hrel.some_left
      rw [queuedOffer_some hp, queuedOffer_some hp', hsame.queuedClientOffer]
  have hawaits : st''.awaitsAnswer sid pid = st'.awaitsAnswer sid pid := by
    have hrel := hq sid pid
    rcases hp : st'.participant? sid pid with _ | p
    · rw [hp] at hrel
      rw [awaitsAnswer_none hp, awaitsAnswer_none hrel.none_left]
    · rw [hp] at hrel
      obtain ⟨p', hp', hsame⟩ := hrel.some_left
      rw [awaitsAnswer_some hp, awaitsAnswer_some hp', hsame.pendingOffer]
  cases h with
  | kept h₁ h₂ h₃ h₄ => exact .kept (hqueued.trans h₁) (fun h => hawaits.trans (h₂ h)) h₃ h₄
  | gone h₁ h₂ h₃ => exact .gone (hqueued.trans h₁) (hawaits.trans h₂) h₃
  | drained h₁ h₂ h₃ => exact .drained (hqueued.trans h₁) (hawaits.trans h₂) h₃
  | queued sdp h₁ h₂ h₃ h₄ h₅ h₆ =>
    exact .queued sdp h₁ (hqueued.trans h₂) h₃ (hawaits.trans h₄) h₅ h₆
  | direct sdp h₁ h₂ h₃ h₄ h₅ =>
    exact .direct sdp (hqueued.trans h₁) h₂ (hawaits.trans h₃) h₄ h₅

/-- What is written back for a participant is found there. -/
theorem participant?_set {p p' : SfuParticipant S} (hp : st.participant? sid pid = some p) :
    (st.setParticipant sid pid p').participant? sid pid = some p' := by
  rw [participant?_setParticipant hp, if_pos ⟨rfl, rfl⟩]

theorem offersAccepted_eq {p : SfuParticipant S} (hp : st.participant? sid pid = some p)
    (hpend : p.pendingOffer.isSome = false) {sdpOffer : String}
    (hread : readable S sdpOffer = true) : st.offersAccepted sid pid sdpOffer = [sdpOffer] := by
  unfold readable at hread
  split at hread
  · rename_i offer hoffer
    rw [offersAccepted, hoffer, hp]
    simp only [hpend, Bool.false_eq_true, if_false]
  · cases hread

/-- An offer that is handed to the transport is not queued, and queues none. -/
theorem exchange_handleClientOffer {p : SfuParticipant S}
    (hp : st.participant? sid pid = some p) (hpend : p.pendingOffer.isSome = false)
    {sdpOffer : String} (hread : readable S sdpOffer = true) :
    (st.handleClientOffer sid pid sdpOffer).1.queuedOffer sid pid = p.queuedClientOffer ∧
      (st.handleClientOffer sid pid sdpOffer).1.awaitsAnswer sid pid = false := by
  obtain ⟨p₀, offer, hp₀, -, hsessions⟩ := handleClientOffer_of_accepted
    (by rw [offersAccepted_eq hp hpend hread]; exact List.mem_singleton_self sdpOffer)
  obtain rfl := Option.some_inj.mp (hp₀.symm.trans hp)
  have hp' : (st.handleClientOffer sid pid sdpOffer).1.participant? sid pid =
      some { p₀ with rtc := (S.acceptOffer (S.sdpApi p₀.rtc) offer).1 } := by
    rw [participant?, session?, hsessions]
    exact participant?_set hp
  exact ⟨(queuedOffer_some hp').trans rfl, (awaitsAnswer_some hp').trans hpend⟩

/-- **An offer of the client.** -/
theorem turn_handleClientOffer (st : SfuShard S) (sid : SessionId) (pid : ParticipantId)
    (sdpOffer : String) (creds : IceCreds) (now : Instant) (fuel : ℕ) :
    Turn sid pid st (.command (.clientOffer sid pid sdpOffer) creds now fuel)
      (st.handleClientOffer sid pid sdpOffer).1 := by
  have hreceived : offersReceived (readable S) sid pid
      (.command (.clientOffer sid pid sdpOffer) creds now fuel) =
        [sdpOffer].filter (readable S) := if_pos ⟨rfl, rfl⟩
  have hhandled : st.offersHandled sid pid
      (.command (.clientOffer sid pid sdpOffer) creds now fuel) =
        st.offersAccepted sid pid sdpOffer := if_pos ⟨rfl, rfl⟩
  rcases hread : S.readOffer sdpOffer with e | offer
  · -- it cannot be read, and the handler returns before it looks at the queue
    have hr : readable S sdpOffer = false := by rw [readable, hread]
    rw [List.filter_singleton, hr] at hreceived
    rw [handleClientOffer, hread]
    refine .kept rfl id (fun _ => hreceived) (hhandled.trans ?_)
    rw [offersAccepted, hread]
  · have hr : readable S sdpOffer = true := by rw [readable, hread]
    rw [List.filter_singleton, hr] at hreceived
    rcases hp : st.participant? sid pid with _ | p
    · have hnot : st.awaitsAnswer sid pid = false := awaitsAnswer_none hp
      rw [handleClientOffer, hread]
      simp only [hp]
      refine .kept rfl id (fun h => ?_) (hhandled.trans ?_)
      · rw [hnot] at h
        cases h
      · rw [offersAccepted, hread, hp]
    · rcases hpend : p.pendingOffer.isSome with _ | _
      · obtain ⟨hqueued, hawaits⟩ := exchange_handleClientOffer hp hpend hr
        refine .direct sdpOffer (hqueued.trans (queuedOffer_some hp).symm) ?_ hawaits hreceived
          (hhandled.trans (offersAccepted_eq hp hpend hr))
        rw [awaitsAnswer_some hp, hpend]
      · rw [handleClientOffer, hread]
        simp only [hp, hpend, if_true]
        have hp' : (st.setParticipant sid pid
            { p with queuedClientOffer := some sdpOffer }).participant? sid pid =
              some { p with queuedClientOffer := some sdpOffer } := participant?_set hp
        refine .queued sdpOffer hr (queuedOffer_some hp') ?_ ?_ hreceived (hhandled.trans ?_)
        · rw [awaitsAnswer_some hp, hpend]
        · rw [awaitsAnswer_some hp']
          exact hpend
        · rw [offersAccepted, hread, hp]
          simp only [hpend, if_true]

theorem handleAnswer_eq_answered (st : SfuShard S) (now : Instant) (sid : SessionId)
    (pid : ParticipantId) (sdpAnswer : String) : (st.handleAnswer now sid pid sdpAnswer).1 =
      ((st.answered now sid pid sdpAnswer).map (·.drainQueuedOffer sid pid)).getD st := by
  unfold answered
  rcases hs : st.session? sid with _ | s
  · simp only [handleAnswer, hs]
    rfl
  · rcases hlook : s.participants.lookup pid with _ | p
    · simp only [handleAnswer, hs, hlook]
      rfl
    · rcases hread : S.readAnswer sdpAnswer with e | answer
      · simp only [handleAnswer, hs, hlook, hread]
        rfl
      · simp only [hlook, Option.map_some, Option.getD_some]
        exact handleAnswer_eq now hs hlook hread

/-- When the queue is drained, nothing is pending, and the queue is what it was. -/
theorem exchange_answered {now : Instant} {sdpAnswer : String}
    (h : st.answered now sid pid sdpAnswer = some st') : ∃ p, st'.participant? sid pid = some p ∧
      p.pendingOffer.isSome = false ∧ p.queuedClientOffer = st.queuedOffer sid pid := by
  unfold answered at h
  split at h
  · cases h
  · rename_i s hs
    split at h
    · rename_i p answer hlook hread
      have hp : st.participant? sid pid = some p := participant?_eq_some.mpr ⟨s, hs, hlook⟩
      obtain ⟨-, p', hp', -, hpend, hqueued⟩ :=
        Negotiator.takeAnswer_exchange (s := s) now answer hp
      refine ⟨p', Option.some_inj.mp h ▸ hp', by rw [hpend]; rfl, ?_⟩
      rw [queuedOffer_some hp, hqueued]
    · cases h

/-- **An answer**: what is queued is handled. -/
theorem drained_handleAnswer (hread : ∀ sdp, st.queuedOffer sid pid = some sdp → readable S sdp)
    {now : Instant} {sdpAnswer : String} (hans : st.answered now sid pid sdpAnswer = some st') :
    (st'.drainQueuedOffer sid pid).queuedOffer sid pid = none ∧
      (st'.drainQueuedOffer sid pid).awaitsAnswer sid pid = false ∧
      st'.offersDrained sid pid = (st.queuedOffer sid pid).toList := by
  obtain ⟨p, hp, hpend, hqueued⟩ := exchange_answered hans
  rw [offersDrained, drainQueuedOffer, hp]
  rcases hq : p.queuedClientOffer with _ | sdp
  · simp only [hq]
    refine ⟨?_, ?_, ?_⟩
    · rw [queuedOffer_some hp, hq]
    · rw [awaitsAnswer_some hp, hpend]
    · rw [← hqueued, hq]
      rfl
  · simp only [hq]
    -- the queued offer is handed over where nothing is pending any more
    have hp' : (st'.setParticipant sid pid { p with queuedClientOffer := none }).participant?
        sid pid = some { p with queuedClientOffer := none } := participant?_set hp
    have hr : readable S sdp := hread sdp (hqueued.symm.trans hq)
    obtain ⟨hnone, hawaits⟩ := exchange_handleClientOffer hp' hpend hr
    refine ⟨hnone, hawaits, ?_⟩
    rw [offersAccepted_eq hp' hpend hr, ← hqueued, hq]
    rfl

theorem offersHandled_answer (hread : ∀ sdp, st.queuedOffer sid pid = some sdp → readable S sdp)
    {now : Instant} {sdpAnswer : String} (hans : (st.answered now sid pid sdpAnswer).isSome)
    (creds : IceCreds) (fuel : ℕ) :
    st.offersHandled sid pid (.command (.answer sid pid sdpAnswer) creds now fuel) =
      (st.queuedOffer sid pid).toList := by
  obtain ⟨st₁, hst₁⟩ := Option.isSome_iff_exists.mp hans
  rw [offersHandled, if_pos ⟨rfl, rfl⟩, hst₁]
  exact (drained_handleAnswer hread hst₁).2.2

theorem turn_handleAnswer (hread : ∀ sdp, st.queuedOffer sid pid = some sdp → readable S sdp)
    (sdpAnswer : String) (creds : IceCreds) (now : Instant) (fuel : ℕ) :
    Turn sid pid st (.command (.answer sid pid sdpAnswer) creds now fuel)
      (st.handleAnswer now sid pid sdpAnswer).1 := by
  rw [handleAnswer_eq_answered]
  rcases hans : st.answered now sid pid sdpAnswer with _ | st₁
  · refine .kept rfl id (fun _ => rfl) ?_
    rw [offersHandled, if_pos ⟨rfl, rfl⟩, hans]
    rfl
  · have hsome : (st.answered now sid pid sdpAnswer).isSome := by rw [hans]; rfl
    obtain ⟨hnone, hawaits, -⟩ := drained_handleAnswer hread hans
    exact .drained hnone hawaits (offersHandled_answer hread hsome creds fuel)

theorem turn_handleCommand
    (hread : ∀ sdp, st.queuedOffer sid pid = some sdp → readable S sdp) (cmd : SfuCommand)
    (creds : IceCreds) (now : Instant) (fuel : ℕ) :
    Turn sid pid st (.command cmd creds now fuel) (st.handleCommand creds now cmd).1 := by
  cases cmd with
  | join sid' pid' userId sdpOffer replyTx =>
    rcases hp' : (st.handleJoin creds now sid' pid' userId sdpOffer replyTx).1.participant?
      sid pid with _ | p'
    · exact .gone (queuedOffer_none hp') (awaitsAnswer_none hp') rfl
    · rcases handleJoin_exchange st creds now sid' pid' userId sdpOffer replyTx p' hp' with
        ⟨p, -, hp, hqueued, hpend⟩ | ⟨-, hpend, hqueued⟩
      · refine .kept ?_ ?_ (fun _ => rfl) rfl
        · exact (queuedOffer_some hp').trans (hqueued.trans (queuedOffer_some hp).symm)
        · rw [awaitsAnswer_some hp]
          exact fun h => (awaitsAnswer_some hp').trans (hpend h)
      · refine .gone ((queuedOffer_some hp').trans hqueued) ?_ rfl
        exact (awaitsAnswer_some hp').trans (by rw [hpend]; rfl)
  | answer sid' pid' sdpAnswer =>
    by_cases heq : sid = sid' ∧ pid = pid'
    · obtain ⟨rfl, rfl⟩ := heq
      exact turn_handleAnswer hread sdpAnswer creds now fuel
    · exact .of_keeps (keeps_handleAnswer st heq now sdpAnswer) rfl
        (if_neg fun h => heq ⟨h.1.symm, h.2.symm⟩)
  | iceCandidate sid' pid' candidate mid =>
    exact .of_keeps (quiet_handleIceCandidate st sid' pid' candidate).keeps rfl rfl
  | leave sid' pid' => exact .of_keeps (keeps_handleLeave st sid' pid') rfl rfl
  | publishTrack sid' pid' source kind =>
    exact .of_keeps (quiet_handlePublishTrack st sid' pid' source kind).keeps rfl rfl
  | clientOffer sid' pid' sdpOffer =>
    by_cases heq : sid = sid' ∧ pid = pid'
    · obtain ⟨rfl, rfl⟩ := heq
      exact turn_handleClientOffer st sid pid sdpOffer creds now fuel
    · have hne : ¬(sid' = sid ∧ pid' = pid) := fun h => heq ⟨h.1.symm, h.2.symm⟩
      exact .of_keeps (keeps_handleClientOffer st heq sdpOffer) (if_neg hne) (if_neg hne)
  | udpInput sid' pid' source data =>
    exact .of_keeps (quiet_handleUdpInput st now sid' pid' source data).keeps rfl rfl

/-- **Every step takes its turn.** -/
theorem turn_step {i : Input} (hread : ∀ sdp, st.queuedOffer sid pid = some sdp → readable S sdp)
    (h : Step st i st') : Turn sid pid st i st' := by
  cases h with
  | rehash hr => exact .of_keeps (quiet_rehashed hr).keeps rfl rfl
  | next =>
    cases i with
    | command cmd creds now fuel =>
      have hcmd := turn_handleCommand hread cmd creds now fuel
      dsimp only [next]
      exact hcmd.quiet (quiet_polls.pollTarget now fuel _ _)
    | tick now fuel =>
      have hswept : Keeps sid pid (st.timeouts now) (st.tick now) :=
        .foldl (fun st (e : SessionId × ParticipantId) => keeps_handleLeave st e.1 e.2) _ _
      have htick : Keeps sid pid st (st.tick now) :=
        Keeps.trans (quiet_timeouts st now).keeps hswept
      have hpoll := quiet_polls.pollAll now fuel (st.tick now)
      have hturn : Turn sid pid st (.tick now fuel) (st.tick now) := .of_keeps htick rfl rfl
      exact hturn.quiet hpoll
    | flush now pollFuel fuel =>
      exact .of_keeps (quiet_polls.flushPendingWrites now pollFuel fuel st).keeps rfl rfl
    | negotiate =>
      have hneg : Keeps sid pid st st.negotiatePendingTracks :=
        Keeps.trans (Quiet.of_eq rfl).keeps (.foldl keeps_negotiateOne _ _)
      exact .of_keeps hneg rfl rfl
    | drain tx n => exact .of_keeps (Quiet.of_eq rfl).keeps rfl rfl
    | close tx => exact .of_keeps (Quiet.of_eq rfl).keeps rfl rfl
    | rehash => exact .of_keeps (.refl st) rfl rfl

end SfuShard

section

variable {S : Str0m}

/-- The record after a step of the shard. -/
def OfferRun.record (sid : SessionId) (pid : ParticipantId) (counts : String → Bool)
    (x : OfferRun S) (i : SfuShard.Input) (st' : SfuShard S) : OfferRun S where
  shard := st'
  received := x.received ++ SfuShard.offersReceived counts sid pid i
  waiting :=
    if x.shard.awaitsAnswer sid pid && st'.awaitsAnswer sid pid then
      (SfuShard.offersReceived counts sid pid i).getLast?.or x.waiting
    else none
  handled := x.handled ++ x.shard.offersHandled sid pid i

/-- The shard, with a record of the offers of a participant. -/
def offering (S : Str0m) (sid : SessionId) (pid : ParticipantId) (counts : String → Bool) :
    System (OfferRun S) SfuShard.Input where
  init := fun x => (SfuShard.system S).init x.shard ∧ x.received = [] ∧ x.waiting = none ∧
    x.handled = []
  step := fun x i x' => SfuShard.Step x.shard i x'.shard ∧
    x' = x.record sid pid counts i x'.shard

/-- The record does not hinder the shard. -/
theorem exists_offering {st : SfuShard S} (h : (SfuShard.system S).Reachable st)
    (sid : SessionId) (pid : ParticipantId) (counts : String → Bool) :
    ∃ x, (offering S sid pid counts).Reachable x ∧ x.shard = st := by
  refine h.simulate (R := fun st (x : OfferRun S) => x.shard = st) (fun st hinit => ?_)
    fun st i st' x hx hstep => ?_
  · exact ⟨⟨st, [], none, []⟩, ⟨hinit, rfl, rfl, rfl⟩, rfl⟩
  · exact ⟨i, x.record sid pid counts i st', ⟨hx ▸ hstep, rfl⟩, rfl⟩

theorem reachable_shard {sid : SessionId} {pid : ParticipantId} {counts : String → Bool}
    {x : OfferRun S} (h : (offering S sid pid counts).Reachable x) :
    (SfuShard.system S).Reachable x.shard := by
  induction h with
  | start hinit => exact .start hinit.1
  | step _ _ hstep ih => exact .step ih trivial hstep.1

namespace OfferRun

/-- The queue holds the latest offer that came since the server offer awaits its answer, and
what was handed to the transport, and is to be, came in that order. -/
structure Kept (sid : SessionId) (pid : ParticipantId) (x : OfferRun S) : Prop where
  waits : (x.shard.queuedOffer sid pid).isSome → x.shard.awaitsAnswer sid pid
  read : ∀ sdp, x.shard.queuedOffer sid pid = some sdp → SfuShard.readable S sdp
  waiting : x.waiting = x.shard.queuedOffer sid pid
  order : (x.handled ++ (x.shard.queuedOffer sid pid).toList).Sublist x.received

variable {sid : SessionId} {pid : ParticipantId} {x : OfferRun S} {st' : SfuShard S}
  {i : SfuShard.Input}

theorem Kept.handled_sublist (h : x.Kept sid pid) : x.handled.Sublist x.received :=
  (List.sublist_append_left _ _).trans h.order

/-- **The step lemma.** -/
theorem Kept.record (h : x.Kept sid pid) (hturn : SfuShard.Turn sid pid x.shard i st') :
    (x.record sid pid (SfuShard.readable S) i st').Kept sid pid := by
  cases hturn with
  | kept hqueued hawaits hreceived hhandled =>
    refine ⟨fun hsome => ?_, fun sdp hsdp => h.read sdp (hqueued.symm.trans hsdp), ?_, ?_⟩
    · exact hawaits (h.waits (hqueued ▸ hsome))
    · dsimp only [OfferRun.record]
      rw [hqueued, ← h.waiting]
      rcases hpend : x.shard.awaitsAnswer sid pid with _ | _
      · rw [Bool.false_and, if_neg Bool.false_ne_true]
        rcases hw : x.waiting with _ | sdp
        · rfl
        · -- a queued offer would have a server offer to wait for
          have := h.waits (by rw [← h.waiting, hw]; rfl)
          rw [hpend] at this
          cases this
      · rw [hawaits hpend, hreceived hpend]
        rfl
    · dsimp only [OfferRun.record]
      rw [hqueued, hhandled, List.append_nil]
      exact h.order.trans (List.sublist_append_left _ _)
  | gone hqueued hawaits hhandled =>
    refine ⟨?_, ?_, ?_, ?_⟩ <;> dsimp only [OfferRun.record] <;> rw [hqueued]
    · exact nofun
    · exact nofun
    · rw [hawaits, Bool.and_false]
      rfl
    · rw [hhandled, List.append_nil]
      simpa using h.handled_sublist.trans (List.sublist_append_left _ _)
  | drained hqueued hawaits hhandled =>
    refine ⟨?_, ?_, ?_, ?_⟩ <;> dsimp only [OfferRun.record] <;> rw [hqueued]
    · exact nofun
    · exact nofun
    · rw [hawaits, Bool.and_false]
      rfl
    · rw [hhandled]
      simpa using h.order.trans (List.sublist_append_left _ _)
  | queued sdp hread hqueued hpend hawaits hreceived hhandled =>
    refine ⟨fun _ => hawaits, fun sdp' hsdp => ?_, ?_, ?_⟩
    · obtain rfl := Option.some_inj.mp (hqueued.symm.trans hsdp)
      exact hread
    · dsimp only [OfferRun.record]
      rw [hpend, hawaits, hreceived, hqueued]
      rfl
    · dsimp only [OfferRun.record]
      rw [hhandled, hreceived, hqueued, List.append_nil]
      exact List.Sublist.append h.handled_sublist (.refl _)
  | direct sdp hqueued hpend hawaits hreceived hhandled =>
    have hnone : x.shard.queuedOffer sid pid = none := by
      rcases hq : x.shard.queuedOffer sid pid with _ | sdp'
      · rfl
      · have := h.waits (by rw [hq]; rfl)
        rw [hpend] at this
        cases this
    rw [hnone] at hqueued
    refine ⟨?_, ?_, ?_, ?_⟩ <;> dsimp only [OfferRun.record] <;> rw [hqueued]
    · exact nofun
    · exact nofun
    · rw [hpend, Bool.false_and]
      rfl
    · rw [hhandled, hreceived, Option.toList_none, List.append_nil]
      exact List.Sublist.append h.handled_sublist (.refl _)

/-- **The run lemma.** -/
theorem kept (h : (offering S sid pid (SfuShard.readable S)).Reachable x) : x.Kept sid pid := by
  refine h.invariant (I := fun x => x.Kept sid pid) ?_ ?_
  · rintro x ⟨⟨_, _, _, hnew⟩, hreceived, hwaiting, hhandled⟩
    have hnone : x.shard.queuedOffer sid pid = none := by
      rw [hnew]
      rfl
    refine ⟨?_, ?_, hwaiting.trans hnone.symm, ?_⟩
    · rw [hnone]
      exact nofun
    · rw [hnone]
      exact nofun
    · rw [hnone, hreceived, hhandled]
      exact .refl _
  · rintro x i x' hkept - ⟨hstep, hrecord⟩
    rw [hrecord]
    exact hkept.record (SfuShard.turn_step hkept.read hstep)

/-- The state after a step that the shard computes. -/
def next (sid : SessionId) (pid : ParticipantId) (counts : String → Bool) (x : OfferRun S)
    (i : SfuShard.Input) : OfferRun S :=
  x.record sid pid counts i (x.shard.next i)

theorem step_next (counts : String → Bool) (x : OfferRun S) (i : SfuShard.Input) :
    (offering S sid pid counts).step x i (x.next sid pid counts i) :=
  ⟨.next x.shard i, rfl⟩

/-- Participant 1 is offered the microphone of participant 2, and sends offers before it
answers. -/
def impatience (offers : List String) : List SfuShard.Input :=
  [.command (.join 7 1 "alice" "" 11) ⟨"ua", "pa"⟩ 0 9,
    .command (.join 7 2 "bob" "a" 12) ⟨"ub", "pb"⟩ 0 9, .negotiate] ++
    offers.map fun sdp => .command (.clientOffer 7 1 sdp) ⟨"uc", "pc"⟩ 0 9

/-- What comes of offers of Alice's that do not wait for her answer. -/
def impatient (offers : List String) (counts : String → Bool) : OfferRun scripted :=
  (impatience offers).foldl (next 7 1 counts) ⟨.new 0 [(1, 2)] 12000, [], none, []⟩

theorem reachable_impatient (offers : List String) (counts : String → Bool) :
    (offering scripted 7 1 counts).Reachable (impatient offers counts) :=
  System.reachable_foldl (M := offering scripted 7 1 counts)
    ⟨⟨0, [(1, 2)], 12000, rfl⟩, rfl, rfl, rfl⟩ (step_next counts) _

end OfferRun

/-- **A queued offer has a server offer to wait for, and is handled with its answer.** Of the
offers that can be read, the latest one that came since the server offer awaits its answer is
what is handed to the transport when that answer is processed, and offers are handed to it in
the order in which they came. -/
theorem queued_offers (S : Str0m) (sid : SessionId) (pid : ParticipantId) {x : OfferRun S}
    (h : (offering S sid pid (SfuShard.readable S)).Reachable x) :
    (∀ sid' pid' p, x.shard.participant? sid' pid' = some p → p.queuedClientOffer.isSome →
      p.pendingOffer.isSome) ∧
    x.handled.Sublist x.received ∧
    ∀ sdpAnswer creds now fuel, (x.shard.answered now sid pid sdpAnswer).isSome →
      x.shard.offersHandled sid pid (.command (.answer sid pid sdpAnswer) creds now fuel) =
        x.waiting.toList := by
  refine ⟨?_, (OfferRun.kept h).handled_sublist, ?_⟩
  · intro sid' pid' p hp hqueued
    obtain ⟨y, hy, hshard⟩ :=
      exists_offering (reachable_shard h) sid' pid' (SfuShard.readable S)
    have hwaits := (OfferRun.kept hy).waits
    rw [hshard, SfuShard.queuedOffer_some hp, SfuShard.awaitsAnswer_some hp] at hwaits
    exact hwaits hqueued
  · intro sdpAnswer creds now fuel hans
    rw [(OfferRun.kept h).waiting]
    exact SfuShard.offersHandled_answer (OfferRun.kept h).read hans creds fuel

open OfferRun in
theorem queued_offers_impatient :
    (impatient ["v", "a"] (SfuShard.readable scripted)).shard.offersHandled 7 1
      (.command (.answer 7 1 "accept") ⟨"ud", "pd"⟩ 0 9) = ["a"] :=
  ((queued_offers scripted 7 1 (reachable_impatient ["v", "a"] _)).2.2 "accept" ⟨"ud", "pd"⟩ 0 9
    (by decide)).trans (by decide)

open OfferRun in
/-- **An offer that cannot be read is passed over**: the one queued before it is handled with
the answer, after it. -/
theorem unreadable_offer_passed_over :
    ∃ x : OfferRun scripted, (offering scripted 7 1 fun _ => true).Reachable x ∧
      x.waiting = some "x" ∧ x.shard.awaitsAnswer 7 1 = true ∧
      x.shard.offersHandled 7 1 (.command (.answer 7 1 "accept") ⟨"ud", "pd"⟩ 0 9) = ["a"] :=
  ⟨impatient ["a", "x"] fun _ => true, reachable_impatient _ _, by decide, by decide, by decide⟩

end

end Video

end MateHub
