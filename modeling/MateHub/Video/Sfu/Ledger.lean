import MateHub.Video.Sfu.Stages

/-!
# What is raised, what is handled, and what waits

The ledger of a run keeps, of everybody since its Join, the events that its transport has raised
and those that have been handled. Between any two stages it is balanced
(`MateHub.Video.SfuShard.Ledger.Balanced`): what has been raised by a transport that is alive has
been handled or waits still, no packet waits in its slot, and what is unsent of the packets that
were written to it is marked for the flush.

The handlers neither take anything out of a transport nor write to it
(`MateHub.Video.SfuShard.Attends`), but for the datagram that is fed to one of them: the slot
that it may fill is emptied by the poll that comes next.
-/

namespace MateHub

namespace Video

variable {S : Str0m} {Q : S.Pump}

/-- A participant that a handler has been at: what waited in its transport waits still, and
nothing has been written to it. -/
structure SfuParticipant.Kept (Q : S.Pump) (p p' : SfuParticipant S) : Prop where
  alive : S.isAlive p'.rtc = true → S.isAlive p.rtc = true
  events : Q.events p.rtc ≤ Q.events p'.rtc
  unsent : Q.unsent p'.rtc = Q.unsent p.rtc

theorem SfuParticipant.Attended.kept (hfinal : Str0m.Final (S := S) Eq) {p p' : SfuParticipant S}
    (h : p.Attended p') : p.Kept Q p' where
  alive := fun halive => by
    by_contra hdead
    rw [hfinal.evolves h.evolves (Bool.eq_false_iff.mpr hdead)] at halive
    cases halive
  events := (Str0m.Pump.tended_of_tend h.rtc).events
  unsent := (Str0m.Pump.tended_of_tend h.rtc).unsent

namespace SfuShard

variable {st st' : SfuShard S} {sid : SessionId} {pid : ParticipantId}
  {log : List (HandledEvent S)}

/-! ### The handlers -/

/-- A datagram is dropped, or it ends the transport, or it is fed to it. -/
theorem handleUdpInput_cases (st : SfuShard S) (now : Instant) (sid : SessionId)
    (pid : ParticipantId) (source : SocketAddr) (data : List UInt8) :
    st.handleUdpInput now sid pid source data = (st, none) ∨
    ∃ p rtc contents, st.participant? sid pid = some p ∧
      ((∃ e, S.handleReceive p.rtc now source st.primaryCandidateAddr contents = (rtc, .error e)) ∧
        st.handleUdpInput now sid pid source data = (st.setParticipant sid pid
          { p with rtc := S.disconnect rtc, lastActivityAt := now }, none) ∨
      S.handleReceive p.rtc now source st.primaryCandidateAddr contents = (rtc, .ok ()) ∧
        st.handleUdpInput now sid pid source data = (st.setParticipant sid pid
          { p with rtc := rtc, lastActivityAt := now }, some (.one sid p.id))) := by
  rw [handleUdpInput]
  split
  · exact .inl rfl
  · rename_i p hp
    split
    · exact .inl rfl
    · rename_i contents _
      split
      · exact .inl rfl
      · split
        · rename_i rtc e hreceive
          exact .inr ⟨p, rtc, contents, hp, .inl ⟨⟨e, hreceive⟩, rfl⟩⟩
        · rename_i rtc hreceive
          exact .inr ⟨p, rtc, contents, hp, .inr ⟨hreceive, rfl⟩⟩

/-- The transport of one who joins is empty but for what the offer raises. -/
theorem fresh_handleJoin (st : SfuShard S) (creds : IceCreds) (now : Instant) (sid : SessionId)
    (pid : ParticipantId) (userId sdpOffer : String) (replyTx : WsTx) {p : SfuParticipant S}
    (hp : (st.handleJoin creds now sid pid userId sdpOffer replyTx).1.participant? sid pid =
      some p) : Q.unsent p.rtc = 0 ∧ Q.slot p.rtc = none := by
  have hnone := participant?_kickPrior st sid pid
  unfold handleJoin at hp
  generalize st.kickPrior sid pid = st₁ at hp hnone
  dsimp only at hp
  split at hp
  · exact absurd (hnone.symm.trans hp) nofun
  · rename_i offer _
    split at hp
    · exact absurd (hnone.symm.trans hp) nofun
    · rename_i rtc answer haccept
      rw [participant?_addParticipant, if_pos ⟨rfl, rfl⟩] at hp
      obtain rfl := Option.some.inj hp
      have hcandidates (l : List SocketAddr) (rtc : S.Rtc) : Q.Tended rtc
          (l.foldl (fun rtc addr => S.addLocalCandidate rtc (S.hostCandidate addr)) rtc) :=
        List.foldlRecOn l _ (.refl rtc) fun _ ih addr _ =>
          ih.trans (Str0m.Pump.tended_addLocalCandidate _ _)
      have htend := Str0m.Tend.acceptOffer (st₁.buildRtc creds now) offer
      rw [haccept] at htend
      have htended := (hcandidates st₁.candidateAddrs (S.build creds now)).trans
        (Str0m.Pump.tended_of_tend (.single htend))
      obtain ⟨hunsent, hslot⟩ := Q.build creds now
      exact ⟨htended.unsent.trans hunsent, htended.slot.trans hslot⟩

/-- A stage that feeds no datagram to the participant and does not bring it attends to it. -/
theorem attends_handles (st : SfuShard S) {a : Stage} (hbrings : a.brings sid pid = false)
    (hudp : ∀ source data creds now, a ≠ .command (.udpInput sid pid source data) creds now) :
    Attends sid pid st (a.handles st) := by
  cases a with
  | command cmd creds now =>
    cases cmd with
    | join sid' pid' userId sdpOffer replyTx =>
      exact attends_handleJoin st creds now (of_decide_eq_false hbrings) userId sdpOffer replyTx
    | answer sid' pid' sdpAnswer => exact attends_handleAnswer st now sid' pid' sdpAnswer
    | iceCandidate sid' pid' candidate _ => exact attends_handleIceCandidate st sid' pid' candidate
    | leave sid' pid' => exact attends_handleLeave st sid' pid'
    | publishTrack sid' pid' source kind =>
      exact attends_handlePublishTrack st sid' pid' source kind
    | clientOffer sid' pid' sdpOffer => exact attends_handleClientOffer st sid' pid' sdpOffer
    | udpInput sid' pid' source data =>
      have hother {p p' : SfuParticipant S} (hp : st.participant? sid' pid' = some p) :
          Attends sid pid st (st.setParticipant sid' pid' p') := by
        refine .of_eq ?_ rfl
        rw [participant?_setParticipant hp, if_neg]
        rintro ⟨rfl, rfl⟩
        exact hudp source data creds now rfl
      change Attends sid pid st (st.handleUdpInput now sid' pid' source data).1
      rcases handleUdpInput_cases st now sid' pid' source data with
        hsame | ⟨p, rtc, contents, hp, ⟨-, hdead⟩ | ⟨-, hfed⟩⟩
      · rw [hsame]
        exact .refl st
      · rw [hdead]
        exact hother hp
      · rw [hfed]
        exact hother hp
  | tick now => exact attends_tick st now
  | flush now => exact .refl st
  | negotiate => exact attends_negotiatePendingTracks st
  | drain tx n => exact .of_eq rfl rfl
  | close tx => exact .of_eq rfl rfl
  | rehash => exact .refl st

/-- The stage feeds a datagram to somebody. -/
def Stage.Feeds (a : Stage) (k : SessionId × ParticipantId) : Prop :=
  ∃ source data creds now, a = .command (.udpInput k.1 k.2 source data) creds now

theorem Stage.eq_join_of_brings {a : Stage} (h : a.brings sid pid = true) :
    ∃ userId sdpOffer tx creds now, a = .command (.join sid pid userId sdpOffer tx) creds now := by
  unfold brings at h
  split at h
  · obtain ⟨rfl, rfl⟩ := of_decide_eq_true h
    exact ⟨_, _, _, _, _, rfl⟩
  · cases h

variable (hfinal : Str0m.Final (S := S) Eq)

include hfinal

/-- **What waits in a transport waits there still** after the handler of a stage. -/
theorem kept_handles {a : Stage} (hbrings : a.brings sid pid = false)
    (hclear : Clear Q (fun _ => False) st) {p' : SfuParticipant S}
    (hp' : (a.handles st).participant? sid pid = some p') (halive : S.isAlive p'.rtc = true) :
    ∃ p, st.participant? sid pid = some p ∧ p.Kept Q p' := by
  by_cases hfeeds : a.Feeds (sid, pid)
  · obtain ⟨source, data, creds, now, rfl⟩ := hfeeds
    change (st.handleUdpInput now sid pid source data).1.participant? sid pid = some p' at hp'
    rcases handleUdpInput_cases st now sid pid source data with
      hsame | ⟨p, rtc, contents, hp, ⟨-, hdead⟩ | ⟨hreceive, hfed⟩⟩
    · rw [hsame] at hp'
      exact ⟨p', hp', id, le_rfl, rfl⟩
    · rw [hdead, participant?_setParticipant hp, if_pos ⟨rfl, rfl⟩] at hp'
      obtain rfl := Option.some.inj hp'
      rw [hfinal.disconnect] at halive
      cases halive
    · rw [hfed, participant?_setParticipant hp, if_pos ⟨rfl, rfl⟩] at hp'
      obtain rfl := Option.some.inj hp'
      have hcall := Str0m.Call.handleReceive p.rtc now source st.primaryCandidateAddr contents
      rw [hreceive] at hcall
      have halive' := hfinal.alive hcall
      obtain ⟨hqueue, hunsent, -⟩ := Q.receive hreceive
      exact ⟨p, hp, halive', Str0m.Pump.events_le hqueue
        (.inl (hclear.slot sid pid p id hp (halive' halive))), hunsent⟩
  · obtain ⟨p, hp, ha⟩ := (attends_handles st hbrings fun source data creds now heq =>
      hfeeds ⟨source, data, creds, now, heq⟩).participant p' hp'
    exact ⟨p, hp, ha.kept hfinal⟩

/-- **A handler leaves nobody's packet in the slot**, but for the one that it feeds. -/
theorem Clear.handles (h : Clear Q (fun _ => False) st) (a : Stage) :
    Clear Q a.Feeds (a.handles st) := by
  have hattends {sid : SessionId} {pid : ParticipantId} (hbrings : a.brings sid pid = false)
      (hk : ¬ a.Feeds (sid, pid)) : Attends sid pid st (a.handles st) :=
    attends_handles st hbrings fun source data creds now heq => hk ⟨source, data, creds, now, heq⟩
  refine ⟨fun sid pid p' hk hp' halive => ?_, fun sid pid p' hk hp' halive hunsent => ?_⟩
  · rcases hbrings : a.brings sid pid with _ | _
    · obtain ⟨p, hp, ha⟩ := (hattends hbrings hk).participant p' hp'
      have hslot := (Str0m.Pump.tended_of_tend (Q := Q) ha.rtc).slot
      exact hslot.trans (h.slot sid pid p id hp ((ha.kept (Q := Q) hfinal).alive halive))
    · obtain ⟨userId, sdpOffer, tx, creds, now, rfl⟩ := Stage.eq_join_of_brings hbrings
      exact (fresh_handleJoin st creds now sid pid userId sdpOffer tx hp').2
  · rcases hbrings : a.brings sid pid with _ | _
    · have hat := hattends hbrings hk
      obtain ⟨p, hp, ha⟩ := hat.participant p' hp'
      have hkept : p.Kept Q p' := ha.kept hfinal
      rw [hkept.unsent] at hunsent
      rw [hat.pendingFlush]
      exact h.unsent sid pid p id hp (hkept.alive halive) hunsent
    · obtain ⟨userId, sdpOffer, tx, creds, now, rfl⟩ := Stage.eq_join_of_brings hbrings
      exact absurd (fresh_handleJoin st creds now sid pid userId sdpOffer tx hp').1 hunsent

/-! ### The stages -/

omit hfinal in
theorem Clear.congr {E : SessionId × ParticipantId → Prop} (h : Clear Q E st)
    (hparticipant : ∀ sid pid, st'.participant? sid pid = st.participant? sid pid)
    (hflush : ∀ e ∈ st.pendingFlush, e ∈ st'.pendingFlush) : Clear Q E st' where
  slot := fun sid pid p hk hp => h.slot sid pid p hk (hparticipant sid pid ▸ hp)
  unsent := fun sid pid p hk hp halive hunsent =>
    hflush _ (h.unsent sid pid p hk (hparticipant sid pid ▸ hp) halive hunsent)

theorem ExhaustsTarget.clear {now : Instant} {target : Option PollTarget}
    (h : ExhaustsTarget now target st log st') (hst : Clear Q (fun _ => False) st) :
    Clear Q (fun _ => False) st' := by
  rcases target with _ | ⟨sid, pid⟩ | sid
  · exact h.2 ▸ hst
  · exact Exhausts.clear hfinal h (hst.mono nofun)
  · exact ExhaustsSession.clear hfinal h hst

/-- A datagram, and the poll that empties the slot again. -/
theorem clear_udpInput {now : Instant} {source : SocketAddr} {data : List UInt8} (hids : st.Ids)
    (hst : Clear Q (fun _ => False) st)
    (h : ExhaustsTarget now (st.handleUdpInput now sid pid source data).2
      (st.handleUdpInput now sid pid source data).1 log st') : Clear Q (fun _ => False) st' := by
  have hset {p p' : SfuParticipant S} (hp : st.participant? sid pid = some p) :
      Clear Q (· = (sid, pid)) (st.setParticipant sid pid p') :=
    (hst.mono nofun).set hp
  rcases handleUdpInput_cases st now sid pid source data with
    hsame | ⟨p, rtc, contents, hp, ⟨-, hdead⟩ | ⟨-, hfed⟩⟩
  · rw [hsame] at h
    exact h.2 ▸ hst
  · rw [hdead] at h
    obtain ⟨-, rfl⟩ := h
    have hnot {p' : SfuParticipant S}
        (hp' : (st.setParticipant sid pid { p with
          rtc := S.disconnect rtc, lastActivityAt := now }).participant? sid pid = some p') :
        S.isAlive p'.rtc = false := by
      rw [participant?_setParticipant hp, if_pos ⟨rfl, rfl⟩] at hp'
      obtain rfl := Option.some.inj hp'
      exact hfinal.disconnect rtc
    refine ⟨fun sid' q p' _ hp' halive => ?_, fun sid' q p' _ hp' halive => ?_⟩
    · refine (hset hp).slot sid' q p' (fun hk => ?_) hp' halive
      obtain ⟨rfl, rfl⟩ := Prod.mk.inj hk
      rw [hnot hp'] at halive
      cases halive
    · refine (hset hp).unsent sid' q p' (fun hk => ?_) hp' halive
      obtain ⟨rfl, rfl⟩ := Prod.mk.inj hk
      rw [hnot hp'] at halive
      cases halive
  · rw [hfed, hids sid pid p hp] at h
    exact Exhausts.clear hfinal h (hset hp)

/-- **No stage leaves a packet in a slot**, or written packets unmarked. -/
theorem Performs.clear {a : Stage} (h : Performs a st log st') (hids : st.Ids)
    (hst : Clear Q (fun _ => False) st) : Clear Q (fun _ => False) st' := by
  have hhandles := hst.handles hfinal a
  cases h with
  | @command cmd creds now _ _ _ h =>
    by_cases hudp : ∃ sid pid source data, cmd = .udpInput sid pid source data
    · obtain ⟨sid, pid, source, data, rfl⟩ := hudp
      exact clear_udpInput hfinal hids hst h
    · refine ExhaustsTarget.clear hfinal h (hhandles.mono ?_)
      rintro k ⟨source, data, _, _, heq⟩
      exact hudp ⟨k.1, k.2, source, data, (Stage.command.inj heq).1⟩
  | tick h => exact h.clear hfinal (hhandles.mono nofun)
  | flush h => exact (h.clear hfinal hst).1
  | negotiate => exact hhandles.mono nofun
  | drain => exact hst.congr (fun _ _ => rfl) fun _ => id
  | close => exact hst.congr (fun _ _ => rfl) fun _ => id
  | rehash h =>
    exact hst.congr (fun _ _ => participant?_rehashed h) fun e he =>
      AList.mem_keys.mpr (h.pendingFlush.map Sigma.fst |>.mem_iff.mp (AList.mem_keys.mp he))

/-- **The polls of a stage lose nothing.** -/
theorem Performs.conserves {a : Stage} (h : Performs a st log st') :
    Conserves Q (a.handles st) log st' := by
  have hsame {st st' : SfuShard S}
      (heq : ∀ sid pid, st'.participant? sid pid = st.participant? sid pid) :
      Conserves Q st [] st' := by
    intro sid pid
    rw [heq]
    exact Option.Rel.refl Drains.refl _
  cases h with
  | command h => exact ExhaustsTarget.conserves hfinal h
  | tick h => exact h.conserves hfinal
  | flush h => exact h.conserves hfinal
  | negotiate => exact hsame fun _ _ => rfl
  | drain => exact hsame fun _ _ => rfl
  | close => exact hsame fun _ _ => rfl
  | rehash h => exact hsame fun _ _ => participant?_rehashed h

omit hfinal

/-! ### The ledger -/

/-- The events that wait in the transport of somebody. -/
def waits (Q : S.Pump) (st : SfuShard S) (sid : SessionId) (pid : ParticipantId) :
    Multiset Event := (st.participant? sid pid).elim 0 fun p => Q.events p.rtc

theorem waits_of_eq_some {p : SfuParticipant S} (hp : st.participant? sid pid = some p) :
    waits Q st sid pid = Q.events p.rtc := by
  rw [waits, hp]
  rfl

/-- **The ledger of a run**: the shard, and of everybody since its Join the events that its
transport has raised and those that have been handled. -/
structure Ledger (S : Str0m) where
  shard : SfuShard S
  raised : SessionId → ParticipantId → Multiset Event
  handled : SessionId → ParticipantId → Multiset Event

namespace Ledger

/-- The ledger after a stage: what the handler has brought up is entered as raised, and what the
polls have taken as handled. The account of one who joins is opened anew. -/
def enter (Q : S.Pump) (w : Ledger S) (a : Stage) (log : List (HandledEvent S))
    (st : SfuShard S) : Ledger S where
  shard := st
  raised := fun sid pid =>
    if a.brings sid pid then waits Q (a.handles w.shard) sid pid
    else w.raised sid pid + (waits Q (a.handles w.shard) sid pid - waits Q w.shard sid pid)
  handled := fun sid pid =>
    (if a.brings sid pid then 0 else w.handled sid pid) + Video.handled log sid pid

/-- **The books are balanced**: what has been raised has been handled, or waits still. -/
structure Balanced (Q : S.Pump) (w : Ledger S) : Prop where
  ids : w.shard.Ids
  clear : Clear Q (fun _ => False) w.shard
  account : ∀ sid pid p, w.shard.participant? sid pid = some p → S.isAlive p.rtc = true →
    w.raised sid pid = w.handled sid pid + Q.events p.rtc

variable {w w' : Ledger S}

/-- **The step lemma.** -/
theorem Balanced.enter (h : w.Balanced Q) (hfinal : Str0m.Final (S := S) Eq) {a : Stage}
    (ha : Performs a w.shard log st) : (w.enter Q a log st).Balanced Q where
  ids := by
    obtain ⟨i, hstep⟩ := ha.exists_step
    exact h.ids.step hstep
  clear := ha.clear hfinal h.ids h.clear
  account := fun sid pid p' hp' halive' => by
    have hp' : st.participant? sid pid = some p' := hp'
    have hrel := ha.conserves (Q := Q) hfinal sid pid
    rw [hp'] at hrel
    obtain ⟨p₁, hp₁, hdrains⟩ := hrel.some_right
    have halive₁ := hdrains.alive halive'
    have hpolled : waits Q (a.handles w.shard) sid pid =
        Video.handled log sid pid + Q.events p'.rtc :=
      (waits_of_eq_some hp₁).trans (hdrains.events halive')
    dsimp only [Ledger.enter]
    rcases hbrings : a.brings sid pid with _ | _
    · obtain ⟨p, hp, hkept⟩ := kept_handles hfinal hbrings h.clear hp₁ halive₁
      have haccount := h.account sid pid p hp (hkept.alive halive₁)
      have hle : waits Q w.shard sid pid ≤ waits Q (a.handles w.shard) sid pid := by
        rw [waits_of_eq_some hp, waits_of_eq_some hp₁]
        exact hkept.events
      rw [if_neg Bool.false_ne_true, if_neg Bool.false_ne_true, haccount, ← waits_of_eq_some hp,
        add_assoc, add_tsub_cancel_of_le hle, hpolled, add_assoc]
    · rw [if_pos rfl, if_pos rfl, hpolled, zero_add]

end Ledger

/-- Stages in any order, from no session, with their ledger. -/
def pumping (Q : S.Pump) : System (Ledger S) Stage where
  init w := ∃ shardIndex candidateAddrs zombieTimeout,
    w = ⟨.new shardIndex candidateAddrs zombieTimeout, fun _ _ => 0, fun _ _ => 0⟩
  step w a w' := ∃ log st, Performs a w.shard log st ∧ w' = w.enter Q a log st

variable {w : Ledger S}

/-- **The run lemma.** -/
theorem balanced_of_reachable (hfinal : Str0m.Final (S := S) Eq)
    (hw : (pumping Q).Reachable w) : w.Balanced Q := by
  refine hw.invariant (fun w hinit => ?_) fun w a w' h _ hstep => ?_
  · obtain ⟨shardIndex, candidateAddrs, zombieTimeout, rfl⟩ := hinit
    have hnobody (sid : SessionId) (pid : ParticipantId) : participant? (S := S)
        (.new shardIndex candidateAddrs zombieTimeout) sid pid = none := rfl
    refine ⟨ids_new _ _ _, ⟨fun sid pid p _ hp => ?_, fun sid pid p _ hp => ?_⟩,
      fun sid pid p hp => ?_⟩ <;>
      exact absurd ((hnobody sid pid).symm.trans hp) (by simp)
  · obtain ⟨log, st, ha, rfl⟩ := hstep
    exact h.enter hfinal ha

/-- What the loop comes to stage by stage, the shard comes to. -/
theorem reachable_of_pumping (hw : (pumping Q).Reachable w) :
    (system S).Reachable w.shard := by
  refine (hw.simulate (N := system S) (R := fun w st => w.shard = st) (fun w hinit => ?_)
    fun w a w' st hst hstep => ?_).elim fun st h => h.2 ▸ h.1
  · obtain ⟨shardIndex, candidateAddrs, zombieTimeout, rfl⟩ := hinit
    exact ⟨_, ⟨shardIndex, candidateAddrs, zombieTimeout, rfl⟩, rfl⟩
  · obtain ⟨log, st', ha, rfl⟩ := hstep
    obtain ⟨i, hi⟩ := ha.exists_step
    exact ⟨i, st', hst ▸ hi, rfl⟩

end SfuShard

end Video

end MateHub
