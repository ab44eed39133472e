import MateHub.Lib.Compartments
import MateHub.Video.Scripted
import MateHub.Video.Sfu.Writes

/-!
# One session of a shard, alone

A media thread serves many sessions, in one state and by one loop. `MateHub.Video.SfuShard.alone`
is the state with one of them alone: its participants and their transports, its tables, what
waits to be negotiated and flushed for it, its entries of the routing tables, and the outboxes
of its WebSockets.

Every handler is confined to the session it is called for; the tick, the sweeps and the
negotiation fall apart into those of the sessions. So the sessions do not interfere: after every
run of the thread a session is what a thread with this session alone would have made of it, under
the same inputs less those that are for others (`MateHub.Video.SfuShard.alone_of_traced`). Of what
comes from outside this takes two things: a WebSocket is used for one session, and no
session is given the ICE credentials of another.
-/

namespace MateHub

namespace Video

open Compartment

/-- The session that a target of the polls is in. -/
def PollTarget.sid : PollTarget → SessionId
  | .one sid _ => sid
  | .session sid => sid

namespace SharedMaps

/-- Two sweeps of the shared tables may change places. -/
theorem retain_comm (p q : ShardTarget → Bool) (m : SharedMaps) :
    (m.retain p).retain q = (m.retain q).retain p :=
  congrArg₂ mk (Dict.retain_comm (fun _ => p) (fun _ => q) m.addrToTarget)
    (Dict.retain_comm (fun _ => p) (fun _ => q) m.ufragToTarget)

/-- A sweep that takes less is nothing before one that takes more. -/
theorem retain_of_imp {p q : ShardTarget → Bool} (h : ∀ t, q t = true → p t = true)
    (m : SharedMaps) : (m.retain p).retain q = m.retain q :=
  congrArg₂ mk (Dict.retain_of_imp (p := fun _ => p) (fun _ => h) m.addrToTarget)
    (Dict.retain_of_imp (p := fun _ => p) (fun _ => h) m.ufragToTarget)

end SharedMaps

namespace SfuShard

variable {S : Str0m}

/-- **A session alone**: the shard without the others, where `owner` says which session a
WebSocket is for. -/
def alone (owner : WsTx → SessionId) (sid : SessionId) (st : SfuShard S) : SfuShard S :=
  { st with
    sessions := st.sessions.only id sid
    pendingNegotiation := st.pendingNegotiation.only Prod.fst sid
    pendingFlush := st.pendingFlush.only Prod.fst sid
    sharedMaps := st.sharedMaps.retain fun t => t.sid = sid
    ws := fun tx => if owner tx = sid then st.ws tx else {} }

variable {owner : WsTx → SessionId} {st : SfuShard S} {sid : SessionId} {pid : ParticipantId}

/-- The session itself is still there. -/
theorem session?_alone : (st.alone owner sid).session? sid = st.session? sid :=
  Dict.lookup_only rfl st.sessions

/-- And so are its participants. -/
theorem participant?_alone :
    (st.alone owner sid).participant? sid pid = st.participant? sid pid := by
  rw [participant?, session?_alone, participant?]

/-! What a handler reads of its session is the same in the session alone. -/

section Reading

variable {α : Type*}

/-- A step is confined if it is one that is, on all states with the same session. -/
theorem confined_of_session {f g : SfuShard S → SfuShard S} {s : Option (SfuSession S)}
    (hs : st.session? sid = s) (h : ∀ t : SfuShard S, t.session? sid = s → f t = g t)
    (hg : Confined (alone owner) sid g st) : Confined (alone owner) sid f st :=
  .read (r := fun t : SfuShard S => t.session? sid) hs session?_alone h hg

/-- The same for a step that looks at one participant only. -/
theorem confined_of_participant {f g : SfuShard S → SfuShard S} {p : Option (SfuParticipant S)}
    (hp : st.participant? sid pid = p)
    (h : ∀ t : SfuShard S, t.participant? sid pid = p → f t = g t)
    (hg : Confined (alone owner) sid g st) : Confined (alone owner) sid f st :=
  .read (r := fun t : SfuShard S => t.participant? sid pid) hp participant?_alone h hg

/-- The same for a step with an answer, which looks at its session. -/
theorem answers_of_session {f g : SfuShard S → SfuShard S × α} {s : Option (SfuSession S)}
    (hs : st.session? sid = s) (h : ∀ t : SfuShard S, t.session? sid = s → f t = g t)
    (hg : Answers (alone owner) sid g st) : Answers (alone owner) sid f st :=
  .read (r := fun t : SfuShard S => t.session? sid) hs session?_alone h hg

/-- And for one that looks at one participant. -/
theorem answers_of_participant {f g : SfuShard S → SfuShard S × α}
    {p : Option (SfuParticipant S)} (hp : st.participant? sid pid = p)
    (h : ∀ t : SfuShard S, t.participant? sid pid = p → f t = g t)
    (hg : Answers (alone owner) sid g st) : Answers (alone owner) sid f st :=
  .read (r := fun t : SfuShard S => t.participant? sid pid) hp participant?_alone h hg

end Reading

/-! ### The parts of the state -/

/-- Writing a session is confined to it. -/
theorem confined_setSession (s : SfuSession S) :
    Confined (alone owner) sid (fun st => st.setSession sid s) st where
  own := congrArg (fun m => { st.alone owner sid with sessions := m }) (Dict.only_insert rfl s _)
  other k' hne := congrArg (fun m => { st.alone owner k' with sessions := m })
    (Dict.only_insert_of_ne (g := id) hne.symm s _)

/-- Taking a session away is confined to it. -/
theorem confined_eraseSession :
    Confined (alone owner) sid (fun st => { st with sessions := st.sessions.erase sid }) st where
  own := congrArg (fun m => { st.alone owner sid with sessions := m })
    (Dict.only_erase id sid sid st.sessions)
  other k' hne := congrArg (fun m => { st.alone owner k' with sessions := m })
    (Dict.only_erase_of_ne (g := id) hne.symm st.sessions)

/-- Changing a session in place is confined to it. -/
theorem confined_modifySession (f : SfuSession S → SfuSession S) :
    Confined (alone owner) sid
      (fun st => { st with sessions := st.sessions.modify sid f }) st where
  own := congrArg (fun m => { st.alone owner sid with sessions := m }) (Dict.only_modify rfl f _)
  other k' hne := congrArg (fun m => { st.alone owner k' with sessions := m })
    (Dict.only_modify_of_ne (g := id) hne.symm f _)

/-- Writing a participant is confined to its session. -/
theorem confined_setParticipant (p : SfuParticipant S) :
    Confined (alone owner) sid (fun st => st.setParticipant sid pid p) st :=
  confined_modifySession fun s => s.setParticipant pid p

/-- Marking a participant for negotiation is confined to its session. -/
theorem confined_insertNegotiation : Confined (alone owner) sid (fun st =>
    { st with pendingNegotiation := st.pendingNegotiation.insert (sid, pid) () }) st where
  own := congrArg (fun m => { st.alone owner sid with pendingNegotiation := m })
    (Dict.only_insert rfl () _)
  other k' hne := congrArg (fun m => { st.alone owner k' with pendingNegotiation := m })
    (Dict.only_insert_of_ne (g := Prod.fst) hne.symm () _)

/-- Taking the mark away is, too. -/
theorem confined_eraseNegotiation : Confined (alone owner) sid (fun st =>
    { st with pendingNegotiation := st.pendingNegotiation.erase (sid, pid) }) st where
  own := congrArg (fun m => { st.alone owner sid with pendingNegotiation := m })
    (Dict.only_erase Prod.fst sid (sid, pid) _)
  other k' hne := congrArg (fun m => { st.alone owner k' with pendingNegotiation := m })
    (Dict.only_erase_of_ne (g := Prod.fst) hne.symm _)

/-- Marking a participant for a flush is confined to its session. -/
theorem confined_insertFlush : Confined (alone owner) sid (fun st =>
    { st with pendingFlush := st.pendingFlush.insert (sid, pid) () }) st where
  own := congrArg (fun m => { st.alone owner sid with pendingFlush := m })
    (Dict.only_insert rfl () _)
  other k' hne := congrArg (fun m => { st.alone owner k' with pendingFlush := m })
    (Dict.only_insert_of_ne (g := Prod.fst) hne.symm () _)

/-- Taking that mark away is, too. -/
theorem confined_eraseFlush : Confined (alone owner) sid (fun st =>
    { st with pendingFlush := st.pendingFlush.erase (sid, pid) }) st where
  own := congrArg (fun m => { st.alone owner sid with pendingFlush := m })
    (Dict.only_erase Prod.fst sid (sid, pid) _)
  other k' hne := congrArg (fun m => { st.alone owner k' with pendingFlush := m })
    (Dict.only_erase_of_ne (g := Prod.fst) hne.symm _)

/-- Something happens to the outbox of a WebSocket. -/
theorem confined_outbox {tx : WsTx} (htx : owner tx = sid) (f : Outbox → Outbox) :
    Confined (alone owner) sid
      (fun st => { st with ws := Function.update st.ws tx (f (st.ws tx)) }) st where
  own := by
    refine congrArg (fun ws => { st.alone owner sid with ws := ws }) (funext fun tx' => ?_)
    dsimp only
    have hown : (st.alone owner sid).ws tx = st.ws tx := if_pos htx
    rw [hown]
    by_cases heq : tx' = tx
    · rw [heq, if_pos htx, Function.update_self, Function.update_self]
    · rw [Function.update_of_ne heq, Function.update_of_ne heq, alone]
  other k' hne := by
    refine congrArg (fun ws => { st.alone owner k' with ws := ws }) (funext fun tx' => ?_)
    dsimp only
    by_cases heq : tx' = tx
    · have hother : owner tx' ≠ k' := fun h => hne (h.symm.trans (heq ▸ htx))
      rw [if_neg hother, if_neg hother]
    · rw [Function.update_of_ne heq]

/-- A message to a socket of the session is confined to it. -/
theorem confined_wsTrySend {tx : WsTx} (htx : owner tx = sid) (msg : ServerMessage) :
    Confined (alone owner) sid (fun st => st.wsTrySend tx msg) st :=
  confined_outbox htx fun o => o.trySend msg

/-- Entries of the session are dropped from the routing tables. -/
theorem confined_retainMaps {keep : ShardTarget → Bool}
    (hkeep : ∀ t, t.sid ≠ sid → keep t = true) : Confined (alone owner) sid
      (fun st => { st with sharedMaps := st.sharedMaps.retain keep }) st where
  own := congrArg (fun m => { st.alone owner sid with sharedMaps := m })
    (SharedMaps.retain_comm keep _ st.sharedMaps)
  other k' hne := by
    have himp (t : ShardTarget) (ht : decide (t.sid = k') = true) : keep t = true :=
      hkeep t fun h => hne ((of_decide_eq_true ht).symm.trans h)
    exact congrArg (fun m => { st.alone owner k' with sharedMaps := m })
      (SharedMaps.retain_of_imp himp st.sharedMaps)

/-- Whether the ufrag is not another session's. -/
def Free (st : SfuShard S) (sid : SessionId) (ufrag : String) : Prop :=
  ∀ t, st.sharedMaps.ufragToTarget.lookup ufrag = some t → t.sid = sid

/-- A participant of the session is registered. -/
def registered (st : SfuShard S) (sid : SessionId) (pid : ParticipantId) (ufrag : String) :
    SfuShard S :=
  { st with
    sharedMaps := { st.sharedMaps with
      ufragToTarget := st.sharedMaps.ufragToTarget.insert ufrag ⟨st.shardIndex, sid, pid⟩ } }

/-- The registration of a ufrag that nobody else has is confined to the session. -/
theorem confined_registered {ufrag : String} (hfree : st.Free sid ufrag) :
    Confined (alone owner) sid (fun st => st.registered sid pid ufrag) st where
  own := by
    refine congrArg (fun m => { st.alone owner sid with
      sharedMaps := ⟨(st.alone owner sid).sharedMaps.addrToTarget, m⟩ }) ?_
    exact Dict.retain_insert_of_true (p := fun _ (t : ShardTarget) => decide (t.sid = sid))
      (decide_eq_true rfl) _
  other k' hne := by
    refine congrArg (fun m => { st.alone owner k' with
      sharedMaps := ⟨(st.alone owner k').sharedMaps.addrToTarget, m⟩ }) ?_
    refine Dict.retain_insert_of_false (p := fun _ (t : ShardTarget) => decide (t.sid = k'))
      (decide_eq_false hne.symm) fun t ht => ?_
    exact decide_eq_false fun h => hne (h.symm.trans (hfree t ht))

/-! ### Whose a WebSocket is -/

/-- **Nobody is served on the WebSocket of another session.** -/
def Served (owner : WsTx → SessionId) (st : SfuShard S) : Prop :=
  ∀ sid pid p, st.participant? sid pid = some p → owner p.wsTx = sid

/-- The effects that keep it: those who are admitted come on a WebSocket of their session. -/
def Serving (owner : WsTx → SessionId) : Effect → Prop
  | .admitted sid _ tx => owner tx = sid
  | _ => True

/-- What the effects of a session write is its own. -/
theorem Served.move {e : Effect} {st' : SfuShard S} (h : st.Served owner) (he : Serving owner e)
    (hm : Move e st st') : st'.Served owner := by
  intro sid pid p' hp'
  by_cases hl : e = .left sid pid
  · subst hl
    cases hm with
    | left =>
      rw [participant?_leaveMove, if_pos rfl, if_pos rfl] at hp'
      cases hp'
  by_cases ha : ∃ tx, e = .admitted sid pid tx
  · obtain ⟨tx, rfl⟩ := ha
    cases hm with
    | admitted =>
      rw [participant?_addParticipant, if_pos ⟨rfl, rfl⟩] at hp'
      obtain rfl := Option.some.inj hp'
      exact he
  have hsame := hm.participant hl fun tx heq => ha ⟨tx, heq⟩
  rw [hp'] at hsame
  obtain ⟨p, hp, howner⟩ := hsame.some_right
  rw [howner.2]
  exact h sid pid p hp

/-- The same for any number of effects. -/
theorem Served.moves {E : Effect → Prop} {st' : SfuShard S} (h : st.Served owner)
    (hE : ∀ e, E e → Serving owner e) (hm : Moves E st st') : st'.Served owner :=
  hm.invariant (I := Served owner) (fun e _ _ he hmove hs => hs.move (hE e he) hmove) h

/-- A frame adds nothing to what is written. -/
theorem Served.frame {st' : SfuShard S} (h : st.Served owner) (hf : st.Frame st') :
    st'.Served owner := h.move (e := .framed) trivial (.framed hf)

/-! ### Publishing and client offers -/

/-- A write to a participant that is there, and a message to it. -/
theorem confined_setAndSend (h : st.Served owner) {p : SfuParticipant S}
    (hp : st.participant? sid pid = some p) (p' : SfuParticipant S) (msg : ServerMessage) :
    Confined (alone owner) sid
      (fun st => (st.setParticipant sid pid p').wsTrySend p.wsTx msg) st :=
  (confined_setParticipant p').comp (g := fun st => st.wsTrySend p.wsTx msg)
    (confined_wsTrySend (h sid pid p hp) msg)

/-- A track that is published touches nobody outside. -/
theorem answers_handlePublishTrack (source : Source) (kind : MediaKind) :
    Answers (alone owner) sid (fun st => st.handlePublishTrack sid pid source kind) st := by
  cases hp : st.participant? sid pid with
  | none =>
    apply answers_of_participant hp
    · intro t ht
      rw [handlePublishTrack, ht]
    · exact .pure .id none
  | some p =>
    apply answers_of_participant hp
    · intro t ht
      rw [handlePublishTrack, ht]
    · exact .pure (confined_setParticipant _) none

/-- An offer of a client touches nobody outside. -/
theorem answers_handleClientOffer (h : st.Served owner) (sdpOffer : String) :
    Answers (alone owner) sid (fun st => st.handleClientOffer sid pid sdpOffer) st := by
  cases hoffer : S.readOffer sdpOffer with
  | error e =>
    apply answers_of_participant (Eq.refl (st.participant? sid pid))
    · intro t _
      rw [handleClientOffer, hoffer]
    · exact .pure .id none
  | ok offer =>
  cases hp : st.participant? sid pid with
  | none =>
    apply answers_of_participant hp
    · intro t ht
      simp only [handleClientOffer, hoffer, ht]
      rfl
    · exact .pure .id none
  | some p =>
  by_cases hpending : p.pendingOffer.isSome = true
  · apply answers_of_participant hp
    · intro t ht
      simp only [handleClientOffer, hoffer, ht, if_pos hpending]
      rfl
    · exact .pure (confined_setParticipant _) none
  · cases haccept : S.acceptOffer (S.sdpApi p.rtc) offer with
    | mk rtc result =>
    cases result with
    | error e =>
      apply answers_of_participant hp
      · intro t ht
        simp only [handleClientOffer, hoffer, ht, if_neg hpending, haccept]
        rfl
      · exact .pure (confined_setParticipant _) none
    | ok answer =>
      apply answers_of_participant hp
      · intro t ht
        simp only [handleClientOffer, hoffer, ht, if_neg hpending, haccept]
        rfl
      · exact .pure (confined_setAndSend h hp _ _) _

/-- A candidate touches nobody outside. -/
theorem answers_handleIceCandidate (candidate : String) :
    Answers (alone owner) sid (fun st => st.handleIceCandidate sid pid candidate) st := by
  cases hp : st.participant? sid pid with
  | none =>
    apply answers_of_participant hp
    · intro t ht
      rw [handleIceCandidate, ht]
    · exact .pure .id none
  | some p =>
  cases hc : S.candidateOfSdp candidate with
  | error e =>
    apply answers_of_participant hp
    · intro t ht
      simp only [handleIceCandidate, ht, hc]
      rfl
    · exact .pure .id none
  | ok c =>
    apply answers_of_participant hp
    · intro t ht
      simp only [handleIceCandidate, ht, hc]
      rfl
    · exact .pure (confined_setParticipant _) _

/-- A datagram touches nobody outside the session that it is for. -/
theorem answers_handleUdpInput (now : Instant) (source : SocketAddr) (data : List UInt8) :
    Answers (alone owner) sid (fun st => st.handleUdpInput now sid pid source data) st := by
  -- the handler reads the address of the shard, too
  have hread {x : Option (SfuParticipant S)} (hp : st.participant? sid pid = x)
      {f g : SfuShard S → SfuShard S × Option PollTarget}
      (h : ∀ t : SfuShard S, (t.participant? sid pid, t.candidateAddrs) = (x, st.candidateAddrs) →
        f t = g t) (hg : Answers (alone owner) sid g st) : Answers (alone owner) sid f st :=
    .read (r := fun t : SfuShard S => (t.participant? sid pid, t.candidateAddrs))
      (congrArg (·, st.candidateAddrs) hp) (congrArg (·, st.candidateAddrs) participant?_alone) h hg
  cases hp : st.participant? sid pid with
  | none =>
    apply hread hp
    · intro t ht
      obtain ⟨ht, -⟩ := Prod.mk.inj ht
      rw [handleUdpInput, ht]
    · exact .pure .id none
  | some p =>
  cases hd : S.datagram data with
  | none =>
    apply hread hp
    · intro t ht
      obtain ⟨ht, -⟩ := Prod.mk.inj ht
      simp only [handleUdpInput, ht, hd]
      rfl
    · exact .pure .id none
  | some contents =>
  by_cases haccepts : (!S.accepts p.rtc now source st.primaryCandidateAddr contents) = true
  · apply hread hp
    · intro t ht
      obtain ⟨ht, haddrs⟩ := Prod.mk.inj ht
      rewrite [primaryCandidateAddr, ← haddrs, ← primaryCandidateAddr] at haccepts
      simp only [handleUdpInput, ht, hd, if_pos haccepts]
      rfl
    · exact .pure .id none
  · cases hrtc : S.handleReceive p.rtc now source st.primaryCandidateAddr contents with
    | mk rtc result =>
    cases result with
    | error e =>
      apply hread hp
      · intro t ht
        obtain ⟨ht, haddrs⟩ := Prod.mk.inj ht
        rewrite [primaryCandidateAddr, ← haddrs, ← primaryCandidateAddr] at haccepts hrtc
        simp only [handleUdpInput, ht, hd, if_neg haccepts, hrtc]
        rfl
      · exact .pure (confined_setParticipant _) none
    | ok _ =>
      apply hread hp
      · intro t ht
        obtain ⟨ht, haddrs⟩ := Prod.mk.inj ht
        rewrite [primaryCandidateAddr, ← haddrs, ← primaryCandidateAddr] at haccepts hrtc
        simp only [handleUdpInput, ht, hd, if_neg haccepts, hrtc]
        rfl
      · exact .pure (confined_setParticipant _) _

/-! ### Leaving -/

/-- Lines are made inactive, and their owners told, inside the session. -/
theorem confined_deactivate (h : st.Served owner) (entry : ParticipantId × List Mid) :
    Confined (alone owner) sid (fun st => deactivate sid st entry) st := by
  cases hp : st.participant? sid entry.1 with
  | none =>
    apply confined_of_participant hp
    · intro t ht
      rw [deactivate, ht]
    · exact .id
  | some p =>
  by_cases hpending : p.pendingOffer.isSome = true
  · apply confined_of_participant hp
    · intro t ht
      simp only [deactivate, ht, if_pos hpending]
      rfl
    · exact .id
  by_cases hchanges : (!S.hasChanges (entry.2.foldl
      (fun c mid => S.setDirection c mid .inactive) (S.sdpApi p.rtc))) = true
  · apply confined_of_participant hp
    · intro t ht
      simp only [deactivate, ht, if_neg hpending, if_pos hchanges]
      rfl
    · exact confined_setParticipant _
  cases happly : S.apply (entry.2.foldl
      (fun c mid => S.setDirection c mid .inactive) (S.sdpApi p.rtc)) with
  | mk rtc result =>
  rcases result with _ | ⟨offer, pending⟩
  · apply confined_of_participant hp
    · intro t ht
      simp only [deactivate, ht, if_neg hpending, if_neg hchanges, happly]
      rfl
    · exact confined_setParticipant _
  · apply confined_of_participant hp
    · intro t ht
      simp only [deactivate, ht, if_neg hpending, if_neg hchanges, happly]
      rfl
    · exact confined_setAndSend h hp _ _

/-- Lines that are made inactive leave the sockets as they are shared out. -/
theorem served_deactivate (h : st.Served owner) (entry : ParticipantId × List Mid) :
    (deactivate sid st entry).Served owner :=
  h.moves (E := Serving owner) (fun _ => id) (moves_deactivate trivial (fun _ _ => trivial) sid st
    entry)

/-- A leave leaves the sockets as they are shared out. -/
theorem served_handleLeave (h : st.Served owner) (sid : SessionId) (pid : ParticipantId) :
    (st.handleLeave sid pid).1.Served owner :=
  h.moves (E := Serving owner) (fun _ => id)
    (moves_handleLeave trivial (fun _ _ => trivial) (fun _ => trivial) trivial st)

/-- What `handle_leave` forgets about the participant. -/
def forget (st : SfuShard S) (sid : SessionId) (pid : ParticipantId) : SfuShard S :=
  { st with
    sharedMaps := st.sharedMaps.retain fun t => !(t.sid = sid && t.pid = pid)
    pendingNegotiation := st.pendingNegotiation.erase (sid, pid) }

/-- The end of `handle_leave`: a session with nobody in it is closed. -/
def closeIfEmpty (st : SfuShard S) (sid : SessionId) : SfuShard S × Option PollTarget :=
  match st.session? sid with
  | none => (st, none)
  | some s =>
    if s.participants.isEmpty then
      ({ st with
          sessions := st.sessions.erase sid
          sharedMaps := st.sharedMaps.retain fun t => t.sid ≠ sid }, none)
    else (st, some (.session sid))

/-- Forgetting the addresses and the ufrag of a participant is confined to its session. -/
theorem confined_forget : Confined (alone owner) sid (fun st => st.forget sid pid) st := by
  have hkeep (t : ShardTarget) (ht : t.sid ≠ sid) : (!(t.sid = sid && t.pid = pid)) = true := by
    simp [ht]
  exact (confined_retainMaps hkeep).comp (g := fun st : SfuShard S =>
    { st with pendingNegotiation := st.pendingNegotiation.erase (sid, pid) })
    confined_eraseNegotiation

/-- The end of an empty session is confined to it. -/
theorem answers_closeIfEmpty :
    Answers (alone owner) sid (fun st => st.closeIfEmpty sid) st := by
  cases hs : st.session? sid with
  | none =>
    apply answers_of_session hs
    · intro t ht
      rw [closeIfEmpty, ht]
    · exact .pure .id none
  | some s =>
  by_cases hempty : s.participants.isEmpty = true
  · apply answers_of_session hs
    · intro t ht
      simp only [closeIfEmpty, ht, if_pos hempty]
      rfl
    · have hkeep (t : ShardTarget) (ht : t.sid ≠ sid) : decide (t.sid ≠ sid) = true :=
        decide_eq_true ht
      exact .pure (confined_eraseSession.comp (g := fun st : SfuShard S =>
        { st with sharedMaps := st.sharedMaps.retain fun t => t.sid ≠ sid })
        (confined_retainMaps hkeep)) none
  · apply answers_of_session hs
    · intro t ht
      simp only [closeIfEmpty, ht, if_neg hempty]
      rfl
    · exact .pure .id _

/-- A leave, step by step. -/
theorem handleLeave_eq {s : SfuSession S} (hs : st.session? sid = some s) :
    st.handleLeave sid pid =
      ((midsToDeactivate { s with participants := s.participants.erase pid } pid).foldl
        (deactivate sid) ((st.forget sid pid).setSession sid (dropParticipant s pid))).closeIfEmpty
          sid := by
  have hs' : (st.forget sid pid).session? sid = some s := hs
  rw [forget] at hs'
  rw [handleLeave]
  simp only [hs']
  rfl

/-- **A leave** touches nobody outside the session. -/
theorem answers_handleLeave (h : st.Served owner) :
    Answers (alone owner) sid (fun st => st.handleLeave sid pid) st := by
  cases hs : st.session? sid with
  | none =>
    apply answers_of_session hs
    · intro t ht
      have ht' : (t.forget sid pid).session? sid = none := ht
      rewrite [forget] at ht'
      simp only [handleLeave, ht']
      rfl
    · exact .pure confined_forget none
  | some s =>
    apply answers_of_session hs fun t ht => handleLeave_eq ht
    -- the state in which the others are gone through
    have hstart : ((st.forget sid pid).setSession sid (dropParticipant s pid)).Served owner :=
      (h.move (e := .left sid pid) trivial (.left st sid pid)).frame (frame_leaveStart hs pid)
    have hset : Confined (alone owner) sid
        (fun st => (st.forget sid pid).setSession sid (dropParticipant s pid)) st :=
      confined_forget.comp (g := fun st => st.setSession sid (dropParticipant s pid))
        (confined_setSession _)
    have hloop := Confined.foldl (alone owner) (k := sid) (f := deactivate sid)
      (I := Served owner)
      (l := midsToDeactivate { s with participants := s.participants.erase pid } pid)
      (fun st hst entry _ => ⟨confined_deactivate hst entry, served_deactivate hst entry⟩) hstart
    exact Answers.after (f := fun st => st.closeIfEmpty sid)
      (hset.comp (g := fun st => List.foldl (deactivate sid) st _) hloop) answers_closeIfEmpty

/-! ### Joining -/

/-- The leave that a join makes for an earlier one of the same id is confined. -/
theorem confined_kickPrior (h : st.Served owner) :
    Confined (alone owner) sid (fun st => st.kickPrior sid pid) st := by
  cases hp : st.participant? sid pid with
  | none =>
    apply confined_of_participant hp
    · intro t ht
      rw [kickPrior, ht]
    · exact .id
  | some p =>
    apply confined_of_participant hp
    · intro t ht
      rw [kickPrior, ht]
    · have hsend : Confined (alone owner) sid
          (fun st => st.wsTrySend p.wsTx (.forceDisconnected "joined_elsewhere")) st :=
        confined_wsTrySend (h sid pid p hp) _
      exact hsend.comp (g := fun st => (st.handleLeave sid pid).1)
        (answers_handleLeave (h.frame (.wsTrySend _ _ _))).confined

/-- A ufrag that nobody has is not had after it, either. -/
theorem Free.kickPrior {ufrag : String} (h : st.Free sid ufrag) :
    (st.kickPrior sid pid).Free sid ufrag := by
  intro t ht
  rw [(clears_kickPrior st sid pid).sharedMaps, SharedMaps.settle_sweeps,
    SharedMaps.lookup_sweeps, Option.filter_eq_some_iff] at ht
  exact h t ht.1

/-- A participant is added to its session only. -/
theorem confined_addParticipant {userId : String} {replyTx : WsTx} {rtc : S.Rtc}
    {answer : S.SdpAnswer} {creds : IceCreds} {now : Instant} (htx : owner replyTx = sid)
    (hfree : st.Free sid creds.ufrag) : Confined (alone owner) sid
      (fun st => st.addParticipant sid pid userId replyTx rtc answer creds now) st := by
  have hset : Confined (alone owner) sid (fun st' => st'.setSession sid
      (((st.session? sid).getD (.new sid)).setParticipant pid (newParticipant pid userId rtc replyTx
        now (existingTracks ((st.session? sid).getD (.new sid)))))) st :=
    confined_setSession _
  have hsend := hset.comp
    (g := fun st => st.wsTrySend replyTx (.answer (S.answerText answer) pid))
    (confined_wsTrySend htx _)
  by_cases hexisting : (existingTracks ((st.session? sid).getD (.new sid))).isEmpty = true
  · apply confined_of_session rfl
    · intro t ht
      simp only [addParticipant, ht, if_pos hexisting]
      rfl
    · refine hsend.comp (g := fun st => st.registered sid pid creds.ufrag)
        (confined_registered ?_)
      exact hfree
  · apply confined_of_session rfl
    · intro t ht
      simp only [addParticipant, ht, if_neg hexisting]
      rfl
    · refine (hsend.comp (g := fun st : SfuShard S =>
        { st with pendingNegotiation := st.pendingNegotiation.insert (sid, pid) () })
        confined_insertNegotiation).comp (g := fun st => st.registered sid pid creds.ufrag)
        (confined_registered ?_)
      exact hfree

/-- The part of `handle_join` after a replaced tab is gone. -/
def letIn (st : SfuShard S) (creds : IceCreds) (now : Instant) (sid : SessionId)
    (pid : ParticipantId) (userId sdpOffer : String) (replyTx : WsTx) :
    SfuShard S × Option PollTarget :=
  match S.readOffer sdpOffer with
  | .error e => (st.wsTrySend replyTx (.error ("invalid SDP offer: " ++ e)), none)
  | .ok offer =>
    match S.acceptOffer (S.sdpApi (st.buildRtc creds now)) offer with
    | (_, .error e) => (st.wsTrySend replyTx (.error ("SDP negotiation failed: " ++ e)), none)
    | (rtc, .ok answer) =>
      (st.addParticipant sid pid userId replyTx rtc answer creds now, some (.one sid pid))

section Joining

variable {userId sdpOffer : String} {replyTx : WsTx} {creds : IceCreds} {now : Instant}

/-- A join whose answer has been made touches nobody outside. -/
theorem answers_letIn (htx : owner replyTx = sid) (hfree : st.Free sid creds.ufrag) :
    Answers (alone owner) sid
      (fun st => st.letIn creds now sid pid userId sdpOffer replyTx) st := by
  cases hoffer : S.readOffer sdpOffer with
  | error e =>
    apply answers_of_session rfl
    · intro t _
      simp only [letIn, hoffer]
      rfl
    · exact .pure (confined_wsTrySend htx _) none
  | ok offer =>
  cases haccept : S.acceptOffer (S.sdpApi (st.buildRtc creds now)) offer with
  | mk rtc result =>
  have hread {f g : SfuShard S → SfuShard S × Option PollTarget}
      (h : ∀ t : SfuShard S, t.buildRtc creds now = st.buildRtc creds now → f t = g t)
      (hg : Answers (alone owner) sid g st) : Answers (alone owner) sid f st :=
    .read (r := fun t : SfuShard S => t.buildRtc creds now) rfl rfl h hg
  cases result with
  | error e =>
    apply hread
    · intro t ht
      simp only [letIn, hoffer, ht, haccept]
      rfl
    · exact .pure (confined_wsTrySend htx _) none
  | ok answer =>
    apply hread
    · intro t ht
      simp only [letIn, hoffer, ht, haccept]
      rfl
    · exact .pure (confined_addParticipant htx hfree) _

/-- **A join** touches nobody outside the session. -/
theorem answers_handleJoin (h : st.Served owner) (htx : owner replyTx = sid)
    (hfree : st.Free sid creds.ufrag) : Answers (alone owner) sid
      (fun st => st.handleJoin creds now sid pid userId sdpOffer replyTx) st :=
  Answers.after (f := fun st => st.letIn creds now sid pid userId sdpOffer replyTx)
    (confined_kickPrior h) (answers_letIn htx hfree.kickPrior)

end Joining

/-! ### Answers -/

/-- An offer that has been queued is taken up inside the session. -/
theorem confined_drainQueuedOffer (h : st.Served owner) :
    Confined (alone owner) sid (fun st => st.drainQueuedOffer sid pid) st := by
  cases hp : st.participant? sid pid with
  | none =>
    apply confined_of_participant hp
    · intro t ht
      rw [drainQueuedOffer, ht]
    · exact .id
  | some p =>
  cases hqueued : p.queuedClientOffer with
  | none =>
    apply confined_of_participant hp
    · intro t ht
      simp only [drainQueuedOffer, ht, hqueued]
      rfl
    · exact .id
  | some sdp =>
    apply confined_of_participant hp
    · intro t ht
      simp only [drainQueuedOffer, ht, hqueued]
      rfl
    · have hset : st.Frame (st.setParticipant sid pid { p with queuedClientOffer := none }) :=
        .setParticipant hp ⟨rfl, rfl, rfl, rfl, rfl, .refl⟩
      exact (confined_setParticipant _).comp
        (g := fun st => (st.handleClientOffer sid pid sdp).1)
        (answers_handleClientOffer (h.frame hset) sdp).confined

/-- What an answer does before a queued offer is looked at. -/
def accept (st : SfuShard S) (now : Instant) (sid : SessionId) (pid : ParticipantId)
    (s : SfuSession S) (p : SfuParticipant S) (answer : S.SdpAnswer) : SfuShard S :=
  match p.pendingOffer with
  | none => st
  | some pending =>
    match S.acceptAnswer (S.sdpApi p.rtc) pending answer with
    | (rtc, .error _) => st.setParticipant sid pid { p with rtc := rtc, pendingOffer := none }
    | (rtc, .ok ()) => st.setSession sid (openTracks s now pid p rtc)

/-- An answer that is accepted changes its session only. -/
theorem confined_accept {now : Instant} {s : SfuSession S} {p : SfuParticipant S}
    {answer : S.SdpAnswer} :
    Confined (alone owner) sid (fun st => st.accept now sid pid s p answer) st := by
  cases hpending : p.pendingOffer with
  | none =>
    simp only [accept, hpending]
    exact .id
  | some pending =>
  cases haccept : S.acceptAnswer (S.sdpApi p.rtc) pending answer with
  | mk rtc result =>
  cases result with
  | error e =>
    simp only [accept, hpending, haccept]
    exact confined_setParticipant _
  | ok _ =>
    simp only [accept, hpending, haccept]
    exact confined_setSession _

/-- And the sockets stay shared out as they are. -/
theorem served_accept (h : st.Served owner) {now : Instant} {s : SfuSession S}
    {p : SfuParticipant S} {answer : S.SdpAnswer} (hs : st.session? sid = some s)
    (hp : s.participants.lookup pid = some p) :
    (st.accept now sid pid s p answer).Served owner := by
  have hpart : st.participant? sid pid = some p := participant?_eq_some.mpr ⟨s, hs, hp⟩
  rw [accept]
  split
  · exact h
  · rename_i pending hpending
    split
    · rename_i rtc e heq
      exact h.move (e := .refused sid pid (hasNegotiating p)) trivial (.refused hpart hpending heq)
    · rename_i rtc _ heq
      have hopened := h.move (e := .opened sid pid) trivial (.opened hs hp hpending heq)
      exact hopened.frame (.setSession_setSession st sid
        (SfuSession.Frame.foldl_requestKeyframe now _ _))

/-- **An answer** touches nobody outside the session. -/
theorem answers_handleAnswer (h : st.Served owner) (now : Instant) (sdpAnswer : String) :
    Answers (alone owner) sid (fun st => st.handleAnswer now sid pid sdpAnswer) st := by
  cases hs : st.session? sid with
  | none =>
    apply answers_of_session hs
    · intro t ht
      rw [handleAnswer, ht]
    · exact .pure .id none
  | some s =>
  cases hp : s.participants.lookup pid with
  | none =>
    apply answers_of_session hs
    · intro t ht
      simp only [handleAnswer, ht, hp]
      rfl
    · exact .pure .id none
  | some p =>
  cases hanswer : S.readAnswer sdpAnswer with
  | error e =>
    apply answers_of_session hs
    · intro t ht
      simp only [handleAnswer, ht, hp, hanswer]
      rfl
    · exact .pure .id none
  | ok answer =>
    have heq (t : SfuShard S) (ht : t.session? sid = some s) :
        t.handleAnswer now sid pid sdpAnswer =
          ((t.accept now sid pid s p answer).drainQueuedOffer sid pid, some (.session sid)) := by
      simp only [handleAnswer, ht, hp, hanswer]
      rfl
    refine answers_of_session hs heq (.pure ?_ _)
    exact confined_accept.comp (g := fun st => st.drainQueuedOffer sid pid)
      (confined_drainQueuedOffer (served_accept h hs hp))

/-! ### Polling -/

section Polling

variable {now : Instant} {mid : Mid} {kind : MediaKind} {pkt : RtpPacket}

/-- A packet is forwarded to one target inside the session. -/
theorem confined_forwardTo (pp : S.PayloadParams) (target : TrackKey) :
    Confined (alone owner) sid (fun st => forwardTo sid pkt kind pp st target) st := by
  cases hp : st.participant? sid target.1 with
  | none =>
    apply confined_of_participant hp
    · intro t ht
      rw [forwardTo, ht]
    · exact .id
  | some p =>
  cases hmatch : S.matchParams p.rtc pp with
  | none =>
    apply confined_of_participant hp
    · intro t ht
      simp only [forwardTo, ht, hmatch]
      rfl
    · exact .id
  | some egress =>
  cases hfind : p.tracksOut.find? fun t => t.openMid = some target.2 with
  | none =>
    apply confined_of_participant hp
    · intro t ht
      simp only [forwardTo, ht, hmatch, hfind]
      rfl
    · exact .id
  | some track =>
  cases hwrite : S.writeRtp (advanceSeq p target.2 pkt).rtc target.2
      (pkt.egress kind (S.pt egress) (track.rewriteSeq pkt.ssrc pkt.seqNo).2) with
  | none =>
    apply confined_of_participant hp
    · intro t ht
      simp only [forwardTo, ht, hmatch, hfind, hwrite]
      rfl
    · exact confined_setParticipant _
  | some rtc =>
    apply confined_of_participant hp
    · intro t ht
      simp only [forwardTo, ht, hmatch, hfind, hwrite]
      rfl
    · exact (confined_setParticipant _).comp (g := fun st : SfuShard S =>
        { st with pendingFlush := st.pendingFlush.insert (sid, target.1) () }) confined_insertFlush

/-- A packet is forwarded to all targets inside the session. -/
theorem confined_forwardToAll {key : TrackKey} {forward : SfuShard S → TrackKey → SfuShard S}
    (hforward : ∀ st target, Confined (alone owner) sid (fun st => forward st target) st) :
    Confined (alone owner) sid (fun st => st.forwardToAll sid key forward) st := by
  have hset (st : SfuShard S) (targets : List TrackKey) :
      Confined (alone owner) sid (fun st => st.setTargets sid key targets) st :=
    confined_modifySession _
  cases hs : (st.session? sid).bind fun s => s.forwardingMap.lookup key with
  | none =>
    apply confined_of_session rfl
    · intro t ht
      rewrite [← ht] at hs
      rw [forwardToAll, hs]
    · exact .id
  | some targets =>
  cases targets with
  | nil =>
    apply confined_of_session rfl
    · intro t ht
      rewrite [← ht] at hs
      rw [forwardToAll, hs]
    · exact confined_modifySession _
  | cons target targets =>
    apply confined_of_session rfl
    · intro t ht
      rewrite [← ht] at hs
      rw [forwardToAll, hs]
    · have hloop := Confined.foldl (alone owner) (k := sid) (f := forward)
        (I := fun _ => True) (l := target :: targets)
        (fun st _ target _ => ⟨hforward st target, trivial⟩) (s := st.setTargets sid key []) trivial
      exact ((hset st []).comp (g := fun st => (target :: targets).foldl forward st) hloop).comp
        (g := fun st => st.setTargets sid key (target :: targets)) (hset _ _)

/-- **A packet** touches nobody outside the session in which it comes. -/
theorem confined_forwardRtp :
    Confined (alone owner) sid (fun st => st.forwardRtp sid pid mid pkt) st := by
  cases hs : st.session? sid with
  | none =>
    apply confined_of_session hs
    · intro t ht
      rw [forwardRtp, ht]
    · exact .id
  | some s =>
  cases hp : s.participants.lookup pid with
  | none =>
    apply confined_of_session hs
    · intro t ht
      simp only [forwardRtp, ht, hp]
      rfl
    · exact .id
  | some p =>
  cases hfind : p.tracksIn.find? fun t => t.mid = mid with
  | none =>
    apply confined_of_session hs
    · intro t ht
      simp only [forwardRtp, ht, hp, hfind]
      rfl
    · exact .id
  | some track =>
  cases hpayload : S.findPayload p.rtc pkt.payloadType with
  | none =>
    apply confined_of_session hs
    · intro t ht
      simp only [forwardRtp, ht, hp, hfind, hpayload]
      rfl
    · exact confined_setParticipant _
  | some pp =>
  by_cases hquiet : S.isRtx pp = true ∨
      (track.kind = .audio ∧ (s.topAudioPublishers.lookup (pid, mid)).isNone = true)
  · have hset : Confined (alone owner) sid
        (fun st => st.setParticipant sid pid (hearPacket p mid pkt)) st := confined_setParticipant _
    refine confined_of_session hs (fun t ht => ?_) hset
    simp only [forwardRtp, ht, hp, hfind, hpayload]
    rcases hquiet with hrtx | haudio
    · rw [if_pos hrtx]
    · rw [if_pos haudio, ite_self]
  · obtain ⟨hrtx, haudio⟩ := not_or.mp hquiet
    apply confined_of_session hs
    · intro t ht
      simp only [forwardRtp, ht, hp, hfind, hpayload, if_neg hrtx, if_neg haudio]
      rfl
    · exact (confined_setParticipant _).comp
        (g := fun st => st.forwardToAll sid (pid, mid) (forwardTo sid pkt track.kind pp))
        (confined_forwardToAll fun _ _ => confined_forwardTo pp _)

/-- A track that comes is entered in its session. -/
theorem confined_recordTrack (s : SfuSession S) (source : Source) :
    Confined (alone owner) sid (fun st => st.recordTrack sid s pid mid kind source) st := by
  have hinsert (st : SfuShard S) (q : ParticipantId) : Confined (alone owner) sid
      (fun st => { st with pendingNegotiation := st.pendingNegotiation.insert (sid, q) () }) st :=
    confined_insertNegotiation
  have hloop := Confined.foldl (alone owner) (k := sid) (I := fun _ => True)
    (l := newlyQueued s pid mid) (fun st _ q _ => ⟨hinsert st q, trivial⟩)
    (s := st.setSession sid (addTrack s pid mid kind source)) trivial
  have heq (l : List ParticipantId) (t : SfuShard S) :
      l.foldl (fun (t : SfuShard S) q =>
        { t with pendingNegotiation := t.pendingNegotiation.insert (sid, q) () }) t =
      { t with pendingNegotiation :=
          (l.foldl (fun set q => set.insert (sid, q) ()) t.pendingNegotiation) } := by
    induction l generalizing t with
    | nil => rfl
    | cons q l ih => exact ih _
  refine ((confined_setSession _).comp (g := fun t => (newlyQueued s pid mid).foldl
    (fun (t : SfuShard S) q =>
      { t with pendingNegotiation := t.pendingNegotiation.insert (sid, q) () }) t) hloop).congr
    ?_ ?_
  · rw [heq]
    rfl
  · rw [heq]
    rfl

/-- Media that comes changes its session only. -/
theorem confined_mediaAdded :
    Confined (alone owner) sid (fun st => st.mediaAdded sid pid mid kind) st := by
  cases hs : st.session? sid with
  | none =>
    apply confined_of_session hs
    · intro t ht
      rw [mediaAdded, ht]
    · exact .id
  | some s =>
    apply confined_of_session hs
    · intro t ht
      rw [mediaAdded, ht]
    · exact confined_recordTrack _ _

/-- What the event handler does to the participant alone. -/
theorem confined_handleEvent (e : Event) :
    Confined (alone owner) sid (fun st => st.handleEvent now sid pid e) st := by
  cases e with
  | iceConnectionStateChange state =>
    cases hp : st.participant? sid pid with
    | none =>
      apply confined_of_participant hp
      · intro t ht
        rw [handleEvent, ht]
      · exact .id
    | some p =>
      apply confined_of_participant hp
      · intro t ht
        rw [handleEvent, ht]
      · exact confined_setParticipant _
  | mediaAdded mid kind => exact confined_mediaAdded
  | rtpPacket pkt =>
    cases hstream : (st.participant? sid pid).bind fun p => S.streamRx p.rtc pkt.ssrc with
    | none =>
      apply confined_of_participant (Eq.refl (st.participant? sid pid))
      · intro t ht
        rewrite [← ht] at hstream
        rw [handleEvent, hstream]
      · exact .id
    | some found =>
      apply confined_of_participant (Eq.refl (st.participant? sid pid))
      · intro t ht
        rewrite [← ht] at hstream
        rw [handleEvent, hstream]
      · dsimp only
        split
        · exact confined_forwardRtp
        · exact .id
  | egressBitrateEstimate kind =>
    cases hp : st.participant? sid pid with
    | none =>
      refine confined_of_participant hp (fun t ht => ?_) .id
      cases kind <;> simp only [handleEvent, ht]
    | some p =>
      cases kind with
      | other => exact .id
      | _ =>
        apply confined_of_participant hp
        · intro t ht
          simp only [handleEvent, ht]
          rfl
        · exact confined_setParticipant _
  | keyframeRequest mid =>
    cases hs : st.session? sid with
    | none =>
      apply confined_of_session hs
      · intro t ht
        rw [handleEvent, ht]
      · exact .id
    | some s =>
      apply confined_of_session hs
      · intro t ht
        rw [handleEvent, ht]
      · dsimp only
        split
        · exact .id
        · exact confined_setSession _
  | other => exact .id

/-- **A poll of a participant** is confined to its session, by induction over its turns. -/
theorem confined_pollParticipant (fuel : ℕ) :
    Confined (alone owner) sid (fun st => pollParticipant now sid pid fuel st) st := by
  induction fuel generalizing st with
  | zero => exact .id
  | succ fuel ih =>
  cases hp : st.participant? sid pid with
  | none =>
    apply confined_of_participant hp
    · intro t ht
      rw [pollParticipant, ht]
    · exact .id
  | some p =>
  by_cases hdead : (!S.isAlive p.rtc) = true
  · apply confined_of_participant hp
    · intro t ht
      simp only [pollParticipant, ht, if_pos hdead]
      rfl
    · exact .id
  cases hpoll : S.pollOutput p.rtc with
  | mk rtc result =>
  cases result with
  | error e =>
    apply confined_of_participant hp
    · intro t ht
      simp only [pollParticipant, ht, if_neg hdead, hpoll]
      rfl
    · exact confined_setParticipant _
  | ok o =>
  cases o with
  | timeout t =>
    apply confined_of_participant hp
    · intro t ht
      simp only [pollParticipant, ht, if_neg hdead, hpoll]
      rfl
    · exact confined_setParticipant _
  | transmit destination contents =>
    apply confined_of_participant hp
    · intro t ht
      simp only [pollParticipant, ht, if_neg hdead, hpoll]
      rfl
    · exact (confined_setParticipant _).comp
        (g := fun st => pollParticipant now sid pid fuel st) ih
  | event e =>
    apply confined_of_participant hp
    · intro t ht
      simp only [pollParticipant, ht, if_neg hdead, hpoll]
      rfl
    · exact ((confined_setParticipant _).comp (g := fun st => st.handleEvent now sid pid e)
        (confined_handleEvent e)).comp (g := fun st => pollParticipant now sid pid fuel st) ih

/-- A poll of a session is confined to it. -/
theorem confined_pollSession (fuel : ℕ) :
    Confined (alone owner) sid (fun st => pollSession now fuel st sid) st := by
  cases hs : st.session? sid with
  | none =>
    apply confined_of_session hs
    · intro t ht
      rw [pollSession, ht]
    · exact .id
  | some s =>
    apply confined_of_session hs
    · intro t ht
      rw [pollSession, ht]
    · exact Confined.foldl (alone owner) (I := fun _ => True)
        (fun st _ pid _ => ⟨confined_pollParticipant fuel, trivial⟩) trivial

end Polling

/-! ### Commands -/

/-- A poll of a target is confined to the session of the target. -/
theorem confined_pollTarget {now : Instant} {fuel : ℕ} {target : Option PollTarget}
    (h : ∀ t, target = some t → t.sid = sid) :
    Confined (alone owner) sid (fun st => pollTarget now fuel st target) st := by
  rcases target with _ | ⟨sid', pid⟩ | sid'
  · exact .id
  · obtain rfl : sid' = sid := h _ rfl
    exact confined_pollParticipant fuel
  · obtain rfl : sid' = sid := h _ rfl
    exact confined_pollSession fuel

/-- What a command touches is of its session. -/
theorem sid_of_handleCommand {cmd : SfuCommand} {creds : IceCreds} {now : Instant}
    {t : PollTarget} (h : (st.handleCommand creds now cmd).2 = some t) : t.sid = cmd.sid := by
  cases cmd with
  | join sid pid userId sdpOffer replyTx =>
    rw [handleCommand, handleJoin] at h
    split at h
    · cases h
    · split at h
      · cases h
      · obtain rfl := Option.some.inj h
        rfl
  | answer sid pid sdpAnswer =>
    rw [handleCommand, handleAnswer] at h
    split at h
    · cases h
    · split at h
      · cases h
      · split at h
        · cases h
        · obtain rfl := Option.some.inj h
          rfl
  | iceCandidate sid pid candidate sdpMid =>
    rw [handleCommand, handleIceCandidate] at h
    split at h
    · cases h
    · split at h
      · cases h
      · obtain rfl := Option.some.inj h
        rfl
  | leave sid pid =>
    rw [handleCommand, handleLeave] at h
    dsimp only at h
    split at h
    · cases h
    · split at h
      · cases h
      · split at h
        · cases h
        · obtain rfl := Option.some.inj h
          rfl
  | publishTrack sid pid source kind =>
    rw [handleCommand, handlePublishTrack] at h
    split at h <;> cases h
  | clientOffer sid pid sdpOffer =>
    rw [handleCommand, handleClientOffer] at h
    split at h
    · cases h
    · split at h
      · cases h
      · split at h
        · cases h
        · split at h
          · cases h
          · obtain rfl := Option.some.inj h
            rfl
  | udpInput sid pid source data =>
    rw [handleCommand, handleUdpInput] at h
    split at h
    · cases h
    · split at h
      · cases h
      · split at h
        · cases h
        · split at h
          · cases h
          · obtain rfl := Option.some.inj h
            rfl

/-- **What keeps sessions apart**, of what comes from outside: the WebSocket of a join is for its
session, and the credentials of its transport are not another session's. -/
def Apart (owner : WsTx → SessionId) (st : SfuShard S) : Input → Prop
  | .command (.join sid _ _ _ tx) creds _ _ => owner tx = sid ∧ st.Free sid creds.ufrag
  | _ => True

/-- **A command** touches nobody outside its session. -/
theorem answers_handleCommand (h : st.Served owner) {cmd : SfuCommand} {creds : IceCreds}
    {now : Instant} {fuel : ℕ} (hapart : Apart owner st (.command cmd creds now fuel)) :
    Answers (alone owner) cmd.sid (fun st => st.handleCommand creds now cmd) st := by
  cases cmd with
  | join sid pid userId sdpOffer replyTx => exact answers_handleJoin h hapart.1 hapart.2
  | answer sid pid sdpAnswer => exact answers_handleAnswer h now sdpAnswer
  | iceCandidate sid pid candidate sdpMid => exact answers_handleIceCandidate candidate
  | leave sid pid => exact answers_handleLeave h
  | publishTrack sid pid source kind => exact answers_handlePublishTrack source kind
  | clientOffer sid pid sdpOffer => exact answers_handleClientOffer h sdpOffer
  | udpInput sid pid source data => exact answers_handleUdpInput now source data

/-- **A command acts on its session, and on no other.** -/
theorem confined_command (h : st.Served owner) {cmd : SfuCommand} {creds : IceCreds}
    {now : Instant} {fuel : ℕ} (hapart : Apart owner st (.command cmd creds now fuel)) :
    Confined (alone owner) cmd.sid (fun st => st.next (.command cmd creds now fuel)) st :=
  (answers_handleCommand h hapart).bind (e := fun target st => pollTarget now fuel st target)
    (confined_pollTarget fun _ ht => sid_of_handleCommand ht)

/-! ### Ticks, offers and flushes -/

/-- Timeouts are handled in each session by itself. -/
theorem alone_timeouts (now : Instant) :
    (st.timeouts now).alone owner sid = (st.alone owner sid).timeouts now :=
  congrArg (fun m => { st.alone owner sid with sessions := m }) (Dict.only_mapVals _ st.sessions)

/-- The zombies of a session do not depend on the others. -/
theorem zombies_alone (now : Instant) :
    (st.alone owner sid).zombies now = (st.zombies now).filter fun e => e.1 = sid := by
  have hpairs : (st.alone owner sid).sessions.pairs =
      st.sessions.pairs.filter fun e => e.1 = sid := Dict.pairs_only st.sessions
  rw [zombies, zombies, hpairs]
  refine (filter_flatMap (fun e w hw => ?_) _).symm
  obtain ⟨p, -, rfl⟩ := List.mem_map.mp hw
  rfl

/-- **A tick is a tick in each session.** -/
theorem alone_tick (h : st.Served owner) (now : Instant) :
    (st.tick now).alone owner sid = (st.alone owner sid).tick now := by
  have hfold := part_foldl (alone owner) (k := sid) Prod.fst
    (f := fun st e => (st.handleLeave e.1 e.2).1) (I := Served owner)
    (l := (st.timeouts now).zombies now)
    (fun st hst e _ => ⟨(answers_handleLeave hst).confined, served_handleLeave hst e.1 e.2⟩)
    (h.frame (frame_timeouts st now))
  rw [tick, hfold, ← zombies_alone, alone_timeouts, ← tick]

/-- A poll of everybody is one of each session by itself. -/
theorem alone_pollAll (now : Instant) (fuel : ℕ) :
    (pollAll now fuel st).alone owner sid = pollAll now fuel (st.alone owner sid) := by
  have hfold := part_foldl (alone owner) (k := sid) id
    (f := pollSession now fuel) (I := fun _ => True) (l := st.sessions.keys)
    (fun st _ sid' _ => ⟨confined_pollSession fuel, trivial⟩) (s := st) trivial
  rw [pollAll, hfold, pollAll]
  exact congrArg (List.foldl _ _) (Dict.keys_only st.sessions).symm

/-- A negotiation is confined to its session. -/
theorem confined_negotiateOne (h : st.Served owner) (e : SessionId × ParticipantId) :
    Confined (alone owner) e.1 (fun st => negotiateOne st e) st := by
  cases hs : st.session? e.1 with
  | none =>
    apply confined_of_session hs
    · intro t ht
      rw [negotiateOne, ht]
    · exact .id
  | some s =>
  cases hp : s.participants.lookup e.2 with
  | none =>
    apply confined_of_session hs
    · intro t ht
      simp only [negotiateOne, ht, hp]
      rfl
    · exact .id
  | some p =>
  by_cases hpending : p.pendingOffer.isSome = true
  · apply confined_of_session hs
    · intro t ht
      simp only [negotiateOne, ht, hp, if_pos hpending]
      rfl
    · exact confined_insertNegotiation
  by_cases hopen : (!hasToOpen p) = true
  · apply confined_of_session hs
    · intro t ht
      simp only [negotiateOne, ht, hp, if_neg hpending, if_pos hopen]
      rfl
    · exact confined_setParticipant _
  have hpart : st.participant? e.1 e.2 = some p := participant?_eq_some.mpr ⟨s, hs, hp⟩
  cases happly : S.apply (stageTracks (S.sdpApi p.rtc) p.tracksOut).1 with
  | mk rtc result =>
  rcases result with _ | ⟨offer, pending⟩
  · apply confined_of_session hs
    · intro t ht
      simp only [negotiateOne, ht, hp, if_neg hpending, if_neg hopen, happly]
      rfl
    · exact confined_setParticipant _
  · apply confined_of_session hs
    · intro t ht
      simp only [negotiateOne, ht, hp, if_neg hpending, if_neg hopen, happly]
      rfl
    · exact confined_setAndSend h hpart _ _

/-- And it leaves the sockets as they are shared out. -/
theorem served_negotiateOne (h : st.Served owner) (e : SessionId × ParticipantId) :
    (negotiateOne st e).Served owner :=
  h.moves (E := Serving owner) (fun _ => id)
    (moves_negotiateOne trivial (fun _ _ => trivial) (fun _ _ => trivial) st e)

/-- **Offers are made in each session.** -/
theorem alone_negotiatePendingTracks (h : st.Served owner) :
    st.negotiatePendingTracks.alone owner sid = (st.alone owner sid).negotiatePendingTracks := by
  have hfold := part_foldl (alone owner) (k := sid) Prod.fst (f := negotiateOne)
    (I := Served owner) (l := st.pendingNegotiation.keys)
    (fun st hst e _ => ⟨confined_negotiateOne hst e, served_negotiateOne hst e⟩)
    (s := { st with pendingNegotiation := ∅ }) (h.move (e := .taken) trivial (.taken st))
  rw [negotiatePendingTracks, hfold, negotiatePendingTracks, ← Dict.keys_only]
  rfl

/-- **A flush is a flush in each session**: of as many transports as it flushes there. -/
theorem alone_flushPendingWrites (now : Instant) (pollFuel fuel : ℕ) :
    ∃ fuel', (flushPendingWrites now pollFuel fuel st).alone owner sid =
      flushPendingWrites now pollFuel fuel' (st.alone owner sid) := by
  induction fuel generalizing st with
  | zero => exact ⟨0, rfl⟩
  | succ fuel ih =>
    have hkeys : (st.alone owner sid).pendingFlush.keys =
        st.pendingFlush.keys.filter fun e => e.1 = sid := Dict.keys_only st.pendingFlush
    cases hfirst : st.pendingFlush.keys with
    | nil =>
      have hnothing : flushPendingWrites now pollFuel (fuel + 1) st = st := by
        rw [flushPendingWrites, hfirst]
      exact ⟨0, by rw [hnothing, flushPendingWrites]⟩
    | cons e rest =>
      obtain ⟨sid', pid⟩ := e
      have herase : Confined (alone owner) sid' (fun st =>
          { st with pendingFlush := st.pendingFlush.erase (sid', pid) }) st := confined_eraseFlush
      have hpoll := herase.comp (g := fun st => pollParticipant now sid' pid pollFuel st)
        (confined_pollParticipant pollFuel)
      obtain ⟨fuel', hfuel⟩ := @ih (pollParticipant now sid' pid pollFuel
        { st with pendingFlush := st.pendingFlush.erase (sid', pid) })
      rw [flushPendingWrites, hfirst]
      dsimp only
      by_cases hsid : sid' = sid
      · subst hsid
        refine ⟨fuel' + 1, ?_⟩
        rw [hfirst, List.filter_cons, if_pos (decide_eq_true rfl)] at hkeys
        rw [hfuel, hpoll.own, flushPendingWrites, hkeys]
      · refine ⟨fuel', ?_⟩
        rw [hfuel, hpoll.other sid (Ne.symm hsid)]

/-! ### Steps and runs -/

/-- Whether an input is for the session, or for all of them. -/
def Input.concerns (owner : WsTx → SessionId) (sid : SessionId) : Input → Bool
  | .command cmd _ _ _ => cmd.sid = sid
  | .drain tx _ => owner tx = sid
  | .close tx => owner tx = sid
  | _ => true

/-- The same input, up to how many transports a flush finds. -/
inductive Input.Like : Input → Input → Prop
  | refl (i : Input) : Input.Like i i
  | flush (now : Instant) (pollFuel fuel fuel' : ℕ) :
      Input.Like (.flush now pollFuel fuel) (.flush now pollFuel fuel')

/-- A map that is hashed anew looks the same from inside a session. -/
theorem alone_rehashed {st' : SfuShard S} (h : Rehashed st st') :
    Rehashed (st.alone owner sid) (st'.alone owner sid) where
  sessions sid' := by
    by_cases hsid : sid' = sid
    · subst hsid
      rw [session?_alone, session?_alone]
      exact h.sessions sid'
    · have hnone (st : SfuShard S) : (st.alone owner sid).session? sid' = none :=
        Dict.lookup_only_of_ne (g := id) hsid st.sessions
      rw [hnone, hnone]
      exact .none
  pendingNegotiation := h.pendingNegotiation.filter _
  pendingFlush := h.pendingFlush.filter _
  rest := congrArg (alone owner sid) h.rest

/-- **What a session sees of a step**: a like step in the session alone, or nothing. -/
theorem alone_step {st' : SfuShard S} {i : Input} (h : st.Served owner)
    (hapart : Apart owner st i) (hstep : Step st i st') :
    (i.concerns owner sid = true →
      ∃ i', Input.Like i i' ∧ Step (st.alone owner sid) i' (st'.alone owner sid)) ∧
    (i.concerns owner sid = false → st'.alone owner sid = st.alone owner sid) := by
  have hlike (i : Input) (heq : (st.next i).alone owner sid = (st.alone owner sid).next i) :
      ∃ i', Input.Like i i' ∧ Step (st.alone owner sid) i' ((st.next i).alone owner sid) :=
    ⟨i, .refl i, heq ▸ .next _ i⟩
  have hconfined {i : Input} {k : SessionId}
      (hc : Confined (alone owner) k (fun st => st.next i) st) :
      (k = sid → ∃ i', Input.Like i i' ∧
        Step (st.alone owner sid) i' ((st.next i).alone owner sid)) ∧
      (k ≠ sid → (st.next i).alone owner sid = st.alone owner sid) :=
    ⟨fun hk => hlike i (hk ▸ hc.own), fun hk => hc.other sid hk.symm⟩
  cases hstep with
  | rehash hr => exact ⟨fun _ => ⟨.rehash, .refl _, .rehash (alone_rehashed hr)⟩, nofun⟩
  | next =>
    cases i with
    | command cmd creds now fuel =>
      obtain ⟨hown, hother⟩ := hconfined (i := .command cmd creds now fuel)
        (confined_command h hapart)
      exact ⟨fun hc => hown (of_decide_eq_true hc), fun hc => hother (of_decide_eq_false hc)⟩
    | drain tx n =>
      obtain ⟨hown, hother⟩ := hconfined (i := .drain tx n) (confined_outbox rfl
        fun o => { o with queue := o.queue.drop n })
      exact ⟨fun hc => hown (of_decide_eq_true hc), fun hc => hother (of_decide_eq_false hc)⟩
    | close tx =>
      obtain ⟨hown, hother⟩ := hconfined (i := .close tx) (confined_outbox rfl
        fun o => { o with closed := true })
      exact ⟨fun hc => hown (of_decide_eq_true hc), fun hc => hother (of_decide_eq_false hc)⟩
    | tick now fuel =>
      refine ⟨fun _ => hlike _ ?_, nofun⟩
      rw [next, alone_pollAll, alone_tick h, ← next]
    | flush now pollFuel fuel =>
      obtain ⟨fuel', hfuel⟩ := @alone_flushPendingWrites S owner st sid now
        pollFuel fuel
      refine ⟨fun _ => ⟨.flush now pollFuel fuel', .flush now pollFuel fuel fuel', ?_⟩, nofun⟩
      rw [next, hfuel]
      exact .next _ (.flush now pollFuel fuel')
    | negotiate => exact ⟨fun _ => hlike _ (alone_negotiatePendingTracks h), nofun⟩
    | rehash => exact ⟨fun _ => hlike _ rfl, nofun⟩

/-- Every step of the shard leaves the sockets as they are shared out. -/
theorem served_step {st' : SfuShard S} {i : Input} (h : st.Served owner)
    (hapart : Apart owner st i) (hstep : Step st i st') : st'.Served owner := by
  refine h.moves (fun e he => ?_) (moves_of_step hstep)
  cases e with
  | admitted sid pid tx =>
    rcases i with ⟨cmd, creds, now, fuel⟩ | _ | _ | _ | _ | _ | _
    · cases cmd with
      | join sid' pid' userId sdpOffer replyTx =>
        obtain ⟨rfl, -, rfl⟩ := he
        exact hapart.1
      | _ => exact absurd he id
    all_goals exact absurd he id
  | _ => trivial

/-- **Sessions do not interfere**: in every run of a shard in which a WebSocket is for one
session, and no session is given the credentials of another, what the shard has of a session is
what a shard that never had another has of it, after the same inputs without those that are for
others only. -/
theorem alone_of_traced {is : List Input} (h : (system S).Traced (Apart owner) is st)
    (sid : SessionId) : ∃ js, (system S).Traced (fun _ _ => True) js (st.alone owner sid) ∧
      List.Forall₂ Input.Like (is.filter (Input.concerns owner sid)) js := by
  refine h.unwind (I := Served owner) ?_ ?_ ?_ ?_
  · rintro st ⟨shardIndex, candidateAddrs, zombieTimeout, rfl⟩
    have hserved : (new (S := S) shardIndex candidateAddrs zombieTimeout).Served owner :=
      fun _ _ _ hp => absurd (show none = some _ from hp) nofun
    refine ⟨hserved, shardIndex, candidateAddrs, zombieTimeout, ?_⟩
    have hws : (fun tx => if owner tx = sid then ({} : Outbox) else {}) = fun _ => {} :=
      funext fun _ => ite_self _
    exact congrArg
      (fun ws => { new (S := S) shardIndex candidateAddrs zombieTimeout with ws := ws }) hws
  · exact fun st i st' => served_step
  · exact fun st i st' hst hapart hstep => (alone_step hst hapart hstep).1
  · exact fun st i st' hst hapart hstep => (alone_step hst hapart hstep).2

end SfuShard

namespace Scripted

/-- Alice speaks in one call, Bob and Carol in another. -/
def twoCalls : List SfuShard.Input :=
  [.command (.join 7 1 "alice" "a" 11) ⟨"ua", "pa"⟩ 0 9,
    .command (.join 8 2 "bob" "a" 12) ⟨"ub", "pb"⟩ 1 9,
    .command (.join 8 3 "carol" "a" 13) ⟨"uc", "pc"⟩ 2 9, .negotiate, .tick 3 9,
    .command (.leave 8 2) ⟨"", ""⟩ 4 9, .drain 13 1]

/-- The session of the WebSocket. -/
def callOf (tx : WsTx) : SessionId := if tx = 11 then 7 else 8

theorem alone_of_traced_alice : ∃ js,
    (SfuShard.system scripted).Traced (fun _ _ => True) js
      ((SfuShard.run (S := scripted) [(1, 2)] 12000 twoCalls).alone callOf 7) ∧
    List.Forall₂ SfuShard.Input.Like
      [.command (.join 7 1 "alice" "a" 11) ⟨"ua", "pa"⟩ 0 9, .negotiate, .tick 3 9] js := by
  have hstart : (SfuShard.system scripted).Traced (SfuShard.Apart callOf) []
      (.new 0 [(1, 2)] 12000) := .start ⟨0, [(1, 2)], 12000, rfl⟩
  have hfree {st : SfuShard scripted} {sid : SessionId} {ufrag : String}
      (hnone : st.sharedMaps.ufragToTarget.lookup ufrag = none) : st.Free sid ufrag :=
    fun _ ht => absurd (hnone.symm.trans ht) nofun
  have hok : System.Accepted (SfuShard.Apart callOf) SfuShard.next
      (SfuShard.new (S := scripted) 0 [(1, 2)] 12000) twoCalls :=
    ⟨⟨rfl, hfree (by decide)⟩, ⟨rfl, hfree (by decide)⟩, ⟨rfl, hfree (by decide)⟩, trivial, trivial,
      trivial, trivial, trivial⟩
  exact SfuShard.alone_of_traced (hstart.foldl SfuShard.Step.next hok) 7

end Scripted

end Video

end MateHub
