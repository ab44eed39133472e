import MateHub.Video.Sfu.Effects

/-!
# What a shard does to those around it

A shard shares two things with the rest of the service: the channels of the WebSockets, in
which it places messages, and the routing tables, which it reads by nobody's leave but the
lock's. Most of what it does leaves the tables alone and places messages at most
(`MateHub.Video.SfuShard.Stays`); only a participant that comes or goes changes them.

Its messages are about the media. Who is in the call is what the handlers of the WebSockets
tell their clients, over the same channels, and no step of the shard adds to that
(`MateHub.Video.SfuShard.signals_step`).
-/

namespace MateHub

namespace Video

/-- A message is put into an outbox, or there is no room for it. -/
theorem Outbox.queue_trySend_or (o : Outbox) (msg : ServerMessage) :
    (o.trySend msg).queue = o.queue ∨ (o.trySend msg).queue = o.queue ++ [msg] := by
  rw [trySend]
  split_ifs
  · exact .inl rfl
  · exact .inr rfl

/-- The messages of the shard: they are about the media, not about who is there. -/
def ServerMessage.ofSfu : ServerMessage → Bool
  | .answer _ _ => true
  | .offer _ _ => true
  | .error _ => true
  | .forceDisconnected _ => true
  | _ => false

namespace SfuShard

variable {S : Str0m} {st st' st'' : SfuShard S}

/-! ### Nothing is taken back -/

/-- From one state to another, the outboxes only grow. -/
def Grows (st st' : SfuShard S) : Prop := ∀ tx, (st.ws tx).queue <+: (st'.ws tx).queue

/-- From one state to another, the outboxes get messages of the shard, if any. -/
def Signals (st st' : SfuShard S) : Prop := ∀ tx, ∃ msgs,
  (st.ws tx).queue ++ msgs = (st'.ws tx).queue ∧ ∀ msg ∈ msgs, msg.ofSfu = true

/-- Signals are added behind what is there. -/
theorem Signals.grows (h : st.Signals st') : st.Grows st' := fun tx =>
  let ⟨msgs, hmsgs, _⟩ := h tx
  ⟨msgs, hmsgs⟩

/-- Where the outboxes are the same, there are no signals. -/
theorem Signals.of_eq (h : st'.ws = st.ws) : st.Signals st' :=
  fun tx => ⟨[], by rw [h, List.append_nil], nofun⟩

theorem Signals.trans (h : st.Signals st') (h' : st'.Signals st'') : st.Signals st'' := by
  intro tx
  obtain ⟨msgs, hmsgs, hsfu⟩ := h tx
  obtain ⟨msgs', hmsgs', hsfu'⟩ := h' tx
  refine ⟨msgs ++ msgs', by rw [← List.append_assoc, hmsgs, hmsgs'], fun msg hmem => ?_⟩
  rcases List.mem_append.mp hmem with hmem | hmem
  · exact hsfu msg hmem
  · exact hsfu' msg hmem

/-- Steps that signal, one after the other, signal. -/
theorem Signals.foldl {α : Type*} {f : SfuShard S → α → SfuShard S}
    (h : ∀ st a, Signals st (f st a)) (l : List α) (st : SfuShard S) :
    st.Signals (l.foldl f st) :=
  List.foldlRecOn l f (.of_eq rfl) fun _ ih a _ => ih.trans (h _ a)

/-- A message changes one outbox only. -/
theorem outbox_wsTrySend (st : SfuShard S) (tx : WsTx) (msg : ServerMessage) (tx' : WsTx) :
    (st.wsTrySend tx msg).ws tx' = if tx' = tx then (st.ws tx').trySend msg else st.ws tx' := by
  by_cases htx : tx' = tx
  · subst htx
    rw [if_pos rfl]
    exact Function.update_self tx' _ st.ws
  · rw [if_neg htx]
    exact Function.update_of_ne htx _ st.ws

/-- A message of the SFU is a signal. -/
theorem signals_wsTrySend {msg : ServerMessage} (hmsg : msg.ofSfu = true) (st : SfuShard S)
    (tx : WsTx) : st.Signals (st.wsTrySend tx msg) := by
  intro tx'
  rw [outbox_wsTrySend]
  split
  · rcases Outbox.queue_trySend_or (st.ws tx') msg with hqueue | hqueue
    · exact ⟨[], by rw [hqueue, List.append_nil], nofun⟩
    · exact ⟨[msg], hqueue.symm, fun _ hmem => List.mem_singleton.mp hmem ▸ hmsg⟩
  · exact ⟨[], List.append_nil _, nofun⟩

/-! ### What leaves the routing tables alone -/

/-- **Messages are placed, at most**: the routing tables stay as they are. -/
structure Stays (st st' : SfuShard S) : Prop where
  signals : st.Signals st'
  sharedMaps : st'.sharedMaps = st.sharedMaps
  shardIndex : st'.shardIndex = st.shardIndex

/-- A step that touches neither outboxes nor tables. -/
theorem Stays.of_eq (hws : st'.ws = st.ws) (hmaps : st'.sharedMaps = st.sharedMaps)
    (hindex : st'.shardIndex = st.shardIndex) : st.Stays st' := ⟨.of_eq hws, hmaps, hindex⟩

theorem Stays.refl (st : SfuShard S) : st.Stays st := .of_eq rfl rfl rfl

theorem Stays.trans (h : st.Stays st') (h' : st'.Stays st'') : st.Stays st'' :=
  ⟨h.signals.trans h'.signals, h'.sharedMaps.trans h.sharedMaps,
    h'.shardIndex.trans h.shardIndex⟩

/-- Steps along a list of which each touches neither. -/
theorem Stays.foldl {α : Type*} {f : SfuShard S → α → SfuShard S}
    (h : ∀ st a, Stays st (f st a)) (l : List α) (st : SfuShard S) : st.Stays (l.foldl f st) :=
  List.foldlRecOn l f (.refl st) fun _ ih a _ => ih.trans (h _ a)

/-- A message leaves the tables. -/
theorem stays_wsTrySend {msg : ServerMessage} (hmsg : msg.ofSfu = true) (st : SfuShard S)
    (tx : WsTx) : st.Stays (st.wsTrySend tx msg) := ⟨signals_wsTrySend hmsg st tx, rfl, rfl⟩

/-- Writing a participant touches neither outboxes nor tables. -/
theorem stays_setParticipant (st : SfuShard S) (sid : SessionId) (pid : ParticipantId)
    (p : SfuParticipant S) : st.Stays (st.setParticipant sid pid p) := .of_eq rfl rfl rfl

/-- Writing the targets of a track touches neither outboxes nor tables. -/
theorem stays_setTargets (st : SfuShard S) (sid : SessionId) (k : TrackKey)
    (targets : List TrackKey) : st.Stays (st.setTargets sid k targets) := .of_eq rfl rfl rfl

/-- A packet to a target leaves the tables, and signals at most. -/
theorem stays_forwardTo (sid : SessionId) (pkt : RtpPacket) (kind : MediaKind)
    (pp : S.PayloadParams) (st : SfuShard S) (target : TrackKey) :
    st.Stays (forwardTo sid pkt kind pp st target) := by
  rw [forwardTo]
  split
  · exact .refl st
  · split
    · exact .refl st
    · split
      · exact .refl st
      · dsimp only
        split <;> exact .of_eq rfl rfl rfl

/-- **A packet** leaves the tables, and signals at most. -/
theorem stays_forwardRtp (st : SfuShard S) (sid : SessionId) (pid : ParticipantId) (mid : Mid)
    (pkt : RtpPacket) : st.Stays (st.forwardRtp sid pid mid pkt) := by
  rw [forwardRtp]
  split
  · exact .refl st
  · split
    · exact .refl st
    · split
      · exact .refl st
      · dsimp only
        split
        · exact .of_eq rfl rfl rfl
        · split
          · exact .of_eq rfl rfl rfl
          · split
            · exact .of_eq rfl rfl rfl
            · rw [forwardToAll]
              split
              · exact .of_eq rfl rfl rfl
              · exact .of_eq rfl rfl rfl
              · refine Stays.trans ?_ (stays_setTargets _ sid (pid, mid) _)
                refine Stays.trans ?_ (Stays.foldl (stays_forwardTo sid pkt _ _) _ _)
                exact .of_eq rfl rfl rfl

/-- New media leaves the tables. -/
theorem stays_mediaAdded (st : SfuShard S) (sid : SessionId) (pid : ParticipantId) (mid : Mid)
    (kind : MediaKind) : st.Stays (st.mediaAdded sid pid mid kind) := by
  rw [mediaAdded]
  split <;> exact .of_eq rfl rfl rfl

/-- **An event of a transport** leaves the tables. -/
theorem stays_handleEvent (st : SfuShard S) (now : Instant) (sid : SessionId)
    (pid : ParticipantId) (e : Event) : st.Stays (st.handleEvent now sid pid e) := by
  cases e with
  | mediaAdded mid kind => exact stays_mediaAdded st sid pid mid kind
  | rtpPacket pkt =>
    dsimp only [handleEvent]
    split
    · exact .refl st
    · split
      · exact stays_forwardRtp st sid pid _ pkt
      · exact .refl st
  | iceConnectionStateChange state =>
    dsimp only [handleEvent]
    split <;> exact .of_eq rfl rfl rfl
  | egressBitrateEstimate kind =>
    dsimp only [handleEvent]
    split <;> exact .of_eq rfl rfl rfl
  | keyframeRequest mid =>
    dsimp only [handleEvent]
    split
    · exact .refl st
    · split <;> exact .of_eq rfl rfl rfl
  | other => exact .refl st

/-- **The polls** leave the tables, turn by turn. -/
theorem stays_polls : RespectsPolls (Stays (S := S)) where
  refl := .refl
  trans := .trans
  call _ _ := stays_setParticipant _ _ _ _
  event now _ _ := (stays_setParticipant _ _ _ _).trans (stays_handleEvent _ now _ _ _)
  flush _ _ := .of_eq rfl rfl rfl

/-- An offer of a client leaves the tables. -/
theorem stays_handleClientOffer (st : SfuShard S) (sid : SessionId) (pid : ParticipantId)
    (sdpOffer : String) : st.Stays (st.handleClientOffer sid pid sdpOffer).1 :=
  handleClientOffer_cases (.refl st) (fun _ => stays_setParticipant st sid pid _)
    (fun _ _ => stays_setParticipant st sid pid _)
    fun _ _ => (stays_setParticipant st sid pid _).trans (stays_wsTrySend rfl _ _)

/-- An answer of a client leaves the tables. -/
theorem stays_handleAnswer (st : SfuShard S) (now : Instant) (sid : SessionId)
    (pid : ParticipantId) (sdpAnswer : String) :
    st.Stays (st.handleAnswer now sid pid sdpAnswer).1 := by
  have hdrain (st : SfuShard S) : st.Stays (st.drainQueuedOffer sid pid) := by
    rw [drainQueuedOffer]
    split
    · exact .refl st
    · split
      · exact .refl st
      · exact (stays_setParticipant st sid pid _).trans (stays_handleClientOffer _ sid pid _)
  rw [handleAnswer]
  split
  · exact .refl st
  · split
    · exact .refl st
    · split
      · exact .refl st
      · dsimp only
        refine Stays.trans ?_ (hdrain _)
        split
        · exact .refl st
        · split <;> exact .of_eq rfl rfl rfl

/-- Whether a command is about a participant that comes or goes. -/
def SfuCommand.comesOrGoes : SfuCommand → Bool
  | .join _ _ _ _ _ => true
  | .leave _ _ => true
  | _ => false

/-- **A command** leaves the tables unless somebody comes or goes. -/
theorem stays_handleCommand (st : SfuShard S) (creds : IceCreds) (now : Instant)
    {cmd : SfuCommand} (hcmd : SfuCommand.comesOrGoes cmd = false) :
    st.Stays (st.handleCommand creds now cmd).1 := by
  cases cmd with
  | join sid pid userId sdpOffer replyTx => cases hcmd
  | leave sid pid => cases hcmd
  | answer sid pid sdpAnswer => exact stays_handleAnswer st now sid pid sdpAnswer
  | clientOffer sid pid sdpOffer => exact stays_handleClientOffer st sid pid sdpOffer
  | iceCandidate sid pid candidate sdpMid =>
    dsimp only [handleCommand, handleIceCandidate]
    split
    · exact .refl st
    · split <;> exact .of_eq rfl rfl rfl
  | publishTrack sid pid source kind =>
    dsimp only [handleCommand, handlePublishTrack]
    split <;> exact .of_eq rfl rfl rfl
  | udpInput sid pid source data =>
    dsimp only [handleCommand, handleUdpInput]
    split
    · exact .refl st
    · split
      · exact .refl st
      · split
        · exact .refl st
        · split <;> exact .of_eq rfl rfl rfl

/-- Lines that are made inactive leave the tables. -/
theorem stays_deactivate (sid : SessionId) (st : SfuShard S) (entry : ParticipantId × List Mid) :
    st.Stays (deactivate sid st entry) :=
  deactivate_cases (.refl st) (fun _ => stays_setParticipant st sid _ _)
    (fun _ _ => stays_setParticipant st sid _ _)
    fun _ _ _ _ => (stays_setParticipant st sid _ _).trans (stays_wsTrySend rfl _ _)

/-- A negotiation leaves the tables. -/
theorem stays_negotiateOne (st : SfuShard S) (e : SessionId × ParticipantId) :
    st.Stays (negotiateOne st e) :=
  negotiateOne_cases (.refl st) (fun _ => .of_eq rfl rfl rfl)
    (fun _ => stays_setParticipant st _ _ _) (fun _ _ _ _ => stays_setParticipant st _ _ _)
    fun _ _ _ _ => (stays_setParticipant st _ _ _).trans (stays_wsTrySend rfl _ _)

/-- Timeouts leave the tables. -/
theorem stays_timeouts (st : SfuShard S) (now : Instant) : st.Stays (st.timeouts now) :=
  .of_eq rfl rfl rfl

/-- Whether participants may come or go in a step. -/
def Input.comesOrGoes : Input → Bool
  | .command cmd _ _ _ => SfuCommand.comesOrGoes cmd
  | .tick _ _ => true
  | _ => false

/-- **A step in which nobody comes or goes**, apart from those of the handlers, which empty
and close the outboxes. -/
theorem stays_step {i : Input} (hstep : Step st i st') (hi : i.comesOrGoes = false)
    (hdrain : ∀ tx n, i ≠ .drain tx n) (hclose : ∀ tx, i ≠ .close tx) : st.Stays st' := by
  cases hstep with
  | rehash hr => exact .of_eq (by rw [hr.rest]) (by rw [hr.rest]) (by rw [hr.rest])
  | next =>
    cases i with
    | command cmd creds now fuel =>
      exact (stays_handleCommand st creds now hi).trans (stays_polls.pollTarget now fuel _ _)
    | tick now fuel => cases hi
    | flush now pollFuel fuel => exact stays_polls.flushPendingWrites now pollFuel fuel st
    | negotiate =>
      have htaken : st.Stays { st with pendingNegotiation := ∅ } := .of_eq rfl rfl rfl
      exact htaken.trans (Stays.foldl stays_negotiateOne _ _)
    | drain tx n => exact absurd rfl (hdrain tx n)
    | close tx => exact absurd rfl (hclose tx)
    | rehash => exact .refl st

/-! ### Coming and going -/

/-- **A leave**: of no session; or it goes through those who remain, and if nobody does the
session is removed. -/
theorem handleLeave_cases (st : SfuShard S) (sid : SessionId) (pid : ParticipantId) :
    (st.session? sid = none ∧ (st.handleLeave sid pid).1 = { st with
      sharedMaps := st.sharedMaps.retain fun t => !(t.sid = sid && t.pid = pid)
      pendingNegotiation := st.pendingNegotiation.erase (sid, pid) }) ∨
    ∃ s st₁, st.session? sid = some s ∧ st₁ = (midsToDeactivate
        { s with participants := s.participants.erase pid } pid).foldl (deactivate sid)
          (st.leaveStart sid pid s) ∧
      ((∃ s₁, st₁.session? sid = some s₁ ∧ Dict.isEmpty s₁.participants = true ∧
        (st.handleLeave sid pid).1 = { st₁ with
          sessions := st₁.sessions.erase sid
          sharedMaps := st₁.sharedMaps.retain fun t => t.sid ≠ sid }) ∨
      (st.handleLeave sid pid).1 = st₁ ∧
        ∀ s₁, st₁.session? sid = some s₁ → Dict.isEmpty s₁.participants = false) := by
  rcases hs : st.session? sid with _ | s
  · refine .inl ⟨rfl, ?_⟩
    have hs' : session? { st with
        sharedMaps := st.sharedMaps.retain fun t => !(t.sid = sid && t.pid = pid)
        pendingNegotiation := st.pendingNegotiation.erase (sid, pid) } sid = none := hs
    simp only [handleLeave, hs']
  · refine .inr ⟨s, _, rfl, rfl, ?_⟩
    unfold handleLeave leaveStart
    dsimp only
    split
    · rename_i hnone
      exact absurd (hnone.symm.trans hs) (by simp)
    · rename_i s' hs'
      obtain rfl : s' = s := Option.some.inj (hs'.symm.trans hs)
      generalize List.foldl _ _ _ = st₁
      split
      · rename_i hnone
        refine .inr ⟨rfl, fun s₁ hs₁ => ?_⟩
        rw [hnone] at hs₁
        cases hs₁
      · rename_i s₁ hs₁
        split
        · rename_i hempty
          exact .inl ⟨s₁, hs₁, hempty, rfl⟩
        · rename_i hsome
          refine .inr ⟨rfl, fun s₂ hs₂ => ?_⟩
          obtain rfl := Option.some.inj (hs₁.symm.trans hs₂)
          exact Bool.eq_false_iff.mpr hsome

/-- The loop of a leave leaves the routing tables alone. -/
theorem stays_deactivates (sid : SessionId) (entries : List (ParticipantId × List Mid))
    (st : SfuShard S) : st.Stays (entries.foldl (deactivate sid) st) :=
  .foldl (stays_deactivate sid) entries st

/-- **A leave** tells the others by signals only. -/
theorem signals_handleLeave (st : SfuShard S) (sid : SessionId) (pid : ParticipantId) :
    st.Signals (st.handleLeave sid pid).1 := by
  rcases handleLeave_cases st sid pid with ⟨-, heq⟩ | ⟨s, st₁, -, hst₁, hend⟩
  · exact .of_eq (by rw [heq])
  · have hloop : st.Signals st₁ := by
      rw [hst₁]
      exact Signals.trans (.of_eq rfl) (stays_deactivates sid _ (st.leaveStart sid pid s)).signals
    rcases hend with ⟨s₁, -, -, heq⟩ | ⟨heq, -⟩
    · exact hloop.trans (.of_eq (by rw [heq]))
    · exact hloop.trans (.of_eq (by rw [heq]))

/-- The leave that a join makes tells the others by signals only. -/
theorem signals_kickPrior (st : SfuShard S) (sid : SessionId) (pid : ParticipantId) :
    st.Signals (st.kickPrior sid pid) := by
  rw [kickPrior]
  split
  · exact .of_eq rfl
  · exact (signals_wsTrySend rfl _ _).trans (signals_handleLeave _ sid pid)

/-- **A join** answers and tells by signals only. -/
theorem signals_handleJoin (st : SfuShard S) (creds : IceCreds) (now : Instant) (sid : SessionId)
    (pid : ParticipantId) (userId sdpOffer : String) (replyTx : WsTx) :
    st.Signals (st.handleJoin creds now sid pid userId sdpOffer replyTx).1 := by
  refine (signals_kickPrior st sid pid).trans ?_
  rw [handleJoin]
  split
  · exact signals_wsTrySend rfl _ _
  · split
    · exact signals_wsTrySend rfl _ _
    · unfold addParticipant
      dsimp only
      split <;> exact (Signals.of_eq rfl).trans (signals_wsTrySend rfl _ _)

/-- **A command** tells by signals only. -/
theorem signals_handleCommand (st : SfuShard S) (creds : IceCreds) (now : Instant)
    (cmd : SfuCommand) : st.Signals (st.handleCommand creds now cmd).1 := by
  cases cmd with
  | join sid pid userId sdpOffer replyTx =>
    exact signals_handleJoin st creds now sid pid userId sdpOffer replyTx
  | leave sid pid => exact signals_handleLeave st sid pid
  | _ => exact (stays_handleCommand st creds now rfl).signals

/-- The sweep of a tick. -/
theorem signals_leaves (l : List (SessionId × ParticipantId)) (st : SfuShard S) :
    st.Signals (l.foldl (fun st e => (st.handleLeave e.1 e.2).1) st) :=
  .foldl (fun st e => signals_handleLeave st e.1 e.2) l st

/-- **A tick** tells by signals only. -/
theorem signals_tick (st : SfuShard S) (now : Instant) : st.Signals (st.tick now) := by
  rw [tick]
  exact (stays_timeouts st now).signals.trans (signals_leaves _ _)

/-- **What a step places in the outboxes**, apart from the steps of the handlers that empty
and close them. -/
theorem signals_step {i : Input} (hstep : Step st i st') (hdrain : ∀ tx n, i ≠ .drain tx n)
    (hclose : ∀ tx, i ≠ .close tx) : st.Signals st' := by
  by_cases hi : i.comesOrGoes = false
  · exact (stays_step hstep hi hdrain hclose).signals
  · cases hstep with
    | rehash => exact absurd rfl hi
    | next =>
      cases i with
      | command cmd creds now fuel =>
        exact (signals_handleCommand st creds now cmd).trans
          (stays_polls.pollTarget now fuel _ _).signals
      | tick now fuel => exact (signals_tick st now).trans (stays_polls.pollAll now fuel _).signals
      | _ => exact absurd rfl hi

end SfuShard

end Video

end MateHub
