import MateHub.Video.Ws

/-!
# The turns of the WebSocket handlers

What a step of the video service does to the state behind the REST API, to the handlers,
to the events published for the hub and to the messages on their way to the clients. A step
that is not a handler's leaves the first three alone; a handler's is one of a few kinds
(`MateHub.Video.Service.Turn`), and says whom it sends what.
-/

namespace MateHub

namespace Video

/-- Whether a handler is in its loop. -/
def Phase.inLoop : Phase → Bool
  | .running => true
  | .joined => true
  | .muted _ _ => true
  | _ => false

/-- The phases between which a handler goes. -/
inductive Phase.Next : Phase → Phase → Prop
  | notFound : Next .connecting .done
  | locates : Next .connecting .located
  | gone : Next .located .done
  | registers : Next .located .registered
  | came : Next .registered .running
  | joins : Next .running .joined
  | connects : Next .joined .running
  | mutes (kind : String) (muted : Bool) : Next .running (.muted kind muted)
  | tells (kind : String) (muted : Bool) : Next (.muted kind muted) .running
  | stays : Next .running .running
  | hangsUp : Next .running .leaving
  | leaves : Next .leaving .releasing
  | releases : Next .releasing .farewell
  | left : Next .farewell .done

/-- A handler goes on; where it is, it learns once. -/
structure Handler.Moves (h h' : Handler) : Prop where
  phase : h.phase.Next h'.phase
  sid : h'.sid = h.sid
  pid : h'.pid = h.pid
  userId : h'.userId = h.userId
  userSnowflake : h'.userSnowflake = h.userSnowflake
  room : h.phase = .connecting ∨ h'.channelId = h.channelId ∧ h'.hubId = h.hubId

namespace Service

variable {S : Str0m} {cfg : Config} {w w' : Service S}

/-! ### Slots and messages -/

/-- The slot of a participant. -/
def slot? (w : Service S) (sid : SessionId) (pid : ParticipantId) : Option Participant :=
  (w.app.sessions.lookup sid).bind fun s => s.participants.lookup pid

/-- A handler owns the slot of its participant. -/
def owns (w : Service S) (c : WsTx) (h : Handler) : Bool :=
  (w.slot? h.sid h.pid).any fun p => decide (p.wsTx = c)

/-- The state after a list of messages is sent. -/
def posted (w : Service S) (msgs : List (WsTx × ServerMessage)) : Service S :=
  msgs.foldl (fun w m => w.wsSendOrDrop m.1 m.2) w

/-- The messages of a broadcast. -/
def toAll (ps : Dict ParticipantId Participant) (msg : ServerMessage) :
    List (WsTx × ServerMessage) := ps.values.map fun p => (p.wsTx, msg)

/-- The messages of a broadcast to all but one. -/
def toOthers (w : Service S) (sid : SessionId) (pid : ParticipantId) (msg : ServerMessage) :
    List (WsTx × ServerMessage) :=
  match w.app.sessions.lookup sid with
  | none => []
  | some s => toAll (s.participants.erase pid) msg

/-- The messages of a registration. -/
def greetings (c : WsTx) (h : Handler) (s : Session) : List (WsTx × ServerMessage) :=
  (s.participants.values.flatMap presence).map (c, ·) ++
    toAll s.participants (.participantJoined h.pid h.userId)

/-- What the clients are told in a step about who is there, in the order of sending. -/
def sent (w : Service S) : Act → List (WsTx × ServerMessage)
  | .advance c =>
    match w.handlers c with
    | none => []
    | some h =>
      match h.phase with
      | .located => (w.app.sessions.lookup h.sid).elim [] (greetings c h)
      | .releasing =>
        if w.owns c h then w.toOthers h.sid h.pid (.participantLeft h.pid h.userId) else []
      | _ => []
  | .receive c msg =>
    match w.running? c with
    | none => []
    | some h =>
      match msg with
      | .muteChanged kind muted => w.toOthers h.sid h.pid (.participantMuted h.pid kind muted)
      | .deafenChanged deafened => w.toOthers h.sid h.pid (.participantDeafened h.pid deafened)
      | _ => []
  | _ => []

/-- The slot of a handler that registers. -/
def newSlot (c : WsTx) (h : Handler) : Participant where
  id := h.pid
  userId := h.userId
  state := .connecting
  wsTx := c
  videoMuted := true
  audioMuted := true
  deafened := false

/-- Two states differ in the shard at most, and in the queue that leads to it. -/
structure Apart (w w' : Service S) : Prop where
  app : w'.app = w.app
  handlers : w'.handlers = w.handlers
  published : w'.published = w.published

/-- A handler takes a step, and sends some messages; its own channel may be closed by it. -/
structure Acts (w : Service S) (c : WsTx) (h h' : Handler) (msgs : List (WsTx × ServerMessage))
    (w' : Service S) : Prop where
  was : w.handlers c = some h
  handlers : w'.handlers = Function.update w.handlers c (some h')
  outbox : ∀ tx, tx ≠ c ∨ h'.phase ≠ .done → w'.sfu.ws tx = (w.posted msgs).sfu.ws tx

/-- The connection that is made in a step. -/
def connected? : Act → Option WsTx
  | .connect c _ _ _ _ => some c
  | _ => none

/-- The phases between which a handler goes without a word. -/
inductive Goes : Phase → Phase → Prop
  | notFound : Goes .connecting .done
  | gone : Goes .located .done
  | joins : Goes .running .joined
  | hangsUp : Goes .running .leaving
  | leaves : Goes .leaving .releasing
  | passes : Goes .releasing .farewell

/-- What a handler publishes, between which phases. -/
inductive Tells (h : Handler) : Phase → (ℤ → NatsEvent) → Phase → Prop
  | came : Tells h .registered (fun uid => .occupancy h.hubId uid (some h.channelId) h.sid) .running
  | mutes (kind : String) (muted : Bool) :
      Tells h (.muted kind muted) (fun uid => .mute h.hubId uid kind muted) .running
  | left : Tells h .farewell (fun uid => .occupancy h.hubId uid none h.sid) .done

/-- What a handler changes in the slot of its participant, with what it tells the others. -/
inductive Alters (h : Handler) : Phase → (Participant → Participant) → List ServerMessage →
    Phase → Prop
  | connects : Alters h .joined (fun p => { p with state := .connected }) [] .running
  | mutes (kind : String) (muted : Bool) : Alters h .running (muteSlot kind muted)
      [.participantMuted h.pid kind muted] (.muted kind muted)
  | deafens (deafened : Bool) : Alters h .running (fun p => { p with deafened := deafened })
      [.participantDeafened h.pid deafened] .running

theorem Alters.wsTx {h : Handler} {phase phase' : Phase} {f : Participant → Participant}
    {msgs : List ServerMessage} (halters : Alters h phase f msgs phase') (p : Participant) :
    (f p).wsTx = p.wsTx := by
  cases halters with
  | mutes kind muted =>
    rw [muteSlot]
    split_ifs <;> rfl
  | _ => rfl

/-- **What the steps of the service are.** -/
inductive Turn (cfg : Config) (w : Service S) : Act → Service S → Prop
  | idle {a : Act} {w' : Service S} : w.Apart w' → w'.sfu.ws = w.sfu.ws → Turn cfg w a w'
  /-- The shard takes a step of its own. -/
  | works {a : Act} {w' : Service S} {i : SfuShard.Input} : w.Apart w' →
      SfuShard.Step w.sfu i w'.sfu → (∀ c n, i ≠ .drain c n) → (∀ c, i ≠ .close c) →
      Turn cfg w a w'
  | delivers {c : WsTx} {w' : Service S} : w.Apart w' → w'.sfu = w.sfu.next (.drain c 1) →
      Turn cfg w (.deliver c) w'
  | complains {a : Act} {c : WsTx} {error : String} {w' : Service S} : w.Apart w' →
      w'.sfu = w.sfu.wsTrySend c (.error error) → Turn cfg w a w'
  | creates {channelId : ChannelId} {hubId : HubId} {sid : SessionId} {w' : Service S} :
      w.app.channelToSession.lookup channelId = none →
      w' = { w with app :=
        { sessions := w.app.sessions.insert sid ⟨sid, channelId, hubId, ∅⟩
          channelToSession := w.app.channelToSession.insert channelId sid } } →
      Turn cfg w (.createSession channelId hubId sid) w'
  | connects {a : Act} {c : WsTx} {h : Handler} {w' : Service S} : connected? a = some c →
      w.handlers c = none → h.phase = .connecting →
      w' = { w with handlers := Function.update w.handlers c (some h) } → Turn cfg w a w'
  | locates {a : Act} {c : WsTx} {h : Handler} {s : Session} {w' : Service S} :
      h.phase = .connecting → w.app.sessions.lookup h.sid = some s →
      w.Acts c h { h with channelId := s.channelId, hubId := s.hubId, phase := .located } [] w' →
      w'.app = w.app → w'.published = w.published → Turn cfg w a w'
  | goes {a : Act} {c : WsTx} {h : Handler} {phase : Phase} {w' : Service S} :
      Goes h.phase phase → w.Acts c h { h with phase := phase } [] w' →
      (h.phase = .releasing → w.owns c h = false) →
      w'.app = w.app → w'.published = w.published → Turn cfg w a w'
  | publishes {c : WsTx} {h : Handler} {event : ℤ → NatsEvent} {phase : Phase}
      {w' : Service S} : Tells h h.phase event phase → w.Acts c h { h with phase := phase } [] w' →
      w'.app = w.app → w'.published = (w.publish cfg h.userSnowflake event).published →
      Turn cfg w (.advance c) w'
  | alters {a : Act} {c : WsTx} {h : Handler} {f : Participant → Participant}
      {msgs : List ServerMessage} {phase : Phase} {w' : Service S} :
      Alters h h.phase f msgs phase →
      w.Acts c h { h with phase := phase } (msgs.flatMap (w.toOthers h.sid h.pid)) w' →
      w'.app = (w.modifySlot h.sid h.pid f).app → w'.published = w.published →
      w.sent a = msgs.flatMap (w.toOthers h.sid h.pid) → Turn cfg w a w'
  | registers {c : WsTx} {h : Handler} {s : Session} {w' : Service S} : h.phase = .located →
      w.app.sessions.lookup h.sid = some s →
      w.Acts c h { h with phase := .registered } (greetings c h s) w' →
      w'.app = (w.setSession h.sid
        { s with participants := s.participants.insert h.pid (newSlot c h) }).app →
      w'.published = w.published → Turn cfg w (.advance c) w'
  /-- A handler releases its slot, and the session if it was the last one. -/
  | releases {c : WsTx} {h : Handler} {s : Session} {w' : Service S} : h.phase = .releasing →
      w.owns c h = true → w.app.sessions.lookup h.sid = some s →
      w.Acts c h { h with phase := .farewell }
        (toAll (s.participants.erase h.pid) (.participantLeft h.pid h.userId)) w' →
      w'.app = (if Dict.isEmpty (s.participants.erase h.pid) then
          { sessions := (w.app.sessions.insert h.sid
              { s with participants := s.participants.erase h.pid }).erase h.sid
            channelToSession := w.app.channelToSession.erase s.channelId }
        else (w.setSession h.sid { s with participants := s.participants.erase h.pid }).app) →
      w'.published = w.published → Turn cfg w (.advance c) w'

/-! ### Sending -/

section Posted

variable (w)

theorem posted_append (msgs msgs' : List (WsTx × ServerMessage)) :
    w.posted (msgs ++ msgs') = (w.posted msgs).posted msgs' := List.foldl_append

theorem broadcast_eq (ps : Dict ParticipantId Participant) (msg : ServerMessage) :
    w.broadcast ps msg = w.posted (toAll ps msg) := by
  rw [posted, toAll, List.foldl_map]
  rfl

theorem sfu_posted (msgs : List (WsTx × ServerMessage)) :
    (w.posted msgs).sfu = msgs.foldl (fun st m => st.wsTrySend m.1 m.2) w.sfu := by
  induction msgs generalizing w with
  | nil => rfl
  | cons m msgs ih => exact ih (w.wsSendOrDrop m.1 m.2)

/-- Sending touches nothing but the outboxes. -/
theorem posted_eq (msgs : List (WsTx × ServerMessage)) :
    w.posted msgs = { w with sfu := (w.posted msgs).sfu } := by
  induction msgs generalizing w with
  | nil => rfl
  | cons m msgs ih => exact ih (w.wsSendOrDrop m.1 m.2)

@[simp] theorem app_posted (msgs : List (WsTx × ServerMessage)) : (w.posted msgs).app = w.app := by
  rw [posted_eq]

@[simp] theorem handlers_posted (msgs : List (WsTx × ServerMessage)) :
    (w.posted msgs).handlers = w.handlers := by
  rw [posted_eq]

@[simp] theorem published_posted (msgs : List (WsTx × ServerMessage)) :
    (w.posted msgs).published = w.published := by
  rw [posted_eq]

end Posted

/-! ### Every step is a turn -/

section Steps

variable {c : WsTx} {h : Handler} {a : Act}

theorem acts_setPhase {w₁ : Service S} {h' : Handler} {phase : Phase}
    {msgs : List (WsTx × ServerMessage)} (hc : w.handlers c = some h)
    (hhandlers : w₁.handlers = w.handlers) (hws : w₁.sfu.ws = (w.posted msgs).sfu.ws) :
    w.Acts c h { h' with phase := phase } msgs (w₁.setPhase c h' phase) := by
  refine ⟨hc, ?_, fun tx _ => congrFun hws tx⟩
  rw [setPhase, hhandlers]

theorem acts_finish {w₁ : Service S} (hc : w.handlers c = some h)
    (hhandlers : w₁.handlers = w.handlers) (hws : w₁.sfu.ws = w.sfu.ws) :
    w.Acts c h { h with phase := .done } [] (w₁.finish c h) := by
  refine ⟨hc, by rw [finish, setPhase, hhandlers], fun tx htx => ?_⟩
  have hne : tx ≠ c := htx.resolve_right fun hdone => hdone rfl
  rw [finish]
  exact (Function.update_of_ne hne _ _).trans (congrFun hws tx)

/-- A handler that goes on in its phase. -/
theorem acts_stay {w₁ : Service S} {msgs : List (WsTx × ServerMessage)}
    (hc : w.handlers c = some h) (hhandlers : w₁.handlers = w.handlers)
    (hws : w₁.sfu.ws = (w.posted msgs).sfu.ws) :
    w.Acts c h { h with phase := h.phase } msgs w₁ := by
  refine ⟨hc, ?_, fun tx _ => congrFun hws tx⟩
  rw [hhandlers, Function.update_eq_self_iff.mpr hc.symm]

theorem sfuSendOrDrop_eq (w : Service S) (sender : Option WsTx) (cmd : SfuCommand) :
    w.sfuSendOrDrop cfg sender cmd =
      { w with queue := (w.sfuSendOrDrop cfg sender cmd).queue } := by
  rw [sfuSendOrDrop]
  split <;> rfl

theorem turn_of_sent (w : Service S) (sender : Option WsTx) (cmd : SfuCommand) :
    Turn cfg w a (w.sfuSendOrDrop cfg sender cmd) := by
  rw [sfuSendOrDrop_eq]
  exact .idle ⟨rfl, rfl, rfl⟩ rfl

/-- A change of a slot, with what the others are told. -/
theorem broadcastExcept_eq (w : Service S) (sid : SessionId) (pid : ParticipantId)
    (f : Participant → Participant) (msg : ServerMessage) :
    (w.modifySlot sid pid f).broadcastExcept sid pid msg =
      (w.modifySlot sid pid f).posted (w.toOthers sid pid msg) := by
  have hlookup : (w.modifySlot sid pid f).app.sessions.lookup sid = (w.app.sessions.lookup sid).map
      fun s => { s with participants := s.participants.modify pid f } := by
    rw [modifySlot, Dict.lookup_modify, if_pos rfl]
  rw [broadcastExcept, hlookup, toOthers]
  cases w.app.sessions.lookup sid with
  | none => rfl
  | some s =>
    dsimp only [Option.map_some]
    rw [broadcast_eq, Dict.erase_modify]

theorem turn_onMessage (hc : w.running? c = some h) (msg : ClientMessage) :
    Turn cfg w (.receive c msg) (w.onMessage cfg c h msg) := by
  obtain ⟨hcs, hrunning⟩ := Option.filter_eq_some_iff.mp hc
  have hphase : h.phase = .running := of_decide_eq_true hrunning
  cases msg with
  | join sdpOffer =>
    dsimp only [onMessage]
    rw [sfuSendOrDrop_eq]
    exact .goes (hphase ▸ .joins) (acts_setPhase hcs rfl rfl) (by rw [hphase]; nofun) rfl rfl
  | answer sdpAnswer => exact turn_of_sent w _ _
  | iceCandidate candidate sdpMid => exact turn_of_sent w _ _
  | publishTrack source kind =>
    dsimp only [onMessage]
    split
    · exact turn_of_sent w _ _
    · exact .idle ⟨rfl, rfl, rfl⟩ rfl
  | offer sdpOffer => exact turn_of_sent w _ _
  | muteChanged kind muted =>
    have halters : Alters h h.phase (muteSlot kind muted) [.participantMuted h.pid kind muted]
        (.muted kind muted) := hphase ▸ .mutes kind muted
    dsimp only [onMessage]
    rw [broadcastExcept_eq]
    refine .alters halters (acts_setPhase hcs ?_ ?_) (app_posted _ _) (published_posted _ _) ?_
    · exact handlers_posted _ _
    · rw [sfu_posted, sfu_posted, List.flatMap_singleton]
      rfl
    · rw [sent, hc, List.flatMap_singleton]
  | deafenChanged deafened =>
    have halters : Alters h h.phase (fun p => { p with deafened := deafened })
        [.participantDeafened h.pid deafened] h.phase := hphase ▸ .deafens deafened
    dsimp only [onMessage]
    rw [broadcastExcept_eq]
    refine .alters halters (acts_stay hcs ?_ ?_) (app_posted _ _) (published_posted _ _) ?_
    · exact handlers_posted _ _
    · rw [sfu_posted, sfu_posted, List.flatMap_singleton]
      rfl
    · rw [sent, hc, List.flatMap_singleton]
  | leave =>
    dsimp only [onMessage]
    rw [sfuSendOrDrop_eq]
    exact .goes (hphase ▸ .hangsUp) (acts_setPhase hcs rfl rfl) (by rw [hphase]; nofun) rfl rfl

theorem publish_eq {event : ℤ → NatsEvent} (w : Service S) (uid : Option ℤ) :
    w.publish cfg uid event = { w with published := (w.publish cfg uid event).published } := by
  unfold publish
  split
  · split <;> rfl
  · rfl

theorem turn_register (hc : w.handlers c = some h) (hphase : h.phase = .located) :
    Turn cfg w (.advance c) (w.register c h) := by
  rw [register]
  split
  · exact .goes (hphase ▸ .gone) (acts_finish hc rfl rfl) (by rw [hphase]; nofun) rfl rfl
  · rename_i s hs
    have hposted : (s.participants.values.flatMap presence).foldl
        (fun w msg => w.wsSendOrDrop c msg) w =
        w.posted ((s.participants.values.flatMap presence).map (c, ·)) := by
      rw [posted, List.foldl_map]
    dsimp only
    rw [hposted, broadcast_eq, ← posted_append]
    refine .registers hphase hs (acts_setPhase hc ?_ ?_) ?_ ?_
    · exact handlers_posted w _
    · rfl
    · dsimp only [setPhase, setSession]
      rw [app_posted]
      rfl
    · exact published_posted w _

theorem turn_release (hc : w.handlers c = some h) (hphase : h.phase = .releasing) :
    Turn cfg w (.advance c) ((w.release c h).setPhase c h .farewell) := by
  have hpasses : w.owns c h = false →
      Turn cfg w (.advance c) (w.setPhase c h .farewell) := fun howns =>
    .goes (hphase ▸ .passes) (acts_setPhase hc rfl rfl) (fun _ => howns) rfl rfl
  rw [release]
  split
  · rename_i hs
    exact hpasses (by rw [owns, slot?, hs]; rfl)
  · rename_i s hs
    have howns : w.owns c h = (s.participants.lookup h.pid).any fun p => decide (p.wsTx = c) := by
      rw [owns, slot?, hs, Option.bind_some]
    split
    · rename_i hours
      dsimp only
      rw [broadcast_eq]
      refine .releases hphase (howns.trans hours) hs ?_ ?_ ?_
      · refine acts_setPhase hc ?_ ?_
        · split <;> exact handlers_posted _ _
        · have hws : ((w.setSession h.sid { s with participants := s.participants.erase h.pid }).posted
              (toAll (s.participants.erase h.pid) (.participantLeft h.pid h.userId))).sfu =
              (w.posted (toAll (s.participants.erase h.pid)
                (.participantLeft h.pid h.userId))).sfu := by
            rw [sfu_posted, sfu_posted]
            rfl
          split <;> rw [hws]
      · dsimp only [setPhase]
        split
        · rw [app_posted]
          rfl
        · rw [app_posted]
      · dsimp only [setPhase]
        split <;> exact published_posted _ _
    · rename_i hours
      exact hpasses (howns.trans (Bool.eq_false_iff.mpr hours))

theorem turn_advance (hc : w.handlers c = some h) :
    Turn cfg w (.advance c) (w.advance cfg c h) := by
  have hpublishes {event : ℤ → NatsEvent} {phase : Phase} (hs : Tells h h.phase event phase) :
      Turn cfg w (.advance c) ((w.publish cfg h.userSnowflake event).setPhase c h phase) := by
    refine .publishes hs (acts_setPhase hc ?_ ?_) ?_ rfl
    · rw [publish_eq]
    · rw [publish_eq]
      rfl
    · dsimp only [setPhase]
      rw [publish_eq]
  unfold advance
  split
  · rename_i hphase
    split
    · exact .goes (hphase ▸ .notFound) (acts_finish hc rfl rfl) (by rw [hphase]; nofun) rfl rfl
    · rename_i s hs
      exact .locates hphase hs ⟨hc, rfl, fun _ _ => rfl⟩ rfl rfl
  · rename_i hphase
    exact turn_register hc hphase
  · rename_i hphase
    exact hpublishes (hphase ▸ .came)
  · exact .idle ⟨rfl, rfl, rfl⟩ rfl
  · rename_i hphase
    have halters : Alters h h.phase (fun p => { p with state := .connected }) [] .running :=
      hphase ▸ .connects
    exact .alters halters (acts_setPhase hc rfl rfl) rfl rfl (by simp only [sent, hc, hphase]; rfl)
  · rename_i kind muted hphase
    have hmutes : Tells h h.phase (fun uid => .mute h.hubId uid kind muted) .running :=
      hphase ▸ .mutes kind muted
    exact hpublishes hmutes
  · rename_i hphase
    rw [sfuSendOrDrop_eq]
    exact .goes (hphase ▸ .leaves) (acts_setPhase hc rfl rfl) (by rw [hphase]; nofun) rfl rfl
  · rename_i hphase
    exact turn_release hc hphase
  · rename_i hphase
    have hleft : Tells h h.phase (fun uid => .occupancy h.hubId uid none h.sid) .done :=
      hphase ▸ .left
    refine .publishes hleft (acts_finish hc ?_ ?_) ?_ ?_
    · rw [publish_eq]
    · rw [publish_eq]
    · dsimp only [finish, setPhase]
      rw [publish_eq]
    · rfl
  · exact .idle ⟨rfl, rfl, rfl⟩ rfl

/-- **Every step of the service is a turn of one of these kinds.** -/
theorem turn_of_step (hstep : Step cfg w a w') : Turn cfg w a w' := by
  have hidle : Turn cfg w a w := .idle ⟨rfl, rfl, rfl⟩ rfl
  cases hstep with
  | rehash hr => exact .works ⟨rfl, rfl, rfl⟩ (.rehash hr) nofun nofun
  | next =>
    cases a with
    | createSession channelId hubId sid =>
      dsimp only [next, createSession]
      split
      · exact hidle
      · rename_i hnone
        exact .creates hnone rfl
    | connect c sid userId userSnowflake random =>
      dsimp only [next, connect]
      split
      · exact hidle
      · rename_i hnone
        exact .connects rfl hnone rfl rfl
    | advance c =>
      dsimp only [next]
      split
      · exact hidle
      · rename_i h hc
        exact turn_advance hc
    | receive c msg =>
      dsimp only [next]
      split
      · exact hidle
      · rename_i h hc
        exact turn_onMessage hc msg
    | invalid c error =>
      dsimp only [next]
      split
      · exact hidle
      · exact .complains ⟨rfl, rfl, rfl⟩ rfl
    | deliver c =>
      dsimp only [next]
      split
      · exact hidle
      · exact .delivers ⟨rfl, rfl, rfl⟩ rfl
    | hangUp c =>
      dsimp only [next]
      split
      · exact hidle
      · rename_i h hc
        obtain ⟨hcs, hrunning⟩ := Option.filter_eq_some_iff.mp hc
        have hphase : h.phase = .running := of_decide_eq_true hrunning
        exact .goes (hphase ▸ .hangsUp) (acts_setPhase hcs rfl rfl) (by rw [hphase]; nofun) rfl rfl
    | datagram source data ufrag =>
      dsimp only [next, dispatch]
      split
      · exact turn_of_sent w _ _
      · split
        · exact hidle
        · rw [sfuSendOrDrop_eq]
          exact .idle ⟨rfl, rfl, rfl⟩ rfl
    | handle creds now fuel =>
      dsimp only [next]
      split
      · exact hidle
      · rename_i e rest _
        exact .works (i := .command e.cmd creds now fuel) ⟨rfl, rfl, rfl⟩ (.next _ _) nofun nofun
    | tick now fuel =>
      exact .works (i := .tick now fuel) ⟨rfl, rfl, rfl⟩ (.next _ _) nofun nofun
    | flush now pollFuel fuel =>
      exact .works (i := .flush now pollFuel fuel) ⟨rfl, rfl, rfl⟩ (.next _ _) nofun nofun
    | negotiate => exact .works (i := .negotiate) ⟨rfl, rfl, rfl⟩ (.next _ _) nofun nofun
    | rehash => exact hidle

/-! ### Where the handlers are -/

theorem Goes.next {phase phase' : Phase} (h : Goes phase phase') : phase.Next phase' := by
  cases h with
  | notFound => exact .notFound
  | gone => exact .gone
  | joins => exact .joins
  | hangsUp => exact .hangsUp
  | leaves => exact .leaves
  | passes => exact .releases

theorem Tells.next {phase phase' : Phase} {event : ℤ → NatsEvent}
    (htells : Tells h phase event phase') : phase.Next phase' := by
  cases htells with
  | came => exact .came
  | mutes kind muted => exact .tells kind muted
  | left => exact .left

theorem Alters.next {phase phase' : Phase} {f : Participant → Participant}
    {msgs : List ServerMessage} (halters : Alters h phase f msgs phase') : phase.Next phase' := by
  cases halters with
  | connects => exact .connects
  | mutes kind muted => exact .mutes kind muted
  | deafens => exact .stays

/-- **The handlers in a turn**: at most one comes or goes on. -/
theorem handlers_of_turn (hturn : Turn cfg w a w') : w'.handlers = w.handlers ∨
    ∃ c h', w'.handlers = Function.update w.handlers c (some h') ∧
      (connected? a = some c ∧ w.handlers c = none ∧ h'.phase = .connecting ∨
        ∃ h, w.handlers c = some h ∧ h.Moves h') := by
  have hmoves {c : WsTx} {h : Handler} {phase : Phase} {msgs : List (WsTx × ServerMessage)}
      (hacts : w.Acts c h { h with phase := phase } msgs w') (hnext : h.phase.Next phase) :
      w'.handlers = w.handlers ∨ ∃ c h', w'.handlers = Function.update w.handlers c (some h') ∧
        (connected? a = some c ∧ w.handlers c = none ∧ h'.phase = .connecting ∨
          ∃ h, w.handlers c = some h ∧ h.Moves h') :=
    .inr ⟨c, _, hacts.handlers, .inr ⟨h, hacts.was, hnext, rfl, rfl, rfl, rfl, .inr ⟨rfl, rfl⟩⟩⟩
  cases hturn with
  | idle hapart => exact .inl hapart.handlers
  | works hapart => exact .inl hapart.handlers
  | delivers hapart => exact .inl hapart.handlers
  | complains hapart => exact .inl hapart.handlers
  | creates _ heq => exact .inl (by rw [heq])
  | connects ha hnone hphase heq => exact .inr ⟨_, _, by rw [heq], .inl ⟨ha, hnone, hphase⟩⟩
  | locates hphase _ hacts =>
    refine .inr ⟨_, _, hacts.handlers, .inr ⟨_, hacts.was, ?_, rfl, rfl, rfl, rfl, .inl hphase⟩⟩
    rw [hphase]
    exact .locates
  | goes hgoes hacts => exact hmoves hacts hgoes.next
  | publishes htells hacts => exact hmoves hacts htells.next
  | alters halters hacts => exact hmoves hacts halters.next
  | registers hphase _ hacts => exact hmoves hacts (hphase ▸ .registers)
  | releases hphase _ _ hacts => exact hmoves hacts (hphase ▸ .releases)

/-- Where the handler of a connection was before a turn. -/
theorem handler_back (hturn : Turn cfg w a w') {h' : Handler} (hc : w'.handlers c = some h') :
    w.handlers c = some h' ∨
      connected? a = some c ∧ w.handlers c = none ∧ h'.phase = .connecting ∨
      ∃ h, w.handlers c = some h ∧ h.Moves h' := by
  rcases handlers_of_turn hturn with hsame | ⟨c₀, h₀, hupdate, hmoves⟩
  · exact .inl (hsame ▸ hc)
  · rw [hupdate] at hc
    rcases eq_or_ne c c₀ with rfl | hne
    · rw [Function.update_self] at hc
      obtain rfl := Option.some.inj hc
      exact .inr hmoves
    · rw [Function.update_of_ne hne] at hc
      exact .inl hc

/-- Where the handler of a connection is after a turn. -/
theorem handler_on (hturn : Turn cfg w a w') (hc : w.handlers c = some h) :
    w'.handlers c = some h ∨ ∃ h', w'.handlers c = some h' ∧ h.Moves h' := by
  rcases handlers_of_turn hturn with hsame | ⟨c₀, h₀, hupdate, hmoves⟩
  · exact .inl (hsame ▸ hc)
  · rw [hupdate]
    rcases eq_or_ne c c₀ with rfl | hne
    · rcases hmoves with ⟨-, hnone, -⟩ | ⟨h₁, hc₁, hmoves⟩
      · rw [hc] at hnone
        cases hnone
      · obtain rfl := Option.some.inj (hc.symm.trans hc₁)
        exact .inr ⟨h₀, Function.update_self .., hmoves⟩
    · exact .inl ((Function.update_of_ne hne _ _).trans hc)

/-- Who has not connected has no handler. -/
theorem handlers_foldl {as : List Act} (hnone : w.handlers c = none)
    (has : (as.all fun a => decide (connected? a ≠ some c)) = true) :
    (as.foldl (Service.next cfg) w).handlers c = none := by
  induction as generalizing w with
  | nil => exact hnone
  | cons a as ih =>
    rw [List.all_cons, Bool.and_eq_true, decide_eq_true_eq] at has
    refine ih ?_ has.2
    rw [Option.eq_none_iff_forall_ne_some]
    intro h' hc'
    have hstep : Step cfg w a (w.next cfg a) := .next w a
    rcases handler_back (turn_of_step hstep) hc' with hc | ⟨ha, -⟩ | ⟨h, hc, -⟩
    · rw [hnone] at hc
      cases hc
    · exact has.1 ha
    · rw [hnone] at hc
      cases hc

/-! ### Whose a slot is -/

/-- A handler that owns a slot after a step has owned it before, or registers. -/
theorem owns_back (hturn : Turn cfg w a w') (howns : w'.owns c h = true) :
    w.owns c h = true ∨
      (∃ h₀, w.handlers c = some h₀ ∧ h₀.phase = .located) ∧
        ∃ h', w'.handlers c = some h' ∧ h'.phase = .registered := by
  obtain ⟨p, hslot, hp⟩ := (Option.any_eq_true _ _).mp howns
  obtain ⟨s', hs', hp'⟩ := Option.bind_eq_some_iff.mp hslot
  have hown {s : Session} {p : Participant} (hs : w.app.sessions.lookup h.sid = some s)
      (hp' : s.participants.lookup h.pid = some p) (hp : decide (p.wsTx = c) = true) :
      w.owns c h = true := by
    rw [owns, slot?, hs, Option.bind_some, hp']
    exact hp
  cases hturn with
  | idle hapart => exact .inl (hown (hapart.app ▸ hs') hp' hp)
  | works hapart => exact .inl (hown (hapart.app ▸ hs') hp' hp)
  | delivers hapart => exact .inl (hown (hapart.app ▸ hs') hp' hp)
  | complains hapart => exact .inl (hown (hapart.app ▸ hs') hp' hp)
  | creates _ heq =>
    rw [heq, Dict.lookup_insert_eq] at hs'
    split at hs'
    · obtain rfl := Option.some.inj hs'
      cases hp'
    · exact .inl (hown hs' hp' hp)
  | connects _ _ _ heq =>
    rw [heq] at hs'
    exact .inl (hown hs' hp' hp)
  | locates _ _ _ happ => exact .inl (hown (happ ▸ hs') hp' hp)
  | goes _ _ _ happ => exact .inl (hown (happ ▸ hs') hp' hp)
  | publishes _ _ happ => exact .inl (hown (happ ▸ hs') hp' hp)
  | @alters _ _ h₀ f _ _ _ halters _ happ =>
    have hwsTx (p : Participant) : (f p).wsTx = p.wsTx := halters.wsTx p
    rw [happ, modifySlot, Dict.lookup_modify] at hs'
    split at hs'
    · obtain ⟨s, hs, rfl⟩ := Option.map_eq_some_iff.mp hs'
      rw [Dict.lookup_modify] at hp'
      split at hp'
      · obtain ⟨p₀, hp₀, rfl⟩ := Option.map_eq_some_iff.mp hp'
        exact .inl (hown hs hp₀ (hwsTx p₀ ▸ hp))
      · exact .inl (hown hs hp' hp)
    · exact .inl (hown hs' hp' hp)
  | @registers c₀ h₀ s _ hphase hs hacts happ =>
    rw [happ, setSession, Dict.lookup_insert_eq] at hs'
    split at hs'
    · rename_i hsid
      obtain rfl := Option.some.inj hs'
      rw [Dict.lookup_insert_eq] at hp'
      split at hp'
      · obtain rfl := Option.some.inj hp'
        obtain rfl : c₀ = c := of_decide_eq_true hp
        refine .inr ⟨⟨h₀, hacts.was, hphase⟩, ?_⟩
        rw [hacts.handlers]
        exact ⟨_, Function.update_self .., rfl⟩
      · exact .inl (hown (hsid ▸ hs) hp' hp)
    · exact .inl (hown hs' hp' hp)
  | @releases c₀ h₀ s _ _ _ hs _ happ =>
    have hback (hs' : (w.app.sessions.insert h₀.sid { s with
        participants := s.participants.erase h₀.pid }).lookup h.sid = some s') :
        w.owns c h = true := by
      rw [Dict.lookup_insert_eq] at hs'
      split at hs'
      · rename_i hsid
        obtain rfl := Option.some.inj hs'
        rw [Dict.lookup_erase_eq] at hp'
        split at hp'
        · cases hp'
        · exact hown (hsid ▸ hs) hp' hp
      · exact hown hs' hp' hp
    rw [happ] at hs'
    split at hs'
    · dsimp only at hs'
      rw [Dict.lookup_erase_eq] at hs'
      split at hs'
      · cases hs'
      · exact .inl (hback hs')
    · exact .inl (hback hs')

end Steps

end Service

end Video

end MateHub
