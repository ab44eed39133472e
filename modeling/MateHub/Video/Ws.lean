import MateHub.Video.Sfu.Loop

/-!
# The WebSocket handlers of the video service

One `handle_ws` runs per WebSocket. It registers a slot in the session state that
the REST API shows, forwards what its client sends to the SFU, and cleans up when
the connection ends. The handlers share that state, which a lock protects, and one
bounded queue of commands to each shard of the SFU; a handler is therefore a machine
whose steps are the stretches of `handle_ws` between two points where others may
run, and the service is all handlers, the shared state, the queue and a shard, taking
steps in any order.

The identity of a handler is that of its outbound channel, the `ws_tx` it puts in
its slot and hands to the SFU. A command in the queue is kept with the handler that
sent it; nothing in the service reads that mark.
-/

namespace MateHub

namespace Video

/-! ### The shared state -/

/-- `ParticipantState` -/
inductive ParticipantState
  | connecting
  | connected
  deriving DecidableEq, Repr

/-- The slot of a participant in the state behind the REST API. -/
structure Participant where
  id : ParticipantId
  userId : String
  state : ParticipantState
  wsTx : WsTx
  videoMuted : Bool
  audioMuted : Bool
  deafened : Bool
  deriving DecidableEq, Repr

/-- A session of the app state. -/
structure Session where
  id : SessionId
  channelId : ChannelId
  hubId : HubId
  participants : Dict ParticipantId Participant

/-- `AppStateInner`. -/
structure AppState where
  sessions : Dict SessionId Session
  channelToSession : Dict ChannelId SessionId

/-- An event published for the hub: a user's voice channel, `none` for left, or an
audio or video mute. -/
inductive NatsEvent
  | occupancy (hubId : HubId) (userId : ℤ) (channelId : Option ChannelId) (callId : SessionId)
  | mute (hubId : HubId) (userId : ℤ) (kind : String) (muted : Bool)
  deriving DecidableEq, Repr

/-! ### The handlers -/

/-- Where a handler stands in `handle_ws`. -/
inductive Phase
  /-- Before it looks its session up. -/
  | connecting
  /-- Before it registers its slot. -/
  | located
  /-- Before it publishes that the user is in the channel. -/
  | registered
  /-- In the loop. -/
  | running
  /-- In the loop: the Join is sent, the slot is to be marked connected. -/
  | joined
  /-- In the loop: a mute is to be published. -/
  | muted (kind : String) (muted : Bool)
  /-- The loop is over, the Leave is to be sent. -/
  | leaving
  /-- The slot is to be released. -/
  | releasing
  /-- It is to be published that the user has left. -/
  | farewell
  | done
  deriving DecidableEq, Repr

/-- The handler of a WebSocket, with the step it has come to. -/
structure Handler where
  sid : SessionId
  pid : ParticipantId
  userId : String
  /-- The user id as a number, if it is one. -/
  userSnowflake : Option ℤ
  channelId : ChannelId
  hubId : HubId
  phase : Phase
  deriving DecidableEq, Repr

/-- What the service is configured with: `Uuid::new_v5`, the size of the SFU's
command queue, and whether NATS is reachable. -/
structure Config where
  uuidV5 : SessionId → String → Uuid
  cmdBuffer : ℕ
  nats : Bool

/-- `derive_participant_id`, with the random identifier it would draw. -/
def Config.deriveParticipantId (cfg : Config) (sid : SessionId) (userId : String) (random : Uuid) :
    ParticipantId :=
  if userId = "anonymous" then random else cfg.uuidV5 sid userId

/-- A command in the queue, with the handler that sent it. -/
structure Queued where
  sender : Option WsTx
  cmd : SfuCommand
  deriving DecidableEq, Repr

/-- The video service: its handlers, and what they share. -/
structure Service (S : Str0m) where
  app : AppState
  handlers : WsTx → Option Handler
  queue : List Queued
  sfu : SfuShard S
  published : List NatsEvent

namespace Service

variable {S : Str0m} (cfg : Config)

/-- A service that has just been started. -/
def new (candidateAddrs : List SocketAddr) (zombieTimeout : Duration) : Service S where
  app := ⟨∅, ∅⟩
  handlers := fun _ => none
  queue := []
  sfu := .new 0 candidateAddrs zombieTimeout
  published := []

/-! ### What the steps are made of -/

/-- `ws_send_or_drop`. -/
def wsSendOrDrop (w : Service S) (tx : WsTx) (msg : ServerMessage) : Service S :=
  { w with sfu := w.sfu.wsTrySend tx msg }

/-- `sfu_send_or_drop`: a full queue drops the command. -/
def sfuSendOrDrop (w : Service S) (sender : Option WsTx) (cmd : SfuCommand) : Service S :=
  if w.queue.length < cfg.cmdBuffer then { w with queue := w.queue ++ [⟨sender, cmd⟩] } else w

/-- `publish_occupancy` and `publish_mute`, where NATS is there and the user has a
number. -/
def publish (w : Service S) (userSnowflake : Option ℤ) (event : ℤ → NatsEvent) : Service S :=
  match userSnowflake with
  | some uid => if cfg.nats then { w with published := w.published ++ [event uid] } else w
  | none => w

/-- A handler goes on to a phase. -/
def setPhase (w : Service S) (c : WsTx) (h : Handler) (phase : Phase) : Service S :=
  { w with handlers := Function.update w.handlers c (some { h with phase := phase }) }

/-- A handler returns, and the receiving end of its channel goes. -/
def finish (w : Service S) (c : WsTx) (h : Handler) : Service S :=
  { w.setPhase c h .done with sfu := w.sfu.next (.close c) }

/-- A session of the app state is written. -/
def setSession (w : Service S) (sid : SessionId) (s : Session) : Service S :=
  { w with app := { w.app with sessions := w.app.sessions.insert sid s } }

/-! ### Coming in -/

/-- `create_session`: at most one session per channel. -/
def createSession (w : Service S) (channelId : ChannelId) (hubId : HubId) (sid : SessionId) :
    Service S :=
  match w.app.channelToSession.lookup channelId with
  | some _ => w
  | none =>
    { w with app :=
        { sessions := w.app.sessions.insert sid ⟨sid, channelId, hubId, ∅⟩
          channelToSession := w.app.channelToSession.insert channelId sid } }

/-- A WebSocket is accepted: a handler starts, with a channel of its own. -/
def connect (w : Service S) (c : WsTx) (sid : SessionId) (userId : String)
    (userSnowflake : Option ℤ) (random : Uuid) : Service S :=
  match w.handlers c with
  | some _ => w
  | none =>
    { w with handlers := Function.update w.handlers c (some
        { sid := sid
          pid := cfg.deriveParticipantId sid userId random
          userId := userId
          userSnowflake := userSnowflake
          channelId := 0
          hubId := 0
          phase := .connecting }) }

/-- What a newcomer is told about a participant that is there: a mute state is sent
only where it is not the default of the client. -/
def presence (p : Participant) : List ServerMessage :=
  .participantJoined p.id p.userId ::
    ((if p.videoMuted then [] else [.participantMuted p.id "video" false]) ++
      (if p.audioMuted then [] else [.participantMuted p.id "audio" false]) ++
      if p.deafened then [.participantDeafened p.id true] else [])

/-- A message to everyone registered in the session. -/
def broadcast (w : Service S) (ps : Dict ParticipantId Participant) (msg : ServerMessage) :
    Service S :=
  ps.values.foldl (fun w p => w.wsSendOrDrop p.wsTx msg) w

/-- Registers the slot of the participant, over an older one of the same id. -/
def register (w : Service S) (c : WsTx) (h : Handler) : Service S :=
  match w.app.sessions.lookup h.sid with
  | none => w.finish c h
  | some s =>
    let w := (s.participants.values.flatMap presence).foldl (fun w msg => w.wsSendOrDrop c msg) w
    let w := w.broadcast s.participants (.participantJoined h.pid h.userId)
    (w.setSession h.sid { s with
      participants := s.participants.insert h.pid
        { id := h.pid
          userId := h.userId
          state := .connecting
          wsTx := c
          videoMuted := true
          audioMuted := true
          deafened := false } }).setPhase c h .registered

/-! ### In the loop -/

/-- Updates the slot of a participant, if there is one. -/
def modifySlot (w : Service S) (sid : SessionId) (pid : ParticipantId)
    (f : Participant → Participant) : Service S :=
  { w with app := { w.app with sessions := w.app.sessions.modify sid fun s =>
      { s with participants := s.participants.modify pid f } } }

/-- A message to everyone registered in the session but one. -/
def broadcastExcept (w : Service S) (sid : SessionId) (pid : ParticipantId) (msg : ServerMessage) :
    Service S :=
  match w.app.sessions.lookup sid with
  | none => w
  | some s => w.broadcast (s.participants.erase pid) msg

/-- The sources and kinds a `publish_track` may name. -/
def parseSource : String → Option Source
  | "camera" => some .camera
  | "screen" => some .screen
  | _ => none

/-- The kind of a track, as messages name it. -/
def parseKind : String → Option MediaKind
  | "audio" => some .audio
  | "video" => some .video
  | _ => none

/-- The slot after a mute change. -/
def muteSlot (kind : String) (muted : Bool) (p : Participant) : Participant :=
  if kind = "video" then { p with videoMuted := muted }
  else if kind = "audio" then { p with audioMuted := muted }
  else p

/-- A message of the client. -/
def onMessage (w : Service S) (c : WsTx) (h : Handler) : ClientMessage → Service S
  | .join sdpOffer =>
    (w.sfuSendOrDrop cfg (some c) (.join h.sid h.pid h.userId sdpOffer c)).setPhase c h .joined
  | .answer sdpAnswer => w.sfuSendOrDrop cfg (some c) (.answer h.sid h.pid sdpAnswer)
  | .iceCandidate candidate sdpMid =>
    w.sfuSendOrDrop cfg (some c) (.iceCandidate h.sid h.pid candidate sdpMid)
  | .publishTrack source kind =>
    match parseSource source, parseKind kind with
    | some source, some kind => w.sfuSendOrDrop cfg (some c) (.publishTrack h.sid h.pid source kind)
    | _, _ => w
  | .offer sdpOffer => w.sfuSendOrDrop cfg (some c) (.clientOffer h.sid h.pid sdpOffer)
  | .muteChanged kind muted =>
    ((w.modifySlot h.sid h.pid (muteSlot kind muted)).broadcastExcept h.sid h.pid
      (.participantMuted h.pid kind muted)).setPhase c h (.muted kind muted)
  | .deafenChanged deafened =>
    (w.modifySlot h.sid h.pid fun p => { p with deafened := deafened }).broadcastExcept h.sid h.pid
      (.participantDeafened h.pid deafened)
  | .leave => (w.sfuSendOrDrop cfg (some c) (.leave h.sid h.pid)).setPhase c h .leaving

/-! ### Going out -/

/-- Releases the slot, if it is still this handler's: after a reconnect it belongs to
another one. -/
def release (w : Service S) (c : WsTx) (h : Handler) : Service S :=
  match w.app.sessions.lookup h.sid with
  | none => w
  | some s =>
    if ((s.participants.lookup h.pid).any fun p => p.wsTx = c) then
      let participants := s.participants.erase h.pid
      let w := (w.setSession h.sid { s with participants := participants }).broadcast participants
        (.participantLeft h.pid h.userId)
      if Dict.isEmpty participants then
        { w with app :=
            { sessions := w.app.sessions.erase h.sid
              channelToSession := w.app.channelToSession.erase s.channelId } }
      else w
    else w

/-- The next stretch of a handler that is not waiting in its loop. -/
def advance (w : Service S) (c : WsTx) (h : Handler) : Service S :=
  match h.phase with
  | .connecting =>
    match w.app.sessions.lookup h.sid with
    | none => w.finish c h
    | some s => w.setPhase c { h with channelId := s.channelId, hubId := s.hubId } .located
  | .located => w.register c h
  | .registered =>
    (w.publish cfg h.userSnowflake fun uid =>
      .occupancy h.hubId uid (some h.channelId) h.sid).setPhase c h .running
  | .running => w
  | .joined =>
    (w.modifySlot h.sid h.pid fun p => { p with state := .connected }).setPhase c h .running
  | .muted kind muted =>
    (w.publish cfg h.userSnowflake fun uid => .mute h.hubId uid kind muted).setPhase c h .running
  | .leaving => (w.sfuSendOrDrop cfg (some c) (.leave h.sid h.pid)).setPhase c h .releasing
  | .releasing => (w.release c h).setPhase c h .farewell
  | .farewell =>
    (w.publish cfg h.userSnowflake fun uid => .occupancy h.hubId uid none h.sid).finish c h
  | .done => w

/-! ### The dispatcher -/

/-- Remembers whom the datagrams of a source address are for. -/
def learn (w : Service S) (source : SocketAddr) (t : ShardTarget) : Service S :=
  { w with sfu := { w.sfu with sharedMaps := { w.sfu.sharedMaps with
      addrToTarget := w.sfu.sharedMaps.addrToTarget.insert source t } } }

/-- A datagram arrives. It is routed by its source address, or, the first time, by
the ufrag `parse_stun_local_ufrag` finds in it. -/
def dispatch (w : Service S) (source : SocketAddr) (data : List UInt8) (ufrag : Option String) :
    Service S :=
  match w.sfu.sharedMaps.addrToTarget.lookup source with
  | some t => w.sfuSendOrDrop cfg none (.udpInput t.sid t.pid source data)
  | none =>
    match ufrag.bind fun u => w.sfu.sharedMaps.ufragToTarget.lookup u with
    | none => w
    | some t => (w.learn source t).sfuSendOrDrop cfg none (.udpInput t.sid t.pid source data)

/-! ### The transition system -/

/-- Who takes the next step, and what it reads from outside. -/
inductive Act
  | createSession (channelId : ChannelId) (hubId : HubId) (sid : SessionId)
  | connect (c : WsTx) (sid : SessionId) (userId : String) (userSnowflake : Option ℤ) (random : Uuid)
  /-- A handler goes on, outside of its loop. -/
  | advance (c : WsTx)
  /-- A handler in its loop gets a message of its client. -/
  | receive (c : WsTx) (msg : ClientMessage)
  /-- A handler in its loop gets a text that is no message. -/
  | invalid (c : WsTx) (error : String)
  /-- A handler in its loop sends the next message of its channel. -/
  | deliver (c : WsTx)
  /-- The connection closes or fails, or is silent for too long. -/
  | hangUp (c : WsTx)
  | datagram (source : SocketAddr) (data : List UInt8) (ufrag : Option String)
  /-- The shard takes the next command off the queue. -/
  | handle (creds : IceCreds) (now : Instant) (fuel : ℕ)
  | tick (now : Instant) (fuel : ℕ)
  | flush (now : Instant) (pollFuel fuel : ℕ)
  | negotiate
  | rehash

/-- The handler of a WebSocket, if it is in its loop. -/
def running? (w : Service S) (c : WsTx) : Option Handler :=
  (w.handlers c).filter fun h => h.phase = .running

/-- The service after an act. -/
def next (w : Service S) : Act → Service S
  | .createSession channelId hubId sid => w.createSession channelId hubId sid
  | .connect c sid userId userSnowflake random => w.connect cfg c sid userId userSnowflake random
  | .advance c =>
    match w.handlers c with
    | none => w
    | some h => w.advance cfg c h
  | .receive c msg =>
    match w.running? c with
    | none => w
    | some h => w.onMessage cfg c h msg
  | .invalid c error =>
    match w.running? c with
    | none => w
    | some _ => w.wsSendOrDrop c (.error ("invalid message: " ++ error))
  | .deliver c =>
    match w.running? c with
    | none => w
    | some _ => { w with sfu := w.sfu.next (.drain c 1) }
  | .hangUp c =>
    match w.running? c with
    | none => w
    | some h => w.setPhase c h .leaving
  | .datagram source data ufrag => w.dispatch cfg source data ufrag
  | .handle creds now fuel =>
    match w.queue with
    | [] => w
    | e :: rest => { w with queue := rest, sfu := w.sfu.next (.command e.cmd creds now fuel) }
  | .tick now fuel => { w with sfu := w.sfu.next (.tick now fuel) }
  | .flush now pollFuel fuel => { w with sfu := w.sfu.next (.flush now pollFuel fuel) }
  | .negotiate => { w with sfu := w.sfu.next .negotiate }
  | .rehash => w

/-- A step of the service. -/
inductive Step : Service S → Act → Service S → Prop
  | next (w : Service S) (a : Act) : Step w a (w.next cfg a)
  | rehash (w : Service S) {sfu : SfuShard S} : SfuShard.Rehashed w.sfu sfu →
      Step w .rehash { w with sfu := sfu }

/-- The service starts with no session and no connection. -/
def system (S : Str0m) (cfg : Config) : System (Service S) Act where
  init := fun w => ∃ candidateAddrs zombieTimeout, w = .new candidateAddrs zombieTimeout
  step := Step cfg

end Service

end Video

end MateHub
