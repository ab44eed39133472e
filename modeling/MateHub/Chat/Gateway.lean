import Mathlib.Logic.Function.Basic
import MateHub.Chat.Session
import MateHub.Lib.Dict
import MateHub.Lib.Runs

/-!
# The connections of the chat gateway

One `handle_connection` runs per WebSocket. It says hello, waits for an IDENTIFY or a
RESUME, and then serves a session: a new one, or the one that the client had before,
whose buffered events it sends first. A connection is a machine here whose steps are the
stretches between two points where others may run, and the gateway is all connections,
the sessions, and the messages published, taking steps in any order.

Sending is handing a frame to the writer task of the connection, through a channel of
bounded size; it fails when the writer is gone. A session is known by its id. Every
session that was ever created is kept, since connections have handles on it, and
`stored` says which of them the store still has.

Some things are recorded that no code reads: of a session, all that was dispatched in it
(`dispatched`) and how much had been published when it was created (`opened`); of a
connection, the session it has served (`session`), and the `seq` of its RESUME
(`resumedFrom`).
-/

namespace MateHub

namespace Chat

/-- The identity of a WebSocket. -/
abbrev ConnId := ℕ

/-- A message on a NATS subject. -/
structure NatsMsg (D : Type) where
  subject : List Char
  payload : D
  deriving DecidableEq

/-- What the gateway is configured with: the check of tokens, the length of a frame as
JSON, and the payloads of the frames of the handshake. -/
structure Config (D : Type) where
  verifyToken : String → Option Claims
  bytes : GatewayEvent D → ℕ
  null : D
  helloPayload : D
  readyPayload : SessionId → Claims → D
  invalidPayload : D

/-- What the filter of a connection asks `access::check`, and the place of the message in
the order of publication. -/
structure Question where
  origin : ℕ
  hubId : I64
  channelId : I64
  userId : I64
  deriving DecidableEq

/-- A frame in the channel to the writer: one of the handshake, or an event of the
session. -/
inductive Frame (D : Type)
  | control (e : GatewayEvent D)
  | event (e : BufferedEvent D)
  deriving DecidableEq, Repr

/-- Where a connection stands in `handle_connection`. -/
inductive Phase (D : Type)
  | hello
  /-- In `wait_for_auth`. -/
  | auth
  /-- The session is created, READY is to be sent. -/
  | ready (sid : SessionId)
  /-- The session of a RESUME is found. -/
  | found (sid : SessionId) (seq : ℕ)
  /-- The replay is taken from its buffer. -/
  | replayed (sid : SessionId) (replay : List (BufferedEvent D))
  /-- It is marked connected. -/
  | connected (sid : SessionId) (replay : List (BufferedEvent D))
  /-- The replay is being sent, and RESUMED after it. -/
  | replaying (sid : SessionId) (replay : List (BufferedEvent D)) (lastSeq : ℕ)
  /-- In `run_session`, before the subscription. -/
  | subscribing (sid : SessionId) (initialSeq : ℕ)
  /-- In the loop. -/
  | running (sid : SessionId) (seq : ℕ)
  /-- In the loop, an event is buffered and to be sent. -/
  | sending (sid : SessionId) (seq : ℕ) (event : BufferedEvent D)
  /-- After the loop, before the cleanup. -/
  | leaving (sid : SessionId)
  /-- INVALID_SESSION is to be sent. -/
  | rejecting
  | done
  deriving DecidableEq, Repr

/-- A connection to the gateway, with the task that serves it. -/
structure Conn (D : Type) where
  phase : Phase D := .hello
  /-- The subscription: messages with their places in the order of publication. -/
  inbox : List (ℕ × NatsMsg D) := []
  /-- The channel from the filter to the loop. -/
  dispatchQueue : List (ℕ × GatewayEvent D) := []
  /-- The channel to the writer. -/
  out : List (Frame D) := []
  /-- Whether the writer is there. -/
  writer : Bool := true
  /-- What the client has got. -/
  delivered : List (Frame D) := []
  session : Option SessionId := none
  resumedFrom : Option ℕ := none

/-- The loop is left: what waits for it goes with it. -/
def Conn.leave {D : Type} (conn : Conn D) (sid : SessionId) : Conn D :=
  { conn with phase := .leaving sid, inbox := [], dispatchQueue := [] }

/-- The session whose loop a connection is in. -/
def Conn.loop? {D : Type} (conn : Conn D) : Option SessionId :=
  match conn.phase with
  | .running sid _ => some sid
  | .sending sid _ _ => some sid
  | _ => none

/-- The gateway. -/
structure Gateway (D : Type) where
  sessions : SessionId → Option (SessionInner D)
  stored : SessionId → Bool
  conns : Dict ConnId (Conn D)
  clock : Instant
  /-- All messages published, in order. -/
  published : List (NatsMsg D)
  dispatched : SessionId → List (BufferedEvent D)
  opened : SessionId → ℕ

/-- The size of the channels of a connection. -/
def channelSize : ℕ := 256

namespace Gateway

variable {D : Type} (cfg : Config D)

/-- A gateway that has just been started. -/
def new : Gateway D where
  sessions := fun _ => none
  stored := fun _ => false
  conns := ∅
  clock := 0
  published := []
  dispatched := fun _ => []
  opened := fun _ => 0

/-! ### What the steps are made of -/

/-- A connection is written. -/
def setConn (w : Gateway D) (c : ConnId) (conn : Conn D) : Gateway D :=
  { w with conns := w.conns.insert c conn }

/-- A connection goes on to a phase. -/
def setPhase (w : Gateway D) (c : ConnId) (conn : Conn D) (phase : Phase D) : Gateway D :=
  w.setConn c { conn with phase := phase }

/-- Updates a session through a handle. -/
def modifySession (w : Gateway D) (sid : SessionId) (f : SessionInner D → SessionInner D) :
    Gateway D :=
  { w with sessions := Function.update w.sessions sid ((w.sessions sid).map f) }

/-- Hands a frame to the writer and goes on with one phase, or with another if the writer
is gone; waits while the channel is full. -/
def send (w : Gateway D) (c : ConnId) (conn : Conn D) (frame : Frame D)
    (next failed : Phase D) : Gateway D :=
  if !conn.writer then w.setPhase c conn failed
  else if conn.out.length < channelSize then
    w.setConn c { conn with out := conn.out ++ [frame], phase := next }
  else w

/-- The frame a connection is greeted with. -/
def helloFrame : GatewayEvent D := ⟨10, none, none, cfg.helloPayload⟩

/-- The frame that answers an identification. -/
def readyFrame (sid : SessionId) (claims : Claims) : GatewayEvent D :=
  ⟨0, none, some "READY", cfg.readyPayload sid claims⟩

/-- The frame that answers a resumption. -/
def resumedFrame : GatewayEvent D := ⟨0, none, some "RESUMED", cfg.null⟩

/-- The frame that refuses a resumption. -/
def invalidFrame : GatewayEvent D := ⟨9, none, none, cfg.invalidPayload⟩

/-! ### The handshake -/

/-- `SessionStore::create`, under a given id. -/
def create (w : Gateway D) (sid : SessionId) (claims : Claims) (natsSubject : List Char) :
    Gateway D :=
  { w with
    sessions := Function.update w.sessions sid (some (.new claims natsSubject))
    stored := Function.update w.stored sid true
    opened := Function.update w.opened sid w.published.length }

/-- An IDENTIFY: a session is created under a fresh id. -/
def identify (w : Gateway D) (c : ConnId) (conn : Conn D) (token : String) (sid : SessionId) :
    Gateway D :=
  match cfg.verifyToken token with
  | none => w.setPhase c conn .rejecting
  | some claims =>
    match w.sessions sid with
    | some _ => w
    | none =>
      (w.create sid claims (natsSubject claims.hubId)).setConn c
        { conn with phase := .ready sid, session := some sid }

/-- A RESUME looks its session up in the store. -/
def resume (w : Gateway D) (c : ConnId) (conn : Conn D) (sid : SessionId) (seq : ℕ) : Gateway D :=
  if w.stored sid then w.setPhase c conn (.found sid seq) else w.setPhase c conn .rejecting

/-- The RESUME takes its replay. -/
def takeReplay (w : Gateway D) (c : ConnId) (conn : Conn D) (sid : SessionId) (seq : ℕ) :
    Gateway D :=
  match (w.sessions sid).bind fun s => s.replayFrom seq with
  | none => w.setPhase c conn .rejecting
  | some replay =>
    w.setConn c
      { conn with phase := .replayed sid replay, session := some sid, resumedFrom := some seq }

/-- The next stretch of a connection that does not wait for its client, for NATS or for
an event. -/
def advance (w : Gateway D) (c : ConnId) (conn : Conn D) : Gateway D :=
  match conn.phase with
  | .hello => w.send c conn (.control (helloFrame cfg)) .auth .done
  | .auth => w
  | .ready sid =>
    match w.sessions sid with
    | none => w
    | some s => w.send c conn (.control (readyFrame cfg sid s.claims)) (.subscribing sid 0) .done
  | .found sid seq => w.takeReplay c conn sid seq
  | .replayed sid replay =>
    (w.modifySession sid SessionInner.markConnected).setPhase c conn (.connected sid replay)
  | .connected sid replay =>
    w.setPhase c conn (.replaying sid replay (((w.sessions sid).map SessionInner.lastSeq).getD 0))
  | .replaying sid (e :: replay) lastSeq =>
    w.send c conn (.event e) (.replaying sid replay lastSeq) .done
  | .replaying sid [] lastSeq =>
    w.send c conn (.control (resumedFrame cfg)) (.subscribing sid lastSeq) .done
  | .subscribing _ _ => w
  | .running _ _ => w
  | .sending sid seq e =>
    if conn.writer then w.send c conn (.event e) (.running sid seq) .done
    else w.setConn c (conn.leave sid)
  | .leaving sid =>
    (w.modifySession sid fun s => s.markDisconnected w.clock).setPhase c conn .done
  | .rejecting => w.send c conn (.control (invalidFrame cfg)) .done .done
  | .done => w

/-- NATS answers the subscription; if it fails, the writer is aborted. -/
def subscribe (w : Gateway D) (c : ConnId) (conn : Conn D) (ok : Bool) : Gateway D :=
  match conn.phase with
  | .subscribing sid seq =>
    if ok then w.setPhase c conn (.running sid seq)
    else w.setConn c { conn with phase := .done, writer := false }
  | _ => w

/-! ### Serving a session -/

/-- Whether a subscription gets a message. -/
def gets (natsSubject : List Char) (m : NatsMsg D) : Bool :=
  natsMatches (natsSubject.splitOn '.') (m.subject.splitOn '.')

/-- A subscription gets a message if it matches. -/
def receive (w : Gateway D) (m : NatsMsg D) (conn : Conn D) : Conn D :=
  if ((conn.loop?.bind w.sessions).any fun s => gets s.natsSubject m) then
    { conn with inbox := conn.inbox ++ [(w.published.length, m)] }
  else conn

/-- A message is published. -/
def publish (w : Gateway D) (m : NatsMsg D) : Gateway D :=
  { w with
    published := w.published ++ [m]
    conns := Dict.mapVals (fun _ conn => w.receive m conn) w.conns }

/-- What the filter asks `access::check` next: whether the user of the session may read the
channel of the message. -/
def asks? (w : Gateway D) (conn : Conn D) : Option Question :=
  match conn.inbox, conn.loop?.bind w.sessions with
  | (origin, m) :: _, some s =>
    (route m.subject).map fun r => ⟨origin, s.claims.hubId, r.2, s.claims.sub⟩
  | _, _ => none

/-- The event that the filter makes of a message, by the answer of `access::check`: of a
kind that the table knows. -/
def eventOf (allowed : Bool) (m : NatsMsg D) : Option (GatewayEvent D) :=
  match route m.subject with
  | none => none
  | some (t, _) => if allowed then some ⟨0, none, some t, m.payload⟩ else none

/-- The filter takes the next message of the subscription, and goes by the answer of
`access::check`. -/
def forward (w : Gateway D) (c : ConnId) (allowed : Bool) (conn : Conn D) : Gateway D :=
  match conn.inbox, conn.loop?.bind w.sessions with
  | (origin, m) :: rest, some _ =>
    match eventOf allowed m with
    | none => w.setConn c { conn with inbox := rest }
    | some e =>
      if conn.dispatchQueue.length < channelSize then
        w.setConn c { conn with inbox := rest, dispatchQueue := conn.dispatchQueue ++ [(origin, e)] }
      else w
  | _, _ => w

/-- The event that the loop dispatches under a number. -/
def numberedEvent (seq origin : ℕ) (e : GatewayEvent D) : BufferedEvent D :=
  ⟨seq, { e with s := some seq }, origin⟩

/-- The session buffers an event. -/
def buffer (w : Gateway D) (sid : SessionId) (e : BufferedEvent D) : Gateway D :=
  { w.modifySession sid fun s => s.push cfg.bytes e with
    dispatched := Function.update w.dispatched sid (w.dispatched sid ++ [e]) }

/-- The loop takes the next event: it numbers and buffers it, and sends it after that. -/
def dispatch (w : Gateway D) (c : ConnId) (conn : Conn D) : Gateway D :=
  match conn.phase, conn.dispatchQueue with
  | .running sid seq, (origin, e) :: rest =>
    let event := numberedEvent (seq + 1) origin e
    (w.buffer cfg sid event).setConn c
      { conn with phase := .sending sid (seq + 1) event, dispatchQueue := rest }
  | _, _ => w

/-- The loop ends: the client closes or fails, or has missed its heartbeats. -/
def close (w : Gateway D) (c : ConnId) (conn : Conn D) : Gateway D :=
  match conn.phase with
  | .running sid _ => w.setConn c (conn.leave sid)
  | _ => w

/-! ### The store -/

/-- `reap_expired`. -/
def reapExpired (w : Gateway D) : Gateway D :=
  { w with stored := fun sid =>
      w.stored sid && (match w.sessions sid with
        | none => true
        | some s => s.keeps w.clock) }

/-! ### The transition system -/

/-- Who takes the next step, and what it reads from outside. -/
inductive Act (D : Type)
  | connect (c : ConnId)
  | advance (c : ConnId)
  | identify (c : ConnId) (token : String) (sid : SessionId)
  | resume (c : ConnId) (sid : SessionId) (seq : ℕ)
  /-- No IDENTIFY and no RESUME comes. -/
  | authFails (c : ConnId)
  | subscribe (c : ConnId) (ok : Bool)
  /-- The answer of `access::check` may be wrong: it denies what the database fails to
  answer, and repeats what it has answered for as long as the answer is cached. -/
  | forward (c : ConnId) (allowed : Bool)
  | dispatch (c : ConnId)
  | close (c : ConnId)
  /-- The writer puts the next frame on the WebSocket. -/
  | write (c : ConnId)
  | writerFails (c : ConnId)
  | publish (m : NatsMsg D)
  | elapse (d : ℕ)
  | reap

/-- A step of one connection. -/
def ofConn (w : Gateway D) (c : ConnId) (f : Conn D → Gateway D) : Gateway D :=
  match w.conns.lookup c with
  | none => w
  | some conn => f conn

/-- The gateway after an act. -/
def next (w : Gateway D) : Act D → Gateway D
  | .connect c =>
    match w.conns.lookup c with
    | some _ => w
    | none => w.setConn c {}
  | .advance c => w.ofConn c (w.advance cfg c)
  | .identify c token sid =>
    w.ofConn c fun conn => match conn.phase with
      | .auth => w.identify cfg c conn token sid
      | _ => w
  | .resume c sid seq =>
    w.ofConn c fun conn => match conn.phase with
      | .auth => w.resume c conn sid seq
      | _ => w
  | .authFails c =>
    w.ofConn c fun conn => match conn.phase with
      | .auth => w.setPhase c conn .rejecting
      | _ => w
  | .subscribe c ok => w.ofConn c fun conn => w.subscribe c conn ok
  | .forward c allowed => w.ofConn c (w.forward c allowed)
  | .dispatch c => w.ofConn c (w.dispatch cfg c)
  | .close c => w.ofConn c (w.close c)
  | .write c =>
    w.ofConn c fun conn => match conn.out with
      | frame :: rest =>
        if conn.writer then
          w.setConn c { conn with out := rest, delivered := conn.delivered ++ [frame] }
        else w
      | [] => w
  | .writerFails c => w.ofConn c fun conn => w.setConn c { conn with writer := false }
  | .publish m => w.publish m
  | .elapse d => { w with clock := w.clock + d }
  | .reap => w.reapExpired

/-- A step of the gateway. -/
inductive Step : Gateway D → Act D → Gateway D → Prop
  | next (w : Gateway D) (a : Act D) : Step w a (w.next cfg a)

/-- The gateway starts with no connection, no session and nothing published. -/
def system (cfg : Config D) : System (Gateway D) (Act D) where
  init := fun w => w = .new
  step := Step cfg

end Gateway

end Chat

end MateHub
