import Mathlib.Data.List.Basic
import MateHub.Lib.Runs

/-!
# The heartbeat of the chat client

The chat client of the SDK has a WebSocket, which it replaces when it is closed, and a loop that
sends heartbeats: a first one after a random delay, and then one at every interval. The interval
is kept in a field, and cleared with the WebSocket that it is for. The timeout of the first
heartbeat is kept nowhere, and nothing clears it: if the WebSocket is closed before it fires, it
starts an interval for a WebSocket that is no more.

Timers and WebSockets are the browser's: a timer that is set fires at any time until it is
cleared, and a WebSocket opens, brings frames and closes at any time. Each loop is given the
WebSocket whose `HELLO` has started it, which the client itself does not keep.
-/

namespace MateHub

namespace Chat

/-- `ConnectionState` -/
inductive ConnectionState
  | disconnected
  | connecting
  | identifying
  | resuming
  | connected
  | reconnecting
  deriving DecidableEq

/-- `readyState`. -/
inductive ReadyState
  | connecting
  | opened
  | closing
  | closed
  deriving DecidableEq

/-- A WebSocket, as the client sees it. -/
structure WebSocket where
  readyState : ReadyState := .connecting
  /-- Whether `onmessage`, `onclose` and `onerror` are set. -/
  handled : Bool := true
  deriving DecidableEq

/-- What a timer does when it fires; the timers of a loop are given its WebSocket. -/
inductive Timer
  | firstHeartbeat (owner intervalMs : ℕ)
  | heartbeat (owner intervalMs : ℕ)
  | reconnect
  deriving DecidableEq

/-- The loop that a timer is of. -/
def Timer.owner? : Timer → Option ℕ
  | .firstHeartbeat owner _ => some owner
  | .heartbeat owner _ => some owner
  | .reconnect => none

/-- The timer of a first heartbeat. -/
def Timer.isFirst : Timer → Bool
  | .firstHeartbeat _ _ => true
  | _ => false

/-- The timer of the later heartbeats. -/
def Timer.isInterval : Timer → Bool
  | .heartbeat _ _ => true
  | _ => false

/-- A frame to the server; a heartbeat is given the WebSocket that its loop is for. -/
inductive SentFrame
  | heartbeat (owner lastSeq : ℕ)
  | identify
  | resume (sessionId : String) (seq : ℕ)
  deriving DecidableEq

/-- A dispatch, as far as the client does something with it but to tell its handlers. -/
inductive DispatchEvent
  | ready (sessionId : String)
  | resumed
  | other
  deriving DecidableEq

/-- A frame from the server. -/
inductive ServerFrame
  | hello (heartbeatInterval : ℕ)
  | dispatch (s : Option ℕ) (event : DispatchEvent)
  | heartbeatAck
  | invalidSession (resumable : Bool)
  | reconnect
  | unknown
  deriving DecidableEq

/-- The client, and what it has of the browser. -/
structure ChatClient where
  ws : Option ℕ := none
  state : ConnectionState := .disconnected
  sessionId : Option String := none
  lastSeq : ℕ := 0
  heartbeatInterval : Option ℕ := none
  heartbeatAckPending : Bool := false
  reconnectTimer : Option ℕ := none
  intentionalClose : Bool := false
  /-- All WebSockets that there have been. -/
  sockets : List WebSocket := []
  /-- The timers that are set. -/
  timers : List (ℕ × Timer) := []
  nextTimer : ℕ := 0
  /-- What has been sent, and on which WebSocket. -/
  sent : List (ℕ × SentFrame) := []

namespace ChatClient

variable (s : ChatClient)

/-- The state of a WebSocket. -/
def readyState (w : ℕ) : Option ReadyState := s.sockets[w]?.map WebSocket.readyState

/-! ### The browser -/

/-- `setTimeout` and `setInterval`: the timer has the id `nextTimer`. -/
def setTimer (t : Timer) : ChatClient :=
  { s with timers := s.timers ++ [(s.nextTimer, t)], nextTimer := s.nextTimer + 1 }

/-- `clearTimeout` and `clearInterval`. -/
def clearTimer (id : ℕ) : ChatClient :=
  { s with timers := s.timers.filter fun e => decide (e.1 ≠ id) }

/-- `close`. -/
def closeSocket (w : ℕ) : ChatClient :=
  { s with sockets := s.sockets.modify w fun k =>
      if k.readyState = .connecting ∨ k.readyState = .opened then
        { k with readyState := .closing } else k }

/-- `this.ws?.close`. -/
def closeCurrent : ChatClient :=
  match s.ws with
  | none => s
  | some w => s.closeSocket w

/-- `sendFrame`. -/
def sendFrame (f : SentFrame) : ChatClient :=
  match s.ws with
  | none => s
  | some w => if s.readyState w = some .opened then { s with sent := s.sent ++ [(w, f)] } else s

/-! ### Heartbeat -/

/-- `clearHeartbeat()` -/
def clearHeartbeat : ChatClient :=
  match s.heartbeatInterval with
  | none => s
  | some id => { s.clearTimer id with heartbeatInterval := none }

/-- `startHeartbeat`, for the WebSocket `w`. -/
def startHeartbeat (w intervalMs : ℕ) : ChatClient :=
  { s.clearHeartbeat with heartbeatAckPending := false }.setTimer (.firstHeartbeat w intervalMs)

/-- `sendHeartbeat`, from the loop for the WebSocket `w`. -/
def sendHeartbeat (w : ℕ) : ChatClient :=
  { s with heartbeatAckPending := true }.sendFrame (.heartbeat w s.lastSeq)

/-- What the timeout of the first heartbeat does. -/
def firstHeartbeat (w intervalMs : ℕ) : ChatClient :=
  let s := s.sendHeartbeat w
  { s.setTimer (.heartbeat w intervalMs) with heartbeatInterval := some s.nextTimer }

/-- What the interval does. -/
def nextHeartbeat (w : ℕ) : ChatClient :=
  if s.heartbeatAckPending then s.closeCurrent else s.sendHeartbeat w

/-! ### Connecting -/

/-- `openWebSocket()` -/
def openWebSocket : ChatClient :=
  { s with
    state := if s.sessionId.isSome then .resuming else .connecting
    sockets := s.sockets ++ [{}]
    ws := some s.sockets.length }

/-- `connect()` -/
def connect : ChatClient :=
  if s.ws.isSome then s else { s with intentionalClose := false }.openWebSocket

/-- `clearTimers()` -/
def clearTimers : ChatClient :=
  let s := s.clearHeartbeat
  match s.reconnectTimer with
  | none => s
  | some id => { s.clearTimer id with reconnectTimer := none }

/-- `disconnect`. The handlers are unset before the WebSocket is closed. -/
def disconnect : ChatClient :=
  let s := { { s with intentionalClose := true }.clearTimers with sessionId := none, lastSeq := 0 }
  match s.ws with
  | none => { s with state := .disconnected }
  | some w =>
    { { s with sockets := s.sockets.modify w fun k => { k with handled := false } }.closeSocket w
      with ws := none, state := .disconnected }

/-- `scheduleReconnect()` -/
def scheduleReconnect : ChatClient :=
  { { s with state := .reconnecting }.setTimer .reconnect with reconnectTimer := some s.nextTimer }

/-- `onclose`. -/
def onclose : ChatClient :=
  let s := { s with ws := none }.clearHeartbeat
  if s.intentionalClose then { s with state := .disconnected } else s.scheduleReconnect

/-! ### Frames -/

/-- `handleHello`, on the WebSocket `w`. -/
def handleHello (w heartbeatInterval : ℕ) : ChatClient :=
  let s := s.startHeartbeat w heartbeatInterval
  match s.sessionId with
  | some sessionId => { s with state := .resuming }.sendFrame (.resume sessionId s.lastSeq)
  | none => { s with state := .identifying }.sendFrame .identify

/-- `handleDispatch()` -/
def handleDispatch : DispatchEvent → ChatClient
  | .ready sessionId => { s with sessionId := some sessionId, state := .connected }
  | .resumed => { s with state := .connected }
  | .other => s

/-- `handleFrame`, on the WebSocket `w`. -/
def handleFrame (w : ℕ) (frame : ServerFrame) : ChatClient :=
  if s.intentionalClose then s
  else
    match frame with
    | .hello interval => s.handleHello w interval
    | .dispatch seq event => { s with lastSeq := seq.getD s.lastSeq }.handleDispatch event
    | .heartbeatAck => { s with heartbeatAckPending := false }
    | .invalidSession resumable =>
      if resumable then s else { s with sessionId := none, lastSeq := 0 }
    | .reconnect => s.closeCurrent
    | .unknown => s

/-! ### Events -/

/-- What happens to a client. -/
inductive Event
  | connect
  | disconnect
  /-- A WebSocket opens. -/
  | opened (w : ℕ)
  | message (w : ℕ) (frame : ServerFrame)
  /-- A WebSocket fails; `onerror` only tells the handlers. -/
  | error (w : ℕ)
  /-- A WebSocket is closed. -/
  | closed (w : ℕ)
  /-- A timer fires. -/
  | fires (id : ℕ)
  deriving DecidableEq

/-- The timer fires: a timeout is over, an interval goes on. -/
def fire (e : ℕ × Timer) : ChatClient :=
  match e.2 with
  | .firstHeartbeat w intervalMs => (s.clearTimer e.1).firstHeartbeat w intervalMs
  | .heartbeat w _ => s.nextHeartbeat w
  | .reconnect => { s.clearTimer e.1 with reconnectTimer := none }.openWebSocket

/-- An event, which is none if the browser has no such WebSocket or timer. -/
def next : Event → ChatClient
  | .connect => s.connect
  | .disconnect => s.disconnect
  | .opened w =>
    { s with sockets := s.sockets.modify w fun k =>
        if k.readyState = .connecting then { k with readyState := .opened } else k }
  | .message w frame =>
    if s.sockets[w]? = some ⟨.opened, true⟩ then s.handleFrame w frame else s
  | .error _ => s
  | .closed w =>
    match s.sockets[w]? with
    | none => s
    | some k =>
      let t := { s with sockets := s.sockets.set w { k with readyState := .closed } }
      if k.readyState ≠ .closed ∧ k.handled then t.onclose else t
  | .fires id =>
    match s.timers.find? fun e => decide (e.1 = id) with
    | none => s
    | some e => s.fire e

/-- A client that has just been made, and events in any order. -/
def system : System ChatClient Event where
  init := fun s => s = {}
  step := fun s e s' => s' = s.next e

/-! ### The law of the loops -/

/-- The loops that are live, each by the WebSocket that it is for: those that wait for their first
heartbeat, and those that have an interval. -/
def loops : List ℕ := s.timers.filterMap fun e => e.2.owner?

/-- **The law of the loops**, for WebSockets in some states: there is one at most, it is for the
WebSocket that the client has, and that is in such a state; and no heartbeat has been sent by a
loop that is for another WebSocket. -/
structure InOrder (ready : ReadyState → Prop) : Prop where
  atMostOne : s.loops.length ≤ 1
  current : ∀ w ∈ s.loops, s.ws = some w ∧ ∃ r, s.readyState w = some r ∧ ready r
  sent : ∀ w owner lastSeq, (w, SentFrame.heartbeat owner lastSeq) ∈ s.sent → owner = w

/-- No loop waits for its first heartbeat. -/
def Settled : Prop := ∀ e ∈ s.timers, e.2.isFirst = false

/-- **No loop waits for its first heartbeat when the heartbeat is cleared**: by a `HELLO`, by the
end of the WebSocket, or by the user; and no WebSocket is opened beside another. -/
def Steady : Event → Prop
  | .message w (.hello _) => s.ws = some w → s.Settled
  | .closed w => s.ws = some w → s.Settled
  | .disconnect => s.Settled
  | .fires id => ∀ e ∈ s.timers, e.1 = id → e.2 = .reconnect → s.ws = none
  | _ => True

/-- The client does not close its WebSocket under a loop: the server does not ask it to, and no
answer to a heartbeat is missed. -/
def Unforced : Event → Prop
  | .message _ .reconnect => s.loops = []
  | .fires id => ∀ e ∈ s.timers, e.1 = id → e.2.isInterval = true → s.heartbeatAckPending = false
  | _ => True

instance : Decidable s.Settled := inferInstanceAs (Decidable (∀ e ∈ s.timers, _))

instance : ∀ e, Decidable (s.Steady e)
  | .message w (.hello _) => inferInstanceAs (Decidable (s.ws = some w → s.Settled))
  | .closed w => inferInstanceAs (Decidable (s.ws = some w → s.Settled))
  | .disconnect => inferInstanceAs (Decidable s.Settled)
  | .fires id =>
    inferInstanceAs (Decidable (∀ e ∈ s.timers, e.1 = id → e.2 = .reconnect → s.ws = none))
  | .connect | .opened _ | .error _ | .message _ (.dispatch _ _) | .message _ .heartbeatAck
  | .message _ (.invalidSession _) | .message _ .reconnect | .message _ .unknown =>
    inferInstanceAs (Decidable True)

instance : ∀ e, Decidable (s.Unforced e)
  | .message _ .reconnect => inferInstanceAs (Decidable (s.loops = []))
  | .fires id => inferInstanceAs (Decidable
      (∀ e ∈ s.timers, e.1 = id → e.2.isInterval = true → s.heartbeatAckPending = false))
  | .connect | .disconnect | .opened _ | .error _ | .closed _ | .message _ (.hello _)
  | .message _ (.dispatch _ _) | .message _ .heartbeatAck | .message _ (.invalidSession _)
  | .message _ .unknown => inferInstanceAs (Decidable True)

/-- The WebSocket that the client has, if it has one, is the only one that can bring something. -/
structure OneSocket : Prop where
  handled : ∀ w k, s.sockets[w]? = some k → k.handled = true → k.readyState ≠ .closed →
    s.ws = some w
  ws : ∀ w, s.ws = some w → ∃ k, s.sockets[w]? = some k ∧ k.handled = true ∧
    k.readyState ≠ .closed

/-- The invariant: the law, and what keeps it. -/
structure Inv (ready : ReadyState → Prop) : Prop where
  inOrder : s.InOrder ready
  /-- An interval is in the field. -/
  interval : ∀ e ∈ s.timers, ∀ w intervalMs, e.2 = .heartbeat w intervalMs →
    s.heartbeatInterval = some e.1
  sockets : s.OneSocket

section Steps

variable {s} {s' : ChatClient} {ready : ReadyState → Prop} {w intervalMs id : ℕ} {t : Timer}
  {f : SentFrame}

theorem mem_loops : w ∈ s.loops ↔ ∃ e ∈ s.timers, e.2.owner? = some w := List.mem_filterMap

/-- What does not matter to the invariant. -/
theorem Inv.still (h : s.Inv ready) (hws : s'.ws = s.ws) (htimers : s'.timers = s.timers)
    (hinterval : s'.heartbeatInterval = s.heartbeatInterval) (hsockets : s'.sockets = s.sockets)
    (hsent : s'.sent = s.sent) : s'.Inv ready := by
  have hloops : s'.loops = s.loops := by rw [loops, loops, htimers]
  refine ⟨⟨hloops ▸ h.inOrder.atMostOne, ?_, hsent ▸ h.inOrder.sent⟩, ?_, ?_, ?_⟩
  · rw [hloops, hws]
    intro w hw
    rw [readyState, hsockets]
    exact h.inOrder.current w hw
  · rw [htimers, hinterval]
    exact h.interval
  · rw [hsockets, hws]
    exact h.sockets.handled
  · rw [hsockets, hws]
    exact h.sockets.ws

/-- Where there is no loop, the law is about what has been sent. -/
theorem Inv.of_no_loops (hloops : s.loops = [])
    (hsent : ∀ w owner lastSeq, (w, SentFrame.heartbeat owner lastSeq) ∈ s.sent → owner = w)
    (hsockets : s.OneSocket) : s.Inv ready := by
  have hnone (w : ℕ) : w ∉ s.loops := hloops ▸ List.not_mem_nil
  refine ⟨⟨by rw [hloops]; exact Nat.zero_le 1, fun w hw => absurd hw (hnone w), hsent⟩,
    fun e he w intervalMs heq => absurd (mem_loops.mpr ⟨e, he, ?_⟩) (hnone w), hsockets⟩
  rw [heq]
  rfl

theorem Inv.loops_eq_nil (h : s.Inv ready) (hws : s.ws = none) : s.loops = [] :=
  List.eq_nil_iff_forall_not_mem.mpr fun w hw => by
    obtain ⟨hsome, -⟩ := h.inOrder.current w hw
    rw [hws] at hsome
    cases hsome

/-! ### Clearing -/

theorem loops_clearTimer_subset (s : ChatClient) (id : ℕ) : (s.clearTimer id).loops ⊆ s.loops :=
  fun _ hw => by
    obtain ⟨e, he, howner⟩ := mem_loops.mp hw
    exact mem_loops.mpr ⟨e, (List.mem_filter.mp he).1, howner⟩

/-- **Clearing the heartbeat ends all loops**, if none waits for its first heartbeat. -/
theorem Inv.loops_clearHeartbeat (h : s.Inv ready) (hsettled : s.Settled) :
    s.clearHeartbeat.loops = [] := by
  refine List.eq_nil_iff_forall_not_mem.mpr fun w hw => ?_
  obtain ⟨e, he, howner⟩ := mem_loops.mp hw
  have hmem : e ∈ s.timers := by
    rw [clearHeartbeat] at he
    split at he
    · exact he
    · exact (List.mem_filter.mp he).1
  rcases htimer : e.2 with ⟨w', intervalMs⟩ | ⟨w', intervalMs⟩ | _
  · have hfirst := hsettled e hmem
    rw [htimer] at hfirst
    cases hfirst
  · have hfield := h.interval e hmem w' intervalMs htimer
    rw [clearHeartbeat, hfield] at he
    exact of_decide_eq_true (List.mem_filter.mp he).2 rfl
  · rw [htimer] at howner
    cases howner

@[simp] theorem ws_clearHeartbeat : s.clearHeartbeat.ws = s.ws := by
  rw [clearHeartbeat]
  split <;> rfl

@[simp] theorem sockets_clearHeartbeat : s.clearHeartbeat.sockets = s.sockets := by
  rw [clearHeartbeat]
  split <;> rfl

@[simp] theorem sent_clearHeartbeat : s.clearHeartbeat.sent = s.sent := by
  rw [clearHeartbeat]
  split <;> rfl

@[simp] theorem ws_clearTimers : s.clearTimers.ws = s.ws := by
  rw [clearTimers]
  split <;> exact ws_clearHeartbeat

@[simp] theorem sockets_clearTimers : s.clearTimers.sockets = s.sockets := by
  rw [clearTimers]
  split <;> exact sockets_clearHeartbeat

@[simp] theorem sent_clearTimers : s.clearTimers.sent = s.sent := by
  rw [clearTimers]
  split <;> exact sent_clearHeartbeat

theorem Inv.loops_clearTimers (h : s.Inv ready) (hsettled : s.Settled) :
    s.clearTimers.loops = [] := by
  rw [clearTimers]
  split
  · exact h.loops_clearHeartbeat hsettled
  · rename_i id _
    refine List.eq_nil_iff_forall_not_mem.mpr fun w hw => ?_
    have hmem := loops_clearTimer_subset s.clearHeartbeat id hw
    rw [h.loops_clearHeartbeat hsettled] at hmem
    exact List.not_mem_nil hmem

/-! ### Sending -/

@[simp] theorem timers_sendFrame : (s.sendFrame f).timers = s.timers := by
  rw [sendFrame]
  split
  · rfl
  · split <;> rfl

@[simp] theorem ws_sendFrame : (s.sendFrame f).ws = s.ws := by
  rw [sendFrame]
  split
  · rfl
  · split <;> rfl

@[simp] theorem sockets_sendFrame : (s.sendFrame f).sockets = s.sockets := by
  rw [sendFrame]
  split
  · rfl
  · split <;> rfl

@[simp] theorem heartbeatInterval_sendFrame :
    (s.sendFrame f).heartbeatInterval = s.heartbeatInterval := by
  rw [sendFrame]
  split
  · rfl
  · split <;> rfl

theorem mem_sent_sendFrame {e : ℕ × SentFrame} (h : e ∈ (s.sendFrame f).sent) :
    e ∈ s.sent ∨ e.2 = f ∧ s.ws = some e.1 := by
  rw [sendFrame] at h
  split at h
  · exact .inl h
  · rename_i w hw
    split at h
    · rcases List.mem_append.mp h with h | h
      · exact .inl h
      · rw [List.mem_singleton.mp h]
        exact .inr ⟨rfl, hw⟩
    · exact .inl h

/-- **A frame is sent**; a heartbeat is for the WebSocket that the client has. -/
theorem Inv.sendFrame (h : s.Inv ready)
    (hf : ∀ owner lastSeq, f = .heartbeat owner lastSeq → s.ws = some owner) :
    (s.sendFrame f).Inv ready := by
  have hloops : (s.sendFrame f).loops = s.loops := by rw [loops, loops, timers_sendFrame]
  refine ⟨⟨hloops ▸ h.inOrder.atMostOne, ?_, ?_⟩, ?_, ?_, ?_⟩
  · rw [hloops, ws_sendFrame]
    intro w hw
    rw [readyState, sockets_sendFrame]
    exact h.inOrder.current w hw
  · intro w owner lastSeq hmem
    rcases mem_sent_sendFrame hmem with hmem | ⟨heq, hws⟩
    · exact h.inOrder.sent w owner lastSeq hmem
    · exact Option.some.inj ((hf owner lastSeq heq.symm).symm.trans hws)
  · rw [timers_sendFrame, heartbeatInterval_sendFrame]
    exact h.interval
  · rw [sockets_sendFrame, ws_sendFrame]
    exact h.sockets.handled
  · rw [sockets_sendFrame, ws_sendFrame]
    exact h.sockets.ws

theorem Inv.sendHeartbeat (h : s.Inv ready) (hws : s.ws = some w) :
    (s.sendHeartbeat w).Inv ready := by
  have hpending : ({ s with heartbeatAckPending := true } : ChatClient).Inv ready :=
    h.still rfl rfl rfl rfl rfl
  exact hpending.sendFrame fun _ _ heq => (SentFrame.heartbeat.inj heq).1 ▸ hws

/-! ### Starting -/

theorem loops_setTimer : (s.setTimer t).loops = s.loops ++ t.owner?.toList := by
  rw [loops, setTimer, List.filterMap_append, ← loops]
  cases h : t.owner? with
  | none => exact congrArg _ (List.filterMap_cons_none (f := fun e : ℕ × Timer => e.2.owner?) h)
  | some w => exact congrArg _ (List.filterMap_cons_some (f := fun e : ℕ × Timer => e.2.owner?) h)

/-- **A loop is started where there is none**, for the WebSocket that the client has. -/
theorem Inv.start (hloops : s.loops = [])
    (hsent : ∀ w owner lastSeq, (w, SentFrame.heartbeat owner lastSeq) ∈ s.sent → owner = w)
    (hsockets : s.OneSocket) (howner : t.owner? = some w) (hws : s.ws = some w)
    (hready : ∃ r, s.readyState w = some r ∧ ready r) (field : Option ℕ)
    (hfield : ∀ w intervalMs, t = .heartbeat w intervalMs → field = some s.nextTimer) :
    ({ s.setTimer t with heartbeatInterval := field } : ChatClient).Inv ready := by
  have hone : ({ s.setTimer t with heartbeatInterval := field } : ChatClient).loops = [w] := by
    refine (loops_setTimer (s := s) (t := t)).trans ?_
    rw [hloops, howner]
    rfl
  refine ⟨⟨by rw [hone]; exact Nat.le_refl 1, fun w' hw' => ?_, hsent⟩,
    fun e he w' intervalMs heq => ?_, hsockets.handled, hsockets.ws⟩
  · rw [hone] at hw'
    obtain rfl := List.mem_singleton.mp hw'
    exact ⟨hws, hready⟩
  · rcases List.mem_append.mp he with hmem | hmem
    · have hin : w' ∈ s.loops := mem_loops.mpr ⟨e, hmem, by rw [heq]; rfl⟩
      rw [hloops] at hin
      exact absurd hin List.not_mem_nil
    · rw [List.mem_singleton.mp hmem] at heq ⊢
      exact hfield w' intervalMs heq

/-- `HELLO`. -/
theorem Inv.handleHello (h : s.Inv ready) (hsettled : s.Settled) (hws : s.ws = some w)
    (hready : ∃ r, s.readyState w = some r ∧ ready r) (interval : ℕ) :
    (s.handleHello w interval).Inv ready := by
  have hstart : (s.startHeartbeat w interval).Inv ready := by
    refine Inv.start (s := { s.clearHeartbeat with heartbeatAckPending := false })
      (t := .firstHeartbeat w interval) (h.loops_clearHeartbeat hsettled) ?_ ?_ rfl ?_ ?_ _ nofun
    · exact fun w owner lastSeq hmem =>
        h.inOrder.sent w owner lastSeq (sent_clearHeartbeat (s := s) ▸ hmem)
    · constructor
      · simpa using h.sockets.handled
      · simpa using h.sockets.ws
    · exact ws_clearHeartbeat.trans hws
    · simpa [readyState] using hready
  rw [ChatClient.handleHello]
  split
  · refine Inv.sendFrame ?_ fun _ _ heq => nomatch heq
    exact hstart.still rfl rfl rfl rfl rfl
  · refine Inv.sendFrame ?_ fun _ _ heq => nomatch heq
    exact hstart.still rfl rfl rfl rfl rfl

/-- The timeout of the first heartbeat. -/
theorem Inv.firstHeartbeat (h : s.Inv ready) (hloops : s.loops = []) (hws : s.ws = some w)
    (hready : ∃ r, s.readyState w = some r ∧ ready r) (intervalMs : ℕ) :
    (s.firstHeartbeat w intervalMs).Inv ready := by
  have hsent := h.sendHeartbeat hws
  refine Inv.start (s := s.sendHeartbeat w) (t := .heartbeat w intervalMs) ?_ hsent.inOrder.sent
    hsent.sockets rfl ?_ ?_ _ fun _ _ _ => rfl
  · rw [loops, ChatClient.sendHeartbeat, timers_sendFrame]
    exact hloops
  · rw [ChatClient.sendHeartbeat, ws_sendFrame]
    exact hws
  · rw [readyState, ChatClient.sendHeartbeat, sockets_sendFrame]
    exact hready

/-! ### WebSockets -/

/-- A WebSocket changes, but for whether it can bring something. -/
theorem OneSocket.modify (h : s.OneSocket) {g : WebSocket → WebSocket}
    (hhandled : ∀ k, (g k).handled = k.handled)
    (hclosed : ∀ k, (g k).readyState = .closed ↔ k.readyState = .closed) (w : ℕ) :
    ({ s with sockets := s.sockets.modify w g } : ChatClient).OneSocket := by
  constructor
  · intro w' k hk
    rw [List.getElem?_modify] at hk
    obtain ⟨k', hk', rfl⟩ := Option.map_eq_some_iff.mp hk
    have hold := h.handled w' k' hk'
    split
    · rw [hhandled, ne_eq, hclosed]
      exact hold
    · exact hold
  · intro w' hw'
    obtain ⟨k, hk, hh, hr⟩ := h.ws w' hw'
    refine ⟨if w = w' then g k else k, ?_, ?_, ?_⟩
    · rw [List.getElem?_modify, hk]
      rfl
    · split
      · exact (hhandled k).trans hh
      · exact hh
    · split
      · exact fun hg => hr ((hclosed k).mp hg)
      · exact hr

theorem readyState_modify (s : ChatClient) (g : WebSocket → WebSocket) (w w' : ℕ) :
    readyState { s with sockets := s.sockets.modify w g } w' =
      (s.sockets[w']?.map fun k => if w = w' then g k else k).map WebSocket.readyState := by
  rw [readyState, List.getElem?_modify]
  rfl

/-- The client closes its WebSocket, which it may not do under a loop if that is to be open. -/
theorem Inv.closeCurrent (h : s.Inv ready) (hclosing : ready .closing ∨ s.loops = []) :
    s.closeCurrent.Inv ready := by
  rw [ChatClient.closeCurrent]
  split
  · exact h
  · rename_i w hw
    have hsockets : (s.closeSocket w).OneSocket :=
      h.sockets.modify (fun k => by split <;> rfl) (fun k => by
        split
        · rename_i hk
          rcases hk with hk | hk <;> simp [hk]
        · rfl) w
    rcases hclosing with hclosing | hloops
    · refine ⟨⟨h.inOrder.atMostOne, fun w' hw' => ?_, h.inOrder.sent⟩, h.interval, hsockets⟩
      obtain ⟨hws, r, hr, hready⟩ := h.inOrder.current w' hw'
      refine ⟨hws, ?_⟩
      obtain ⟨k, hk, rfl⟩ := Option.map_eq_some_iff.mp hr
      rw [closeSocket, readyState_modify, hk]
      dsimp only [Option.map_some]
      refine ⟨_, rfl, ?_⟩
      split
      · split
        · exact hclosing
        · exact hready
      · exact hready
    · exact .of_no_loops hloops h.inOrder.sent hsockets

/-- A WebSocket is opened where there is none. -/
theorem Inv.openWebSocket (h : s.Inv ready) (hws : s.ws = none) : s.openWebSocket.Inv ready := by
  refine .of_no_loops (h.loops_eq_nil hws) h.inOrder.sent ⟨fun w k hk hhandled hstate => ?_, ?_⟩
  · rw [ChatClient.openWebSocket] at hk ⊢
    dsimp only at hk ⊢
    rcases Nat.lt_or_ge w s.sockets.length with hlt | hge
    · rw [List.getElem?_append_left hlt] at hk
      have hold := h.sockets.handled w k hk hhandled hstate
      rw [hws] at hold
      cases hold
    · obtain ⟨hlt, -⟩ := List.getElem?_eq_some_iff.mp hk
      rw [List.length_append, List.length_singleton] at hlt
      rw [Nat.le_antisymm (Nat.le_of_lt_succ hlt) hge]
  · intro w hw
    obtain rfl := Option.some.inj hw
    exact ⟨{}, List.getElem?_concat_length, rfl, nofun⟩

/-- The WebSocket that the client has is closed. -/
theorem Inv.onclose (h : s.Inv ready) (hsettled : s.Settled) (hws : s.ws = some w) (k : WebSocket) :
    ({ s with sockets := s.sockets.set w { k with readyState := .closed } } :
      ChatClient).onclose.Inv ready := by
  set t : ChatClient :=
    { s with ws := none, sockets := s.sockets.set w { k with readyState := .closed } }
  have hloops : t.clearHeartbeat.loops = [] := by
    have hclear : t.clearHeartbeat.timers = s.clearHeartbeat.timers := by
      rw [clearHeartbeat, clearHeartbeat]
      cases s.heartbeatInterval <;> rfl
    rw [loops, hclear]
    exact h.loops_clearHeartbeat hsettled
  have hsockets : t.OneSocket := by
    refine ⟨fun w' k' hk' hhandled hstate => ?_, fun _ hnone => nomatch hnone⟩
    rw [List.getElem?_set] at hk'
    split at hk'
    · split at hk'
      · rw [← Option.some.inj hk'] at hstate
        exact absurd rfl hstate
      · cases hk'
    · rename_i hne
      have hold := h.sockets.handled w' k' hk' hhandled hstate
      exact absurd (Option.some.inj (hws.symm.trans hold)) hne
  have ht : t.clearHeartbeat.Inv ready := by
    refine .of_no_loops hloops (fun w owner lastSeq hmem => ?_) ⟨?_, ?_⟩
    · exact h.inOrder.sent w owner lastSeq (sent_clearHeartbeat (s := t) ▸ hmem)
    · rw [ws_clearHeartbeat, sockets_clearHeartbeat]
      exact hsockets.handled
    · rw [ws_clearHeartbeat, sockets_clearHeartbeat]
      exact hsockets.ws
  have hlater : (t.clearHeartbeat.scheduleReconnect).loops = [] := by
    refine (loops_setTimer (s := { t.clearHeartbeat with state := .reconnecting })
      (t := .reconnect)).trans ?_
    rw [show loops { t.clearHeartbeat with state := .reconnecting } = [] from hloops]
    rfl
  rw [ChatClient.onclose]
  split
  · exact ht.still rfl rfl rfl rfl rfl
  · exact .of_no_loops hlater ht.inOrder.sent ⟨ht.sockets.handled, ht.sockets.ws⟩

/-- The user disconnects. -/
theorem Inv.disconnect (h : s.Inv ready) (hsettled : s.Settled) : s.disconnect.Inv ready := by
  set t : ChatClient := { s with intentionalClose := true }
  have ht : t.Inv ready := h.still rfl rfl rfl rfl rfl
  have hloops : t.clearTimers.loops = [] := ht.loops_clearTimers hsettled
  have hsent : ∀ w owner lastSeq, (w, SentFrame.heartbeat owner lastSeq) ∈ t.clearTimers.sent →
      owner = w := fun w owner lastSeq hmem =>
    ht.inOrder.sent w owner lastSeq (sent_clearTimers (s := t) ▸ hmem)
  have hws : t.clearTimers.ws = s.ws := ws_clearTimers
  have hsockets : t.clearTimers.sockets = s.sockets := sockets_clearTimers
  rw [ChatClient.disconnect]
  split
  · rename_i hnone
    refine .of_no_loops hloops hsent ⟨fun w k hk hhandled hstate => ?_, fun w hw => ?_⟩
    · exact hws.trans (h.sockets.handled w k (hsockets ▸ hk) hhandled hstate)
    · exact absurd (hnone.symm.trans hw) nofun
  · rename_i w hw
    refine .of_no_loops hloops hsent ⟨fun w' k hk hhandled hstate => ?_, fun _ hw' => nomatch hw'⟩
    have hk : ((t.clearTimers.sockets.modify w _).modify w _)[w']? = some k := hk
    rw [List.getElem?_modify, List.getElem?_modify, hsockets] at hk
    obtain ⟨k₁, hk₁, rfl⟩ := Option.map_eq_some_iff.mp hk
    obtain ⟨k₀, hk₀, rfl⟩ := Option.map_eq_some_iff.mp hk₁
    by_cases hne : w = w'
    · rw [if_pos hne, if_pos hne] at hhandled
      split at hhandled <;> cases hhandled
    · rw [if_neg hne, if_neg hne] at hhandled hstate
      have hold := hws.trans (h.sockets.handled w' k₀ hk₀ hhandled hstate)
      exact absurd (Option.some.inj (hw.symm.trans hold)) hne

end Steps

section Events

variable {s} {ready : ReadyState → Prop} {e : Event}

theorem inv_init : ({} : ChatClient).Inv ready :=
  .of_no_loops rfl (fun _ _ _ hmem => absurd hmem List.not_mem_nil)
    ⟨fun _ _ hk => (nomatch hk), fun _ hw => nomatch hw⟩

/-- **The timer of the only loop**: without it there is none. -/
theorem loops_clearTimer_eq_nil {t : ℕ × Timer} (hone : s.loops.length ≤ 1) (ht : t ∈ s.timers)
    (howner : t.2.owner?.isSome) : (s.clearTimer t.1).loops = [] := by
  obtain ⟨before, after, htimers⟩ := List.append_of_mem ht
  obtain ⟨w, hw⟩ := Option.isSome_iff_exists.mp howner
  have hloops : s.loops = before.filterMap (fun e => e.2.owner?) ++
      w :: after.filterMap fun e => e.2.owner? := by
    rw [loops, htimers, List.filterMap_append,
      List.filterMap_cons_some (f := fun e : ℕ × Timer => e.2.owner?) hw]
  rw [hloops, List.length_append, List.length_cons] at hone
  have hbefore : before.filterMap (fun e => e.2.owner?) = [] :=
    List.eq_nil_of_length_eq_zero (by omega)
  have hafter : after.filterMap (fun e => e.2.owner?) = [] :=
    List.eq_nil_of_length_eq_zero (by omega)
  refine List.eq_nil_iff_forall_not_mem.mpr fun w' hw' => ?_
  obtain ⟨e, he, hsome⟩ := mem_loops.mp hw'
  obtain ⟨hmem, hne⟩ := List.mem_filter.mp he
  rw [htimers, List.mem_append, List.mem_cons] at hmem
  rcases hmem with hmem | rfl | hmem
  · exact absurd (List.filterMap_eq_nil_iff.mp hbefore e hmem) (by rw [hsome]; nofun)
  · exact of_decide_eq_true hne rfl
  · exact absurd (List.filterMap_eq_nil_iff.mp hafter e hmem) (by rw [hsome]; nofun)

/-- A frame comes on the WebSocket that the client has. -/
theorem Inv.handleFrame (h : s.Inv ready) (hopened : ready .opened) {w : ℕ} {frame : ServerFrame}
    (hopen : s.sockets[w]? = some ⟨.opened, true⟩) (hws : s.ws = some w)
    (hsteady : s.Steady (.message w frame))
    (hforced : ready .closing ∨ s.Unforced (.message w frame)) :
    (s.handleFrame w frame).Inv ready := by
  unfold ChatClient.handleFrame
  split
  · exact h
  · cases frame with
    | hello interval =>
      refine h.handleHello (hsteady hws) hws ⟨.opened, ?_, hopened⟩ interval
      rw [readyState, hopen]
      rfl
    | dispatch seq event => cases event <;> exact h.still rfl rfl rfl rfl rfl
    | heartbeatAck => exact h.still rfl rfl rfl rfl rfl
    | invalidSession resumable =>
      cases resumable
      · exact h.still rfl rfl rfl rfl rfl
      · exact h
    | reconnect => exact h.closeCurrent hforced
    | unknown => exact h

/-- A WebSocket is closed, of which nothing is heard any more. -/
theorem Inv.closedUnheard (h : s.Inv ready) {w : ℕ} {k : WebSocket} (hk : s.sockets[w]? = some k)
    (hunheard : ¬ (k.readyState ≠ .closed ∧ k.handled = true)) :
    ({ s with sockets := s.sockets.set w { k with readyState := .closed } } :
      ChatClient).Inv ready := by
  have hother : ∀ w', s.ws = some w' → w ≠ w' := by
    rintro w' hw' rfl
    obtain ⟨k', hk', hhandled, hstate⟩ := h.sockets.ws w hw'
    obtain rfl := Option.some.inj (hk.symm.trans hk')
    exact hunheard ⟨hstate, hhandled⟩
  refine ⟨⟨h.inOrder.atMostOne, fun w' hw' => ?_, h.inOrder.sent⟩, h.interval, ?_, ?_⟩
  · obtain ⟨hws, r, hr, hready⟩ := h.inOrder.current w' hw'
    refine ⟨hws, r, ?_, hready⟩
    rw [readyState, List.getElem?_set_ne (hother w' hws)]
    exact hr
  · intro w' k' hk' hhandled hstate
    by_cases hne : w = w'
    · subst hne
      obtain ⟨hlt, -⟩ := List.getElem?_eq_some_iff.mp hk
      have hk' : (s.sockets.set w { k with readyState := .closed })[w]? = some k' := hk'
      rw [List.getElem?_set_self hlt] at hk'
      rw [← Option.some.inj hk'] at hstate
      exact absurd rfl hstate
    · have hk' : (s.sockets.set w { k with readyState := .closed })[w']? = some k' := hk'
      rw [List.getElem?_set_ne hne] at hk'
      exact h.sockets.handled w' k' hk' hhandled hstate
  · intro w' hw'
    obtain ⟨k', hk', hheard⟩ := h.sockets.ws w' hw'
    exact ⟨k', (List.getElem?_set_ne (hother w' hw')).trans hk', hheard⟩

/-- A timer fires. -/
theorem Inv.fire (h : s.Inv ready) {t : ℕ × Timer} (ht : t ∈ s.timers)
    (hsteady : s.Steady (.fires t.1)) (hforced : ready .closing ∨ s.Unforced (.fires t.1)) :
    (s.fire t).Inv ready := by
  rw [ChatClient.fire]
  split
  · rename_i w intervalMs heq
    have hloops : (s.clearTimer t.1).loops = [] :=
      loops_clearTimer_eq_nil h.inOrder.atMostOne ht (by rw [heq]; rfl)
    obtain ⟨hws, hready⟩ := h.inOrder.current w (mem_loops.mpr ⟨t, ht, by rw [heq]; rfl⟩)
    refine Inv.firstHeartbeat ?_ hloops hws hready intervalMs
    exact .of_no_loops hloops h.inOrder.sent ⟨h.sockets.handled, h.sockets.ws⟩
  · rename_i w intervalMs heq
    rw [nextHeartbeat]
    split
    · rename_i hpending
      refine h.closeCurrent (hforced.imp_right fun hunforced => absurd hpending ?_)
      rw [hunforced t ht rfl (by rw [heq]; rfl)]
      exact Bool.false_ne_true
    · exact h.sendHeartbeat (h.inOrder.current w (mem_loops.mpr ⟨t, ht, by rw [heq]; rfl⟩)).1
  · rename_i heq
    have hws : s.ws = none := hsteady t ht rfl heq
    have hloops : (s.clearTimer t.1).loops = [] :=
      List.subset_nil.mp (h.loops_eq_nil hws ▸ loops_clearTimer_subset s t.1)
    refine Inv.openWebSocket ?_ hws
    exact .of_no_loops hloops h.inOrder.sent ⟨h.sockets.handled, h.sockets.ws⟩

/-- **Every event keeps the law**, if nothing is cleared while a loop waits for its first
heartbeat. -/
theorem Inv.next (h : s.Inv ready) (hopened : ready .opened) (hconnecting : ¬ ready .connecting)
    (hsteady : s.Steady e) (hforced : ready .closing ∨ s.Unforced e) : (s.next e).Inv ready := by
  cases e with
  | connect =>
    rw [ChatClient.next, ChatClient.connect]
    split
    · exact h
    · rename_i hws
      have hnone : s.ws = none := Option.not_isSome_iff_eq_none.mp hws
      have hclose : ({ s with intentionalClose := false } : ChatClient).Inv ready :=
        h.still rfl rfl rfl rfl rfl
      exact hclose.openWebSocket hnone
  | disconnect => exact h.disconnect hsteady
  | opened w =>
    have hsockets := h.sockets.modify (g := fun k =>
      if k.readyState = .connecting then { k with readyState := .opened } else k)
      (fun k => by split <;> rfl) (fun k => by split <;> simp_all) w
    refine ⟨⟨h.inOrder.atMostOne, fun w' hw' => ?_, h.inOrder.sent⟩, h.interval, hsockets⟩
    obtain ⟨hws, r, hr, hready⟩ := h.inOrder.current w' hw'
    obtain ⟨k, hk, rfl⟩ := Option.map_eq_some_iff.mp hr
    have hopen : k.readyState ≠ .connecting := fun heq => hconnecting (heq ▸ hready)
    refine ⟨hws, _, ?_, hready⟩
    rw [ChatClient.next, readyState_modify, hk]
    simp [hopen]
  | message w frame =>
    rw [ChatClient.next]
    split
    · rename_i hopen
      exact h.handleFrame hopened hopen (h.sockets.handled w _ hopen rfl nofun) hsteady hforced
    · exact h
  | error w => exact h
  | closed w =>
    rw [ChatClient.next]
    split
    · exact h
    · rename_i k hk
      dsimp only
      split
      · rename_i hheard
        have hws := h.sockets.handled w k hk hheard.2 hheard.1
        exact h.onclose (hsteady hws) hws k
      · rename_i hunheard
        exact h.closedUnheard hk hunheard
  | fires id =>
    rw [ChatClient.next]
    split
    · exact h
    · rename_i t ht
      obtain rfl : t.1 = id := by simpa using List.find?_some ht
      exact h.fire (List.mem_of_find?_eq_some ht) hsteady hforced

/-- **The law in every run** whose events are accepted. -/
theorem inOrder_of_reach {ok : ChatClient → Event → Prop} (hopened : ready .opened)
    (hconnecting : ¬ ready .connecting)
    (hok : ∀ s e, ok s e → s.Steady e ∧ (ready .closing ∨ s.Unforced e))
    (hs : system.Reach ok s) : s.InOrder ready := by
  have hinv : s.Inv ready := by
    refine hs.invariant (I := fun s => s.Inv ready) (fun s hinit => ?_)
      fun s e s' h hsteady hstep => ?_
    · rw [show s = {} from hinit]
      exact inv_init
    · rw [show s' = s.next e from hstep]
      exact h.next hopened hconnecting (hok s e hsteady).1 (hok s e hsteady).2
  exact hinv.inOrder

end Events

/-! ### Two connections -/

/-- A connection with two heartbeats, and a second one after it. -/
def twoConnections : List Event :=
  [.connect, .opened 0, .message 0 (.hello 41250), .message 0 (.dispatch (some 1) (.ready "a")),
    .fires 0, .message 0 .heartbeatAck, .fires 1, .closed 0, .fires 2, .opened 1,
    .message 1 (.hello 41250), .message 1 (.dispatch (some 2) .resumed), .fires 3]

end ChatClient

end Chat

end MateHub
