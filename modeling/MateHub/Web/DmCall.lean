import MateHub.Lib.Runs
import Mathlib.Logic.Function.Basic

/-!
# Calls in direct messages

A call is known to the client of each of the two users of a channel by two pieces of state:
`incomingCall`, while it rings, and `dmCall`, once the user takes part in it. Starting and
accepting a call set `dmCall` and then ask for a session of the voice channel, which becomes
the active one when the answer comes. An effect watches the two, and closes the call when the
active voice channel is not that of the call. The server keeps nothing about calls: it
publishes an event for each request to the two users, and for some also writes a message.

A call gets a number here, which is in no request and no event, so that closing requests can
be counted for each call. The handlers compare channels only, as those of the client do.
-/

namespace MateHub

namespace Web

/-- A call; `number` tells it from the other calls of the channel. -/
structure Call where
  number : ℕ
  inviter : ℕ
  channelId : ℕ
  deriving DecidableEq

/-- Why a call is declined. -/
inductive DeclineReason
  | declined
  | timeout
  deriving DecidableEq

/-- Which side of a call a client is on. -/
inductive Role
  | inviter
  | recipient
  deriving DecidableEq

/-- Whether the voice channel of a call has been active since the user takes part in it. -/
inductive Phase
  /-- Not yet. -/
  | waiting
  | inside
  /-- It has, and has been left. -/
  | outside
  deriving DecidableEq

/-- `DmCall`; `phase` is not a field of the client. -/
structure DmCall where
  call : Call
  role : Role
  startedAt : Option ℕ
  phase : Phase
  deriving DecidableEq

/-- The requests about a call. -/
inductive CallPath
  | start
  | decline (reason : DeclineReason)
  | cancel
  /-- `/call/end`. -/
  | ended (durationSecs : ℕ)
  deriving DecidableEq

/-- A request of a user `sub`; `phase` is not in it, but where the voice connection was. -/
structure CallRequest where
  sub : ℕ
  call : Call
  path : CallPath
  phase : Phase
  deriving DecidableEq

/-- The events that are published for the requests. -/
inductive CallEventType
  | invite
  | decline (reason : DeclineReason)
  | cancel
  | ended (durationSecs : ℕ)
  deriving DecidableEq

/-- An event about a call, as the gateway brings it. -/
structure CallEvent where
  fromUserId : ℕ
  call : Call
  type : CallEventType
  deriving DecidableEq

/-- A message that the server writes into the channel. -/
structure SystemMessage where
  call : Call
  content : String
  mentions : List ℕ
  deriving DecidableEq

/-! ### The server -/

/-- `fmt_duration`. -/
def fmtDuration (secs : ℕ) : String := toString (secs / 60) ++ "m " ++ toString (secs % 60) ++ "s"

namespace CallRequest

variable (r : CallRequest)

/-- What `publish_call_event` or `publish_call_ended` sends. -/
def event : CallEvent where
  fromUserId := r.sub
  call := r.call
  type := match r.path with
    | .start => .invite
    | .decline reason => .decline reason
    | .cancel => .cancel
    | .ended durationSecs => .ended durationSecs

/-- What `write_system_message` writes. -/
def systemMessage : Option SystemMessage :=
  match r.path with
  | .start => none
  | .decline .timeout => some ⟨r.call, "$1 didn't answer the call", [r.sub]⟩
  | .decline .declined => some ⟨r.call, "$1 declined the call", [r.sub]⟩
  | .cancel => none
  | .ended durationSecs => some ⟨r.call, "Call ended (" ++ fmtDuration durationSecs ++ ")", []⟩

/-- The request closes its call. -/
def closes : Bool := decide (r.path ≠ .start)

end CallRequest

namespace CallEvent

/-- The event is not an invitation. -/
def closes (e : CallEvent) : Bool := decide (e.type ≠ .invite)

end CallEvent

/-! ### The client -/

/-- What concerns calls in a client. -/
structure CallClient where
  incomingCall : Option Call
  dmCall : Option DmCall
  activeVoiceChannelId : Option ℕ
  /-- The channels that a session has been asked for. -/
  joining : List ℕ
  deriving DecidableEq

/-- The voice connection is that of `active` now. -/
def DmCall.moved (d : DmCall) (active : Option ℕ) : DmCall :=
  { d with
    phase := if active = some d.call.channelId then .inside
      else if d.phase = .inside then .outside
      else d.phase }

namespace CallClient

variable (me : ℕ) (c : CallClient)

/-- The voice channel that a client is in changes; a call hears of it. -/
def setActiveVoiceChannelId (active : Option ℕ) : CallClient :=
  { c with
    activeVoiceChannelId := active
    dmCall := c.dmCall.map (·.moved active) }

/-- A client enters a call. -/
def setDmCall (call : Call) (role : Role) (startedAt : Option ℕ) : CallClient :=
  { c with
    dmCall := some (DmCall.moved ⟨call, role, startedAt, .waiting⟩ c.activeVoiceChannelId) }

/-- `joinVoice`, until it asks for the session. -/
def joinVoice (channelId : ℕ) : CallClient :=
  if c.activeVoiceChannelId = some channelId then c
  else { c with joining := channelId :: c.joining }

/-- The session that `joinVoice` has asked for is there. -/
def joined (channelId : ℕ) : CallClient :=
  if channelId ∈ c.joining then
    { c with joining := c.joining.erase channelId }.setActiveVoiceChannelId (some channelId)
  else c

/-- It is not. -/
def joinFails (channelId : ℕ) : CallClient :=
  { c with joining := c.joining.erase channelId }

/-- `leaveVoice()` -/
def leaveVoice : CallClient :=
  if c.activeVoiceChannelId = none then c else c.setActiveVoiceChannelId none

/-- `startCall`, with the request it sends. -/
def startCall (call : Call) : CallClient × List CallRequest :=
  ((c.setDmCall call .inviter none).joinVoice call.channelId, [⟨me, call, .start, .waiting⟩])

/-- A call that rings is accepted. -/
def accept (now : ℕ) : CallClient :=
  match c.incomingCall with
  | none => c
  | some call =>
    ({ c with incomingCall := none }.setDmCall call .recipient (some now)).joinVoice call.channelId

/-- A call that rings is declined. -/
def decline (reason : DeclineReason) : CallClient × List CallRequest :=
  match c.incomingCall with
  | none => (c, [])
  | some call => ({ c with incomingCall := none }, [⟨me, call, .decline reason, .waiting⟩])

/-- The request that closes a call the user has taken part in. -/
def closing (d : DmCall) (now : ℕ) : CallRequest where
  sub := me
  call := d.call
  path := match d.startedAt with
    | some startedAt => .ended ((now - startedAt) / 1000)
    | none => .cancel
  phase := d.phase

/-- The effect that watches `activeVoiceChannelId` and `dmCall`. -/
def watch (now : ℕ) : CallClient × List CallRequest :=
  match c.dmCall with
  | none => (c, [])
  | some d =>
    if c.activeVoiceChannelId = some d.call.channelId then (c, [])
    else ({ c with dmCall := none }, [closing me d now])

/-- The peer is among the participants. -/
def stamp (now : ℕ) : CallClient :=
  match c.dmCall with
  | none => c
  | some d =>
    if d.role = .inviter ∧ d.startedAt = none then
      { c with dmCall := some { d with startedAt := some now } }
    else c

/-- The call of a channel is cleared. -/
def clearDmCall (channelId : ℕ) : CallClient :=
  { c with dmCall := c.dmCall.filter (·.call.channelId ≠ channelId) }

/-- The other user has closed the call of a channel. -/
def hungUp (channelId : ℕ) : CallClient :=
  if c.activeVoiceChannelId = some channelId then (c.clearDmCall channelId).leaveVoice
  else c.clearDmCall channelId

/-- The handler of the events about calls. -/
def on (e : CallEvent) : CallClient :=
  match e.type with
  | .invite => if e.fromUserId = me then c else { c with incomingCall := some e.call }
  | .decline _ => if e.fromUserId = me then c else c.hungUp e.call.channelId
  | .cancel =>
    { c with incomingCall := c.incomingCall.filter (·.channelId ≠ e.call.channelId) }
  | .ended _ => if e.fromUserId = me then c else c.hungUp e.call.channelId

/-- What happens in a client, apart from the start of a call and the events. -/
inductive Act
  | accept (now : ℕ)
  | decline (reason : DeclineReason)
  | joinVoice (channelId : ℕ)
  | joined (channelId : ℕ)
  | joinFails (channelId : ℕ)
  | leaveVoice
  | watch (now : ℕ)
  | stamp (now : ℕ)
  deriving DecidableEq

/-- What a user does. -/
def act : Act → CallClient × List CallRequest
  | .accept now => (c.accept now, [])
  | .decline reason => c.decline me reason
  | .joinVoice channelId => (c.joinVoice channelId, [])
  | .joined channelId => (c.joined channelId, [])
  | .joinFails channelId => (c.joinFails channelId, [])
  | .leaveVoice => (c.leaveVoice, [])
  | .watch now => c.watch me now
  | .stamp now => (c.stamp now, [])

end CallClient

/-! ### Runs -/

/-- The clients, what is on its way between them, and what has been sent. -/
structure CallState where
  clients : ℕ → CallClient
  /-- The events on the way to each user. -/
  queues : ℕ → List CallEvent
  /-- The requests on their way to the server. -/
  requests : List CallRequest
  /-- All requests that the clients have sent. -/
  sent : List CallRequest
  /-- The requests that have taken effect. -/
  served : List CallRequest
  /-- The number of the next call. -/
  next : ℕ

namespace CallState

variable (s : CallState)

/-- The messages written about calls. -/
def messages : List SystemMessage := s.served.filterMap CallRequest.systemMessage

/-- A client has changed and has sent some requests. -/
def update (u : ℕ) (out : CallClient × List CallRequest) : CallState :=
  { s with
    clients := Function.update s.clients u out.1
    requests := s.requests ++ out.2
    sent := s.sent ++ out.2 }

/-- The users of a direct message channel. -/
def Peer (peers : ℕ → ℕ × ℕ) (u channelId : ℕ) : Prop :=
  u = (peers channelId).1 ∨ u = (peers channelId).2

instance (peers : ℕ → ℕ × ℕ) (u channelId : ℕ) : Decidable (Peer peers u channelId) :=
  inferInstanceAs (Decidable (_ ∨ _))

/-- A request takes effect. -/
def serve (peers : ℕ → ℕ × ℕ) (r : CallRequest) (rest : List CallRequest) : CallState :=
  { s with
    queues := fun u =>
      if Peer peers u r.call.channelId then s.queues u ++ [r.event] else s.queues u
    requests := rest
    served := s.served ++ [r] }

/-- What happens between two clients and the hub. -/
inductive Act
  | startCall (u channelId : ℕ)
  | act (u : ℕ) (a : CallClient.Act)
  | receive (u : ℕ)
  /-- An event does not come to the client. -/
  | lose (u : ℕ) (e : CallEvent)
  | serve (r : CallRequest)
  /-- A request is refused, or does not come to the server. -/
  | refuse (r : CallRequest)

/-- The steps; requests come to the server in any order. -/
inductive Step (peers : ℕ → ℕ × ℕ) : CallState → Act → CallState → Prop
  | startCall {s : CallState} {u channelId : ℕ} : Peer peers u channelId →
      Step peers s (.startCall u channelId)
        { s.update u ((s.clients u).startCall u ⟨s.next, u, channelId⟩) with next := s.next + 1 }
  | act {s : CallState} {u : ℕ} {a : CallClient.Act} :
      Step peers s (.act u a) (s.update u ((s.clients u).act u a))
  | receive {s : CallState} {u : ℕ} {e : CallEvent} {rest : List CallEvent} :
      s.queues u = e :: rest →
      Step peers s (.receive u) { s with
        clients := Function.update s.clients u ((s.clients u).on u e)
        queues := Function.update s.queues u rest }
  | lose {s : CallState} {u : ℕ} {e : CallEvent} {l₁ l₂ : List CallEvent} :
      s.queues u = l₁ ++ e :: l₂ →
      Step peers s (.lose u e) { s with queues := Function.update s.queues u (l₁ ++ l₂) }
  | serve {s : CallState} {r : CallRequest} {l₁ l₂ : List CallRequest} :
      s.requests = l₁ ++ r :: l₂ → Step peers s (.serve r) (s.serve peers r (l₁ ++ l₂))
  | refuse {s : CallState} {r : CallRequest} {l₁ l₂ : List CallRequest} :
      s.requests = l₁ ++ r :: l₂ → Step peers s (.refuse r) { s with requests := l₁ ++ l₂ }

/-- Nobody is in a call at the start. -/
def system (peers : ℕ → ℕ × ℕ) : System CallState Act where
  init := fun s => s = ⟨fun _ => ⟨none, none, none, []⟩, fun _ => [], [], [], [], 0⟩
  step := Step peers

/-! ### What is to hold, and when -/

/-- **One closing record for each call**, and no `cancel` or `end` of a client whose voice
connection has not been in the channel of the call, and left it. -/
structure OneRecord : Prop where
  closings : ∀ call, (s.served.filter fun r => r.closes && decide (r.call = call)).length ≤ 1
  messages : ∀ call, (s.messages.filter fun m => decide (m.call = call)).length ≤ 1
  left : ∀ r ∈ s.sent, r.path = .cancel ∨ (∃ durationSecs, r.path = .ended durationSecs) →
    r.phase = .outside

/-- A user takes part in a call. -/
def Talks (u : ℕ) (call : Call) : Prop := ∃ d ∈ (s.clients u).dmCall, d.call = call

/-- A call rings at a user, or the invitation is on its way. -/
def Rings (u : ℕ) (call : Call) : Prop :=
  (s.clients u).incomingCall = some call ∨
    u ≠ call.inviter ∧ ∃ e ∈ s.queues u, e.call = call ∧ e.closes = false

/-- The start of a call is on its way to the server. -/
def Starts (call : Call) : Prop := ∃ r ∈ s.requests, r.call = call ∧ r.closes = false

/-- The other user has closed a call, and this is on its way. -/
def Closing (u : ℕ) (call : Call) : Prop :=
  (∃ r ∈ s.requests, r.call = call ∧ r.closes = true ∧ r.sub ≠ u) ∨
    ∃ e ∈ s.queues u, e.call = call ∧ e.closes = true ∧ e.fromUserId ≠ u

/-- **Nobody stands against closing a call**: its start has come to the server, and the other user
is not closing it; a call that was not stamped, that user has not accepted, and one that was does
not ring there any more. -/
def Unopposed (u : ℕ) (d : DmCall) : Prop :=
  ¬ s.Closing u d.call ∧ ¬ s.Starts d.call ∧
    ∀ v, v ≠ u → if d.startedAt = none then ¬ s.Talks v d.call else ¬ s.Rings v d.call

/-- **The condition on a step.** A call that the other user is closing is neither accepted nor
declined. The effect closes a call only after its voice channel has been active, and when nobody
stands against it. And the event that closes a call is not lost. -/
def Orderly : Act → Prop
  | .act u (.accept _) => ∀ call, (s.clients u).incomingCall = some call → ¬ s.Closing u call
  | .act u (.decline _) => ∀ call, (s.clients u).incomingCall = some call → ¬ s.Closing u call
  | .act u (.watch _) => ∀ d, (s.clients u).dmCall = some d →
      (s.clients u).activeVoiceChannelId ≠ some d.call.channelId →
        d.phase ≠ .waiting ∧ s.Unopposed u d
  | .lose u e => e.closes = true → e.fromUserId ≠ u → ¬ s.Talks u e.call ∧ ¬ s.Rings u e.call
  | _ => True

/-- **The condition, in terms of the joins**: the effect does not close a call while a session of
its voice channel has been asked for and is not there yet, and no such request fails. -/
def Awaited : Act → Prop
  | .act u (.watch _) => ∀ d, (s.clients u).dmCall = some d →
      (s.clients u).activeVoiceChannelId ≠ some d.call.channelId →
        d.call.channelId ∉ (s.clients u).joining ∧ s.Unopposed u d
  | .act u (.joinFails channelId) =>
      ∀ d, (s.clients u).dmCall = some d → d.call.channelId ≠ channelId
  | a => s.Orderly a

end CallState

/-! ### What a client can do -/

namespace CallClient

/-- The call that the user takes part in. -/
def talk (c : CallClient) : Option Call := c.dmCall.map DmCall.call

/-- The phase says whether the voice channel of the call is the active one. -/
def Located (c : CallClient) : Prop :=
  ∀ d, c.dmCall = some d → (d.phase = .inside ↔ c.activeVoiceChannelId = some d.call.channelId)

/-- A client has no call that it did not have. -/
structure Fewer (c c' : CallClient) : Prop where
  rings : ∀ call, c'.incomingCall = some call → c.incomingCall = some call
  talks : ∀ d', c'.dmCall = some d' → ∃ d, c.dmCall = some d ∧ d'.call = d.call ∧
    (d.startedAt ≠ none → d'.startedAt ≠ none)

variable {me : ℕ} {c c' : CallClient} {call : Call}

/-- A client talks if it has a call. -/
theorem talk_eq_some : c.talk = some call ↔ ∃ d, c.dmCall = some d ∧ d.call = call :=
  Option.map_eq_some_iff

/-- Where there are fewer calls, who talks has talked before. -/
theorem Fewer.talk (h : Fewer c c') (ht : c'.talk = some call) : c.talk = some call := by
  obtain ⟨d', hd', rfl⟩ := talk_eq_some.mp ht
  obtain ⟨d, hd, hcall, -⟩ := h.talks d' hd'
  exact talk_eq_some.mpr ⟨d, hd, hcall.symm⟩

/-- No calls have come where neither has changed. -/
theorem Fewer.of_same (hrings : c'.incomingCall = c.incomingCall) (htalks : c'.dmCall = c.dmCall) :
    Fewer c c' :=
  ⟨fun _ h => hrings ▸ h, fun d h => ⟨d, htalks ▸ h, rfl, fun hs => hs⟩⟩

theorem Fewer.refl (c : CallClient) : Fewer c c := .of_same rfl rfl

theorem Fewer.trans {c'' : CallClient} (h : Fewer c c') (h' : Fewer c' c'') : Fewer c c'' := by
  refine ⟨fun call hr => h.rings call (h'.rings call hr), fun d'' hd'' => ?_⟩
  obtain ⟨d', hd', hcall', hs'⟩ := h'.talks d'' hd''
  obtain ⟨d, hd, hcall, hs⟩ := h.talks d' hd'
  exact ⟨d, hd, hcall'.trans hcall, fun hstarted => hs' (hs hstarted)⟩

/-- A call is inside if its channel is the active one. -/
theorem moved_inside (d : DmCall) (active : Option ℕ) :
    (d.moved active).phase = .inside ↔ active = some d.call.channelId := by
  unfold DmCall.moved
  dsimp only
  split_ifs with hactive hinside <;> simp [*]

/-- A call knows where its client is after a change of the channel. -/
theorem located_setActive (c : CallClient) (active : Option ℕ) :
    (c.setActiveVoiceChannelId active).Located := by
  intro d' hd'
  obtain ⟨d, -, rfl⟩ := Option.map_eq_some_iff.mp hd'
  exact moved_inside d active

/-- A change of the channel makes no call. -/
theorem fewer_setActive (c : CallClient) (active : Option ℕ) :
    Fewer c (c.setActiveVoiceChannelId active) := by
  refine ⟨fun _ h => h, fun d' hd' => ?_⟩
  obtain ⟨d, hd, rfl⟩ := Option.map_eq_some_iff.mp hd'
  exact ⟨d, hd, rfl, fun hs => hs⟩

/-- A call that is entered knows where its client is. -/
theorem located_setDmCall (c : CallClient) (call : Call) (role : Role) (startedAt : Option ℕ) :
    (c.setDmCall call role startedAt).Located := by
  intro d' hd'
  rw [← Option.some_inj.mp hd']
  exact moved_inside _ _

/-- Joining a channel lets a call ring on. -/
@[simp] theorem joinVoice_incomingCall (c : CallClient) (channelId : ℕ) :
    (c.joinVoice channelId).incomingCall = c.incomingCall := by
  unfold joinVoice
  split_ifs <;> rfl

/-- Joining a channel leaves the call that there is. -/
@[simp] theorem joinVoice_dmCall (c : CallClient) (channelId : ℕ) :
    (c.joinVoice channelId).dmCall = c.dmCall := by
  unfold joinVoice
  split_ifs <;> rfl

/-- Joining a channel makes no call. -/
theorem fewer_joinVoice (c : CallClient) (channelId : ℕ) : Fewer c (c.joinVoice channelId) :=
  .of_same (joinVoice_incomingCall c channelId) (joinVoice_dmCall c channelId)

/-- A join that fails makes no call. -/
theorem fewer_joinFails (c : CallClient) (channelId : ℕ) : Fewer c (c.joinFails channelId) :=
  .of_same rfl rfl

/-- A call knows where its client is after a join. -/
theorem Located.joinVoice (h : c.Located) (channelId : ℕ) : (c.joinVoice channelId).Located := by
  unfold CallClient.joinVoice
  split_ifs
  · exact h
  · exact h

/-- A call knows where its client is after a leave. -/
theorem Located.leaveVoice (h : c.Located) : c.leaveVoice.Located := by
  unfold CallClient.leaveVoice
  split_ifs
  · exact h
  · exact located_setActive c none

/-- Leaving a channel makes no call. -/
theorem fewer_leaveVoice (c : CallClient) : Fewer c c.leaveVoice := by
  unfold leaveVoice
  split_ifs
  · exact .refl c
  · exact fewer_setActive c none

/-- Clearing a call makes no call. -/
theorem fewer_clearDmCall (c : CallClient) (channelId : ℕ) : Fewer c (c.clearDmCall channelId) :=
  ⟨fun _ h => h, fun d h => ⟨d, (Option.filter_eq_some_iff.mp h).1, rfl, fun hs => hs⟩⟩

/-- Hanging up makes no call. -/
theorem fewer_hungUp (c : CallClient) (channelId : ℕ) : Fewer c (c.hungUp channelId) := by
  unfold hungUp
  split_ifs
  · exact (fewer_clearDmCall c channelId).trans (fewer_leaveVoice _)
  · exact fewer_clearDmCall c channelId

/-- A call knows where its client is after another has been cleared. -/
theorem Located.clearDmCall (h : c.Located) (channelId : ℕ) : (c.clearDmCall channelId).Located :=
  fun d hd => h d (Option.filter_eq_some_iff.mp hd).1

/-- A call knows where its client is after another has been hung up. -/
theorem Located.hungUp (h : c.Located) (channelId : ℕ) : (c.hungUp channelId).Located := by
  unfold CallClient.hungUp
  split_ifs
  · exact (h.clearDmCall channelId).leaveVoice
  · exact h.clearDmCall channelId

/-- After that, the user takes part in no call of the channel. -/
theorem channelId_of_hungUp {channelId : ℕ} (h : (c.hungUp channelId).talk = some call) :
    call.channelId ≠ channelId := by
  have hclear : (c.clearDmCall channelId).talk = some call := by
    unfold hungUp at h
    split_ifs at h
    · exact (fewer_leaveVoice _).talk h
    · exact h
  obtain ⟨d, hd, rfl⟩ := talk_eq_some.mp hclear
  exact of_decide_eq_true (Option.filter_eq_some_iff.mp hd).2

/-- **What a client can do**: it keeps to the calls it has, or accepts, declines or closes one. -/
theorem act_cases (me : ℕ) (c : CallClient) (a : Act) :
    (Fewer c (c.act me a).1 ∧ (c.act me a).2 = []) ∨
    (∃ call now d, a = .accept now ∧ c.incomingCall = some call ∧ (c.act me a).2 = [] ∧
      (c.act me a).1.incomingCall = none ∧ (c.act me a).1.dmCall = some d ∧ d.call = call ∧
      d.startedAt ≠ none) ∨
    (∃ call reason, a = .decline reason ∧ c.incomingCall = some call ∧
      c.act me a = ({ c with incomingCall := none }, [⟨me, call, .decline reason, .waiting⟩])) ∨
    ∃ d now, a = .watch now ∧ c.dmCall = some d ∧
      c.activeVoiceChannelId ≠ some d.call.channelId ∧
      c.act me a = ({ c with dmCall := none }, [closing me d now]) := by
  cases a with
  | accept now =>
    rcases hin : c.incomingCall with _ | call
    · refine .inl ⟨?_, rfl⟩
      rw [act, accept, hin]
      exact .refl c
    · refine .inr (.inl ⟨call, now, DmCall.moved ⟨call, .recipient, some now, .waiting⟩
        c.activeVoiceChannelId, rfl, rfl, rfl, ?_, ?_, rfl, Option.some_ne_none now⟩)
      · rw [act, accept, hin]
        exact joinVoice_incomingCall _ _
      · rw [act, accept, hin]
        exact joinVoice_dmCall _ _
  | decline reason =>
    rw [act, decline]
    rcases hin : c.incomingCall with _ | call
    · exact .inl ⟨.refl c, rfl⟩
    · exact .inr (.inr (.inl ⟨call, reason, rfl, rfl, rfl⟩))
  | joinVoice channelId => exact .inl ⟨fewer_joinVoice c channelId, rfl⟩
  | joined channelId =>
    refine .inl ⟨?_, rfl⟩
    rw [act, joined]
    dsimp only
    split_ifs
    · exact (fewer_joinFails c channelId).trans (fewer_setActive _ _)
    · exact .refl c
  | joinFails channelId => exact .inl ⟨fewer_joinFails c channelId, rfl⟩
  | leaveVoice => exact .inl ⟨fewer_leaveVoice c, rfl⟩
  | watch now =>
    rw [act, watch]
    rcases hd : c.dmCall with _ | d
    · exact .inl ⟨.refl c, rfl⟩
    · dsimp only
      split_ifs with hactive
      · exact .inl ⟨.refl c, rfl⟩
      · exact .inr (.inr (.inr ⟨d, now, rfl, rfl, hactive, rfl⟩))
  | stamp now =>
    refine .inl ⟨?_, rfl⟩
    rw [act, stamp]
    rcases hd : c.dmCall with _ | d
    · exact .refl c
    · dsimp only
      split_ifs
      · refine ⟨fun _ h => h, fun d' hd' => ⟨d, hd, ?_, fun _ => ?_⟩⟩
        · rw [← Option.some_inj.mp hd']
        · rw [← Option.some_inj.mp hd']
          exact Option.some_ne_none now
      · exact .refl c

/-- **What a user does** leaves a call knowing where its client is. -/
theorem Located.act (h : c.Located) (a : Act) : (c.act me a).1.Located := by
  cases a with
  | accept now =>
    rw [CallClient.act, accept]
    rcases c.incomingCall with _ | call
    · exact h
    · exact (located_setDmCall _ _ _ _).joinVoice _
  | decline reason =>
    rw [CallClient.act, decline]
    rcases c.incomingCall with _ | call
    · exact h
    · exact h
  | joinVoice channelId => exact h.joinVoice channelId
  | joined channelId =>
    rw [CallClient.act, joined]
    dsimp only
    split_ifs
    · exact located_setActive _ _
    · exact h
  | joinFails channelId => exact h
  | leaveVoice => exact h.leaveVoice
  | watch now =>
    rw [CallClient.act, watch]
    rcases hd : c.dmCall with _ | d
    · exact h
    · dsimp only
      split_ifs
      · exact h
      · exact fun _ hnone => absurd hnone (Option.some_ne_none _).symm
  | stamp now =>
    rw [CallClient.act, stamp]
    rcases hd : c.dmCall with _ | d
    · exact h
    · dsimp only
      split_ifs
      · intro d' hd'
        rw [← Option.some_inj.mp hd']
        exact h d hd
      · exact h

/-- **An event** leaves a call knowing where its client is. -/
theorem Located.on (h : c.Located) (e : CallEvent) : (c.on me e).Located := by
  unfold CallClient.on
  split
  · split_ifs <;> exact h
  · split_ifs
    · exact h
    · exact h.hungUp _
  · exact h
  · split_ifs
    · exact h
    · exact h.hungUp _

/-! ### A call waits for its session -/

/-- A call whose voice channel has not been active waits for a session that has been asked for. -/
def Connects (c : CallClient) : Prop :=
  ∀ d, c.dmCall = some d → d.phase = .waiting → d.call.channelId ∈ c.joining

/-- A call that waits in another channel has waited before. -/
theorem DmCall.of_moved_waiting {d : DmCall} {active : Option ℕ}
    (h : (d.moved active).phase = .waiting) :
    active ≠ some d.call.channelId ∧ d.phase = .waiting := by
  unfold DmCall.moved at h
  dsimp only at h
  split_ifs at h with hactive hinside
  exact ⟨hactive, h⟩

/-- A call that waits is being connected, also after a change of the channel. -/
theorem Connects.setActive (h : c.Connects) (active : Option ℕ) :
    (c.setActiveVoiceChannelId active).Connects := by
  intro d' hd' hwaits
  obtain ⟨d, hd, rfl⟩ := Option.map_eq_some_iff.mp hd'
  exact h d hd (DmCall.of_moved_waiting hwaits).2

/-- A call that waits is being connected, also after another join. -/
theorem Connects.joinVoice (h : c.Connects) (channelId : ℕ) : (c.joinVoice channelId).Connects := by
  unfold CallClient.joinVoice
  split_ifs
  · exact h
  · exact fun d hd hwaits => List.mem_cons_of_mem _ (h d hd hwaits)

/-- `startCall` and `accept` ask for a session, unless they have it. -/
theorem connects_setDmCall (c : CallClient) (call : Call) (role : Role) (startedAt : Option ℕ) :
    ((c.setDmCall call role startedAt).joinVoice call.channelId).Connects := by
  intro d hd hwaits
  rw [joinVoice_dmCall] at hd
  obtain rfl := Option.some_inj.mp hd
  have hactive : (c.setDmCall call role startedAt).activeVoiceChannelId ≠ some call.channelId :=
    (DmCall.of_moved_waiting hwaits).1
  rw [CallClient.joinVoice, if_neg hactive]
  exact List.mem_cons_self

/-- A call that waits is being connected, also when a join is through. -/
theorem Connects.joined (h : c.Connects) (channelId : ℕ) : (c.joined channelId).Connects := by
  unfold CallClient.joined
  split_ifs
  · intro d' hd' hwaits
    obtain ⟨d, hd, rfl⟩ := Option.map_eq_some_iff.mp hd'
    obtain ⟨hactive, hwaits⟩ := DmCall.of_moved_waiting hwaits
    -- the session that has come is that of another channel
    have hne : d.call.channelId ≠ channelId := fun heq => hactive (congrArg some heq.symm)
    exact (List.mem_erase_of_ne hne).mpr (h d hd hwaits)
  · exact h

/-- A call that waits is being connected, also when the join of another channel fails. -/
theorem Connects.joinFails (h : c.Connects) {channelId : ℕ}
    (hother : ∀ d, c.dmCall = some d → d.call.channelId ≠ channelId) :
    (c.joinFails channelId).Connects :=
  fun d hd hwaits => (List.mem_erase_of_ne (hother d hd)).mpr (h d hd hwaits)

/-- A call that waits is being connected, also after a leave. -/
theorem Connects.leaveVoice (h : c.Connects) : c.leaveVoice.Connects := by
  unfold CallClient.leaveVoice
  split_ifs
  · exact h
  · exact h.setActive none

/-- A call that waits is being connected, also after another has been hung up. -/
theorem Connects.hungUp (h : c.Connects) (channelId : ℕ) : (c.hungUp channelId).Connects := by
  have hclear : (c.clearDmCall channelId).Connects :=
    fun d hd => h d (Option.filter_eq_some_iff.mp hd).1
  unfold CallClient.hungUp
  split_ifs
  · exact hclear.leaveVoice
  · exact hclear

/-- **What a user does** leaves a call that waits being connected, unless its own join fails. -/
theorem Connects.act (h : c.Connects) (a : Act)
    (ha : ∀ channelId, a = .joinFails channelId →
      ∀ d, c.dmCall = some d → d.call.channelId ≠ channelId) : (c.act me a).1.Connects := by
  cases a with
  | accept now =>
    rw [CallClient.act, accept]
    rcases c.incomingCall with _ | call
    · exact h
    · exact connects_setDmCall _ _ _ _
  | decline reason =>
    rw [CallClient.act, decline]
    rcases c.incomingCall with _ | call
    · exact h
    · exact h
  | joinVoice channelId => exact h.joinVoice channelId
  | joined channelId => exact h.joined channelId
  | joinFails channelId => exact h.joinFails (ha channelId rfl)
  | leaveVoice => exact h.leaveVoice
  | watch now =>
    rw [CallClient.act, watch]
    rcases hd : c.dmCall with _ | d
    · exact h
    · dsimp only
      split_ifs
      · exact h
      · exact fun _ hnone => absurd hnone (Option.some_ne_none _).symm
  | stamp now =>
    rw [CallClient.act, stamp]
    rcases hd : c.dmCall with _ | d
    · exact h
    · dsimp only
      split_ifs
      · intro d' hd'
        rw [← Option.some_inj.mp hd']
        exact h d hd
      · exact h

/-- **An event** leaves a call that waits being connected. -/
theorem Connects.on (h : c.Connects) (e : CallEvent) : (c.on me e).Connects := by
  unfold CallClient.on
  split
  · split_ifs <;> exact h
  · split_ifs
    · exact h
    · exact h.hungUp _
  · exact h
  · split_ifs
    · exact h
    · exact h.hungUp _

/-- An event brings no call but the one that an invitation of somebody else is for. -/
theorem on_cases (me : ℕ) (c : CallClient) (e : CallEvent) :
    Fewer c (c.on me e) ∨
      e.closes = false ∧ e.fromUserId ≠ me ∧
        c.on me e = { c with incomingCall := some e.call } := by
  unfold on
  split
  · rename_i htype
    split_ifs with hown
    · exact .inl (.refl c)
    · exact .inr ⟨by simp [CallEvent.closes, htype], hown, rfl⟩
  · split_ifs
    · exact .inl (.refl c)
    · exact .inl (fewer_hungUp c _)
  · exact .inl ⟨fun _ h => (Option.filter_eq_some_iff.mp h).1,
      fun d h => ⟨d, h, rfl, fun hs => hs⟩⟩
  · split_ifs
    · exact .inl (.refl c)
    · exact .inl (fewer_hungUp c _)

end CallClient

end Web

end MateHub
