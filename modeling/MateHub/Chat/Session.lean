import MateHub.Chat.Fanout
import MateHub.Lib.Numbered

/-!
# Sessions of the chat gateway

Each session of the gateway keeps the events it has dispatched last, with their sequence
numbers, so that a client that reconnects can be sent what it has missed. The buffer is
bounded in the number of events and in bytes, and `replay_from` refuses a request that
goes back beyond it.

The buffer holds serialised frames. We keep the frames themselves; what their
serialisation matters for is its length, and that is a parameter. A frame in the buffer
is kept with the place that its event had in the order of publication, which nothing in
the code reads.
-/

namespace MateHub

namespace Chat

/-- Milliseconds. -/
abbrev Instant := ℕ

/-- The text of a random UUID. -/
abbrev SessionId := String

/-- What the chat service uses of the claims of a token. -/
structure Claims where
  sub : I64
  username : String
  hubId : I64
  deriving DecidableEq

/-- A frame from the server; `D` is the type of JSON values. -/
structure GatewayEvent (D : Type) where
  op : ℕ
  s : Option ℕ
  t : Option String
  d : D
  deriving DecidableEq, Repr

/-- An event in the replay buffer of a session. -/
structure BufferedEvent (D : Type) where
  seq : ℕ
  data : GatewayEvent D
  /-- Where the event stands in the order of publication. -/
  origin : ℕ
  deriving DecidableEq, Repr

/-- `MAX_EVENTS`. -/
def maxEvents : ℕ := 512

/-- `MAX_BYTES`. -/
def maxBytes : ℕ := 2 * 1024 * 1024

/-- `SESSION_TTL`. -/
def sessionTtl : ℕ := 300 * 1000

/-- A session, under its lock. -/
structure SessionInner (D : Type) where
  claims : Claims
  natsSubject : List Char
  events : List (BufferedEvent D)
  totalBytes : ℕ
  lastSeq : ℕ
  disconnectedAt : Option Instant

namespace SessionInner

variable {D : Type}

/-- A session as `create` makes it. -/
def new (claims : Claims) (natsSubject : List Char) : SessionInner D where
  claims := claims
  natsSubject := natsSubject
  events := []
  totalBytes := 0
  lastSeq := 0
  disconnectedAt := none

/-- The loop at the end of `push`: the oldest go while there are too many events or
bytes. -/
def evict (bytes : GatewayEvent D → ℕ) : List (BufferedEvent D) → ℕ →
    List (BufferedEvent D) × ℕ
  | [], totalBytes => ([], totalBytes)
  | old :: rest, totalBytes =>
    if maxEvents < rest.length + 1 ∨ maxBytes < totalBytes then
      evict bytes rest (totalBytes - bytes old.data)
    else (old :: rest, totalBytes)

/-- `push`: the event is buffered, and the oldest ones go if there are too many, or too many
bytes. -/
def push (bytes : GatewayEvent D → ℕ) (s : SessionInner D) (e : BufferedEvent D) :
    SessionInner D :=
  let r := evict bytes (s.events ++ [e]) (s.totalBytes + bytes e.data)
  { s with events := r.1, totalBytes := r.2, lastSeq := e.seq }

/-- `replay_from`. -/
def replayFrom (s : SessionInner D) (afterSeq : ℕ) : Option (List (BufferedEvent D)) :=
  if s.lastSeq < afterSeq then some []
  else
    let minSeq := (s.events.head?.map BufferedEvent.seq).getD (s.lastSeq + 1)
    if afterSeq + 1 < minSeq then none
    else some (s.events.filter fun e => afterSeq < e.seq)

/-- `mark_disconnected` -/
def markDisconnected (s : SessionInner D) (now : Instant) : SessionInner D :=
  { s with disconnectedAt := some now }

/-- `mark_connected` -/
def markConnected (s : SessionInner D) : SessionInner D := { s with disconnectedAt := none }

/-- The test of `reap_expired`: whether the session stays. -/
def keeps (s : SessionInner D) (now : Instant) : Bool :=
  match s.disconnectedAt with
  | some t => decide (now - t < sessionTtl)
  | none => true

/-! ### The buffer as a window -/

/-- The buffer holds the end of what was dispatched in the session, and what was
dispatched is numbered. -/
structure Window (s : SessionInner D) (log : List (BufferedEvent D)) : Prop where
  numbered : Numbered BufferedEvent.seq log
  lastSeq : s.lastSeq = log.length
  events : ∃ k, k ≤ log.length ∧ s.events = log.drop k

theorem window_new (claims : Claims) (natsSubject : List Char) :
    Window (D := D) (.new claims natsSubject) [] :=
  ⟨.nil, rfl, 0, Nat.le_refl 0, rfl⟩

theorem Window.congr {s s' : SessionInner D} {log : List (BufferedEvent D)} (h : s.Window log)
    (hseq : s'.lastSeq = s.lastSeq) (hevents : s'.events = s.events) : s'.Window log :=
  ⟨h.numbered, hseq.trans h.lastSeq, hevents ▸ h.events⟩

/-- What is left of the buffer is an end of it. -/
theorem evict_eq_drop (bytes : GatewayEvent D → ℕ) (events : List (BufferedEvent D))
    (totalBytes : ℕ) : ∃ k, k ≤ events.length ∧ (evict bytes events totalBytes).1 =
      events.drop k := by
  induction events generalizing totalBytes with
  | nil => exact ⟨0, Nat.le_refl 0, rfl⟩
  | cons old rest ih =>
    unfold evict
    split
    · obtain ⟨k, hk, heq⟩ := ih (totalBytes - bytes old.data)
      exact ⟨k + 1, Nat.succ_le_succ hk, heq⟩
    · exact ⟨0, Nat.zero_le _, rfl⟩

/-- Dispatching under the next number keeps the buffer a window. -/
theorem Window.push {s : SessionInner D} {log : List (BufferedEvent D)} (h : s.Window log)
    (bytes : GatewayEvent D → ℕ) {e : BufferedEvent D} (he : e.seq = s.lastSeq + 1) :
    (s.push bytes e).Window (log ++ [e]) := by
  obtain ⟨k, hk, hevents⟩ := h.events
  obtain ⟨j, hj, hevict⟩ := evict_eq_drop bytes (s.events ++ [e]) (s.totalBytes + bytes e.data)
  have hdrop : s.events ++ [e] = (log ++ [e]).drop k := by
    rw [hevents, List.drop_append_of_le_length hk]
  refine ⟨Numbered.append_iff.mpr ⟨h.numbered, by rw [he, h.lastSeq]⟩, ?_, k + j, ?_, ?_⟩
  · rw [List.length_append, List.length_singleton, ← h.lastSeq, ← he]
    rfl
  · rw [hdrop, List.length_drop] at hj
    have : k ≤ (log ++ [e]).length := by
      rw [List.length_append]
      omega
    omega
  · rw [SessionInner.push, hevict, hdrop, List.drop_drop]

/-- **What `replay_from` returns is all that was dispatched since**, or nothing if the
buffer does not go back that far. -/
theorem Window.replayFrom {s : SessionInner D} {log : List (BufferedEvent D)} (h : s.Window log)
    {afterSeq : ℕ} {replay : List (BufferedEvent D)} (hr : s.replayFrom afterSeq = some replay) :
    replay = log.drop afterSeq := by
  obtain ⟨k, hk, hevents⟩ := h.events
  unfold SessionInner.replayFrom at hr
  split at hr
  · rename_i hlt
    rw [← Option.some.inj hr, List.drop_eq_nil_of_le (by rw [← h.lastSeq]; omega)]
  · have hmin : (s.events.head?.map BufferedEvent.seq).getD (s.lastSeq + 1) = k + 1 := by
      rw [hevents]
      rcases hdrop : log.drop k with _ | ⟨e, rest⟩
      · have hlen := congrArg List.length hdrop
        rw [List.length_drop, List.length_nil] at hlen
        rw [h.lastSeq, show log.length = k by omega]
        rfl
      · exact h.numbered.num_head hdrop
    dsimp only at hr
    rw [hmin] at hr
    split at hr
    · cases hr
    · rw [← Option.some.inj hr, hevents]
      exact h.numbered.filter_drop (by omega)

end SessionInner

end Chat

end MateHub
