import Mathlib.Data.BitVec
import Mathlib.Data.Rat.Init

/-!
# Identifiers and signaling messages of the video service

The vocabulary shared by the WebSocket handlers and the SFU: the identifiers, the
messages of `signaling/messages.rs`, and the bounded queue of messages that leads
to one WebSocket (`WS_TX_BUFFER`, `ws_try_send`).

Snowflakes are `i64` in the service and only ever compared here, so they are
integers; a `Uuid` is its 128 bits; an instant is a number of milliseconds on the
monotonic clock.
-/

namespace MateHub

namespace Video

/-- A version 4 or version 5 identifier, as its 128 bits. -/
abbrev Uuid := BitVec 128

abbrev ParticipantId := Uuid

abbrev SessionId := Uuid

abbrev ChannelId := ℤ

abbrev HubId := ℤ

/-- An m-line identifier of one peer connection. -/
abbrev Mid := ℕ

/-- A simulcast layer identifier. -/
abbrev Rid := String

abbrev Ssrc := ℕ

/-- A payload type. -/
abbrev Pt := ℕ

/-- A point of the monotonic clock, in milliseconds. -/
abbrev Instant := ℕ

/-- A span of the monotonic clock, in milliseconds. -/
abbrev Duration := ℕ

/-- An address of a peer: its IP, as a number, and its port. -/
abbrev SocketAddr := ℕ × ℕ

/-- The identity of a per-WebSocket channel: what `same_channel` compares. -/
abbrev WsTx := ℕ

/-- `MediaKind` -/
inductive MediaKind
  | audio
  | video
  deriving DecidableEq, Repr

/-- Logical track source: microphone and webcam, or `getDisplayMedia`. -/
inductive Source
  | camera
  | screen
  deriving DecidableEq, Repr

/-- `Source::as_msid_tag`. -/
def Source.asMsidTag : Source → String
  | .camera => "cam"
  | .screen => "screen"

/-- The `source` value of a `TrackMapping`. -/
def Source.wire : Source → String
  | .camera => "camera"
  | .screen => "screen"

/-- The `kind` value of a `TrackMapping`, and the last part of a stream id. -/
def MediaKind.wire : MediaKind → String
  | .audio => "audio"
  | .video => "video"

/-- The hexadecimal digits of the low `n` nibbles, most significant first. -/
def hexDigits (x : ℕ) : ℕ → List Char
  | 0 => []
  | n + 1 => hexDigits (x / 16) n ++ [Nat.digitChar (x % 16)]

/-- The hyphenated lower-case form an identifier is printed in. -/
def Uuid.hyphenated (u : Uuid) : String :=
  let d := hexDigits u.toNat 32
  String.ofList (d.take 8 ++ '-' :: (d.drop 8).take 4 ++ '-' :: (d.drop 12).take 4 ++
    '-' :: (d.drop 16).take 4 ++ '-' :: d.drop 20)

/-- `stream_id_for`: one msid per publisher, source and kind. -/
def streamIdFor (origin : ParticipantId) (source : Source) (kind : MediaKind) : String :=
  origin.hyphenated ++ "-" ++ source.asMsidTag ++ "-" ++ kind.wire

/-- Maps a stream id of an offer to the participant it comes from. -/
structure TrackMapping where
  streamId : String
  participantId : ParticipantId
  userId : String
  source : String
  kind : String
  deriving DecidableEq, Repr

/-- Client to server. -/
inductive ClientMessage
  | join (sdpOffer : String)
  | answer (sdpAnswer : String)
  | iceCandidate (candidate : String) (sdpMid : Option String)
  | muteChanged (kind : String) (muted : Bool)
  | deafenChanged (deafened : Bool)
  | publishTrack (source kind : String)
  | offer (sdpOffer : String)
  | leave
  deriving DecidableEq, Repr

/-- Server to client; `IceCandidate` is left out, nothing sends it. -/
inductive ServerMessage
  | answer (sdpAnswer : String) (participantId : ParticipantId)
  | offer (sdpOffer : String) (tracks : Option (List TrackMapping))
  | participantJoined (participantId : ParticipantId) (userId : String)
  | participantLeft (participantId : ParticipantId) (userId : String)
  | participantMuted (participantId : ParticipantId) (kind : String) (muted : Bool)
  | participantDeafened (participantId : ParticipantId) (deafened : Bool)
  | error (message : String)
  | forceDisconnected (reason : String)
  deriving DecidableEq, Repr

/-! ### The queue that leads to one WebSocket -/

/-- `WS_TX_BUFFER`. -/
def wsTxBuffer : ℕ := 256

/-- The channel of one WebSocket: the messages waiting, and whether the receiving
handler is gone. -/
structure Outbox where
  queue : List ServerMessage := []
  closed : Bool := false
  deriving DecidableEq, Repr

/-- `try_send`: a closed channel swallows the message, a full one drops it. -/
def Outbox.trySend (o : Outbox) (msg : ServerMessage) : Outbox :=
  if o.closed || wsTxBuffer ≤ o.queue.length then o else { o with queue := o.queue ++ [msg] }

end Video

end MateHub
