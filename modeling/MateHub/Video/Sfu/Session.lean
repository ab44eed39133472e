import Mathlib.Algebra.Order.Field.Rat
import MateHub.Lib.Dict
import MateHub.Video.Str0m

/-!
# Sessions, participants and tracks of the SFU

The state of `sfu/session.rs`: a session is a map of participants with three
tables beside it – who forwards to whom, when a keyframe was last asked for, and
which audio publishers are loud enough to be forwarded.

The smoothed loudness, a 32-bit float in the service, is a rational here.
-/

namespace MateHub

namespace Video

/-- A track a participant publishes. -/
structure TrackIn where
  mid : Mid
  kind : MediaKind
  source : Source
  /-- Smoothed loudness, 0 to 127. -/
  audioLoudnessEma : ℚ

/-- `TrackOutState` -/
inductive TrackOutState
  /-- Needs SDP renegotiation to open. -/
  | toOpen
  /-- SDP offer sent, waiting for the answer. -/
  | negotiating (mid : Mid)
  /-- Open and forwarding. -/
  | opened (mid : Mid)
  deriving DecidableEq, Repr

/-- A track a participant subscribes to. -/
structure TrackOut where
  origin : ParticipantId
  originMid : Mid
  kind : MediaKind
  source : Source
  state : TrackOutState
  /-- Ingress SSRC and signed offset of the egress sequence rewrite. -/
  egressSeqAnchor : Option (Ssrc × ℤ)
  /-- Highest egress sequence number written. -/
  egressSeqHigh : ℕ

/-- `open_mid`. -/
def TrackOut.openMid (t : TrackOut) : Option Mid :=
  match t.state with
  | .opened mid => some mid
  | _ => none

/-- `SfuParticipant`, with the fields that the shard reads. -/
structure SfuParticipant (S : Str0m) where
  id : ParticipantId
  userId : String
  rtc : S.Rtc
  wsTx : WsTx
  tracksIn : List TrackIn
  tracksOut : List TrackOut
  egressBitrateBps : ℕ
  pendingOffer : Option S.SdpPendingOffer
  queuedClientOffer : Option String
  pendingSourceHints : Dict MediaKind (List Source)
  lastActivityAt : Instant
  iceDisconnected : Bool

/-- The key of the per-track tables: a publisher and its mid. -/
abbrev TrackKey := ParticipantId × Mid

/-- `SfuSession` -/
structure SfuSession (S : Str0m) where
  id : SessionId
  participants : Dict ParticipantId (SfuParticipant S)
  forwardingMap : Dict TrackKey (List TrackKey)
  lastKeyframeAt : Dict TrackKey Instant
  topAudioPublishers : KeySet TrackKey

/-- `KEYFRAME_THROTTLE`. -/
def keyframeThrottle : Duration := 500

/-- `AUDIO_TOP_K`. -/
def audioTopK : ℕ := 3

/-- `AUDIO_FILTER_MIN_PUBLISHERS`. -/
def audioFilterMinPublishers : ℕ := audioTopK + 1

/-- `pick_top_audio`: everyone when there are too few to filter, else the loudest
`audioTopK` by a stable sort. -/
def pickTopAudio (audio : List (ℚ × TrackKey)) : KeySet TrackKey :=
  if audio.length < audioFilterMinPublishers then
    audio.foldl (fun out e => out.insert e.2 ()) ∅
  else
    ((audio.mergeSort fun a b => decide (b.1 ≤ a.1)).take audioTopK).foldl
      (fun out e => out.insert e.2 ()) ∅

namespace SfuSession

variable {S : Str0m}

/-- A session in which nobody is. -/
def new (id : SessionId) : SfuSession S where
  id := id
  participants := ∅
  forwardingMap := ∅
  lastKeyframeAt := ∅
  topAudioPublishers := ∅

/-- A participant of a session is written. -/
def setParticipant (s : SfuSession S) (pid : ParticipantId) (p : SfuParticipant S) :
    SfuSession S :=
  { s with participants := s.participants.insert pid p }

/-- `recompute_top_audio`. -/
def recomputeTopAudio (s : SfuSession S) : SfuSession S :=
  { s with
    topAudioPublishers := pickTopAudio <| s.participants.pairs.flatMap fun e =>
      (e.2.tracksIn.filter fun t => t.kind = .audio).map fun t =>
        (t.audioLoudnessEma, (e.1, t.mid)) }

/-- `request_keyframe_throttled`; the flag says whether a request was sent. -/
def requestKeyframeThrottled (s : SfuSession S) (now : Instant) (publisherPid : ParticipantId)
    (publisherMid : Mid) : SfuSession S × Bool :=
  let key := (publisherPid, publisherMid)
  if ((s.lastKeyframeAt.lookup key).any fun t => now - t < keyframeThrottle) then (s, false)
  else
    match s.participants.lookup publisherPid with
    | none => (s, false)
    | some publisher =>
      match S.requestKeyframe publisher.rtc publisherMid with
      | none => (s, false)
      | some rtc =>
        ({ s.setParticipant publisherPid { publisher with rtc := rtc } with
            lastKeyframeAt := s.lastKeyframeAt.insert key now }, true)

/-- `drop_from_forwarding`: every entry touching `gone` goes, as publisher or as
subscriber, and so does what is then empty. -/
def dropFromForwarding (s : SfuSession S) (gone : ParticipantId) : SfuSession S :=
  { s with
    forwardingMap :=
      ((s.forwardingMap.retain fun k _ => k.1 ≠ gone).mapVals fun _ targets =>
        targets.filter fun t => t.1 ≠ gone).retain fun _ targets => !targets.isEmpty
    lastKeyframeAt := s.lastKeyframeAt.retain fun k _ => k.1 ≠ gone }

end SfuSession

end Video

end MateHub
