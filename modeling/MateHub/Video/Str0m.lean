import Mathlib.Data.Set.Basic
import Mathlib.Logic.Relation
import MateHub.Video.Signaling

/-!
# What the SFU calls of str0m

The SFU drives one `Rtc` per participant: a third-party state machine that holds
ICE, DTLS, SDP and the media streams, and of which only the interface is known
here. `MateHub.Video.Str0m` is that interface, as a parameter of everything that
follows: the types, and one function per call, a call on a `&mut Rtc` returning
the new `Rtc` beside its result. A particular run of the network and of the
clients is a particular value of this parameter, since the `Rtc` that `build`
returns may depend on the credentials it is given and may hold any script of
outputs.

Nothing is assumed about these functions where the parameter is taken. What some
results do need – that a media section is announced once – is stated as a property
of the parameter (`MateHub.Video.Str0m.MediaAddedOnce`) and appears as a hypothesis
of exactly those results.
-/

namespace MateHub

namespace Video

/-! ### Inputs and outputs -/

/-- `IceConnectionState` -/
inductive IceConnectionState
  | new
  | checking
  | connected
  | completed
  | disconnected
  deriving DecidableEq, Repr

/-- The directions that the SFU offers lines with. -/
inductive Direction
  | sendOnly
  | inactive
  deriving DecidableEq, Repr

/-- `IceCreds`, with the local ufrag the SFU routes by. -/
structure IceCreds where
  ufrag : String
  pass : String
  deriving DecidableEq, Repr

/-- The header extension values the SFU reads or copies. -/
structure ExtensionValues where
  audioLevel : Option ℤ := none
  voiceActivity : Option Bool := none
  videoOrientation : Option ℕ := none
  videoContentType : Option ℕ := none
  deriving DecidableEq, Repr

/-- An ingress RTP packet: the header fields in use, the extended sequence number
and the payload. -/
structure RtpPacket where
  ssrc : Ssrc
  payloadType : Pt
  headerTimestamp : ℕ
  marker : Bool
  extVals : ExtensionValues
  seqNo : ℕ
  timestamp : Instant
  payload : List UInt8
  deriving DecidableEq, Repr

/-- The packet handed to a send stream. -/
structure RtpWrite where
  pt : Pt
  seqNo : ℕ
  headerTimestamp : ℕ
  timestamp : Instant
  payload : List UInt8
  marker : Bool
  extVals : ExtensionValues
  nackable : Bool
  deriving DecidableEq, Repr

/-- `BweKind`, which is not exhaustive. -/
inductive BweKind
  | twcc (bps : ℕ)
  | remb (mid : Mid) (bps : ℕ)
  | other
  deriving DecidableEq, Repr

/-- The events of a transport that the SFU reads. -/
inductive Event
  | iceConnectionStateChange (state : IceConnectionState)
  | mediaAdded (mid : Mid) (kind : MediaKind)
  | rtpPacket (pkt : RtpPacket)
  | egressBitrateEstimate (kind : BweKind)
  | keyframeRequest (mid : Mid)
  | other
  deriving DecidableEq, Repr

/-- What a poll of a transport yields. -/
inductive Output
  | transmit (destination : SocketAddr) (contents : List UInt8)
  | event (e : Event)
  | timeout (at_ : Instant)
  deriving DecidableEq, Repr

/-! ### The interface -/

/-- The part of str0m the SFU calls. -/
structure Str0m where
  /-- One participant's transport. -/
  Rtc : Type
  /-- `rtc.sdp_api()`: an `Rtc` with the changes staged so far. -/
  SdpApi : Type
  SdpOffer : Type
  SdpAnswer : Type
  SdpPendingOffer : Type
  /-- A negotiated payload, with its codec. -/
  PayloadParams : Type
  Candidate : Type
  /-- A datagram recognized as STUN, DTLS, RTP or RTCP. -/
  DatagramRecv : Type
  offerOfJson : String → Option SdpOffer
  offerOfSdp : String → Except String SdpOffer
  offerText : SdpOffer → String
  answerOfJson : String → Option SdpAnswer
  answerOfSdp : String → Except String SdpAnswer
  answerText : SdpAnswer → String
  candidateOfSdp : String → Except String Candidate
  hostCandidate : SocketAddr → Candidate
  datagram : List UInt8 → Option DatagramRecv
  build : IceCreds → Instant → Rtc
  addLocalCandidate : Rtc → Candidate → Rtc
  addRemoteCandidate : Rtc → Candidate → Rtc
  disconnect : Rtc → Rtc
  isAlive : Rtc → Bool
  /-- `accepts` of a received datagram: source, destination, contents. -/
  accepts : Rtc → Instant → SocketAddr → SocketAddr → DatagramRecv → Bool
  handleReceive : Rtc → Instant → SocketAddr → SocketAddr → DatagramRecv → Rtc × Except String Unit
  handleTimeout : Rtc → Instant → Rtc
  pollOutput : Rtc → Rtc × Except String Output
  sdpApi : Rtc → SdpApi
  acceptOffer : SdpApi → SdpOffer → Rtc × Except String SdpAnswer
  acceptAnswer : SdpApi → SdpPendingOffer → SdpAnswer → Rtc × Except String Unit
  addMedia : SdpApi → MediaKind → Direction → String → SdpApi × Mid
  setDirection : SdpApi → Mid → Direction → SdpApi
  hasChanges : SdpApi → Bool
  apply : SdpApi → Rtc × Option (SdpOffer × SdpPendingOffer)
  /-- The `Rtc` left behind when a change is dropped without being applied. -/
  dropChange : SdpApi → Rtc
  /-- `direct_api().stream_rx`: the mid and rid of an ingress stream. -/
  streamRx : Rtc → Ssrc → Option (Mid × Option Rid)
  /-- `direct_api().stream_rx_by_mid(mid, None)` and `request_keyframe` on it. -/
  requestKeyframe : Rtc → Mid → Option Rtc
  /-- `codec_config().find` by payload type. -/
  findPayload : Rtc → Pt → Option PayloadParams
  /-- `codec_config().match_params`. -/
  matchParams : Rtc → PayloadParams → Option PayloadParams
  pt : PayloadParams → Pt
  isRtx : PayloadParams → Bool
  /-- `direct_api().stream_tx_by_mid(mid, None)`, then an unpaced `write_rtp`. -/
  writeRtp : Rtc → Mid → RtpWrite → Option Rtc

namespace Str0m

variable (S : Str0m)

/-- An offer is read as JSON first, then as raw SDP. -/
def readOffer (text : String) : Except String S.SdpOffer :=
  match S.offerOfJson text with
  | some offer => .ok offer
  | none => S.offerOfSdp text

/-- An answer is read as JSON first, then as raw SDP. -/
def readAnswer (text : String) : Except String S.SdpAnswer :=
  match S.answerOfJson text with
  | some answer => .ok answer
  | none => S.answerOfSdp text

/-! ### The life of a transport -/

/-- The changes staged on a transport: an `sdp_api()` and the edits made to it. -/
inductive Staged (rtc : S.Rtc) : S.SdpApi → Prop
  | sdpApi : Staged rtc (S.sdpApi rtc)
  | addMedia {api : S.SdpApi} (kind : MediaKind) (dir : Direction) (streamId : String) :
      Staged rtc api → Staged rtc (S.addMedia api kind dir streamId).1
  | setDirection {api : S.SdpApi} (mid : Mid) (dir : Direction) :
      Staged rtc api → Staged rtc (S.setDirection api mid dir)

/-- One call on a transport that is already in a session, and what it leaves. -/
inductive Call : S.Rtc → S.Rtc → Prop
  | pollOutput (rtc : S.Rtc) : Call rtc (S.pollOutput rtc).1
  | addRemoteCandidate (rtc : S.Rtc) (c : S.Candidate) : Call rtc (S.addRemoteCandidate rtc c)
  | disconnect (rtc : S.Rtc) : Call rtc (S.disconnect rtc)
  | handleReceive (rtc : S.Rtc) (now : Instant) (src dst : SocketAddr) (d : S.DatagramRecv) :
      Call rtc (S.handleReceive rtc now src dst d).1
  | handleTimeout (rtc : S.Rtc) (now : Instant) : Call rtc (S.handleTimeout rtc now)
  | acceptOffer (rtc : S.Rtc) (offer : S.SdpOffer) : Call rtc (S.acceptOffer (S.sdpApi rtc) offer).1
  | acceptAnswer (rtc : S.Rtc) (pending : S.SdpPendingOffer) (answer : S.SdpAnswer) :
      Call rtc (S.acceptAnswer (S.sdpApi rtc) pending answer).1
  | apply {rtc : S.Rtc} {api : S.SdpApi} : S.Staged rtc api → Call rtc (S.apply api).1
  | dropChange {rtc : S.Rtc} {api : S.SdpApi} : S.Staged rtc api → Call rtc (S.dropChange api)
  | requestKeyframe {rtc rtc' : S.Rtc} {mid : Mid} :
      S.requestKeyframe rtc mid = some rtc' → Call rtc rtc'
  | writeRtp {rtc rtc' : S.Rtc} {mid : Mid} {w : RtpWrite} :
      S.writeRtp rtc mid w = some rtc' → Call rtc rtc'

/-- What a transport may have become. -/
abbrev Evolves : S.Rtc → S.Rtc → Prop := Relation.ReflTransGen S.Call

/-- A staged change to which a media section with this mid was added. -/
inductive Adds : S.SdpApi → Mid → Prop
  | addMedia (api : S.SdpApi) (kind : MediaKind) (dir : Direction) (streamId : String) :
      Adds (S.addMedia api kind dir streamId).1 (S.addMedia api kind dir streamId).2
  | addMedia_of {api : S.SdpApi} {mid : Mid} (kind : MediaKind) (dir : Direction)
      (streamId : String) : Adds api mid → Adds (S.addMedia api kind dir streamId).1 mid
  | setDirection_of {api : S.SdpApi} {mid : Mid} (mid' : Mid) (dir : Direction) :
      Adds api mid → Adds (S.setDirection api mid' dir) mid

/-- A pending offer **covers** a mid when it was made of a change that adds it. -/
def Covers (pending : S.SdpPendingOffer) (mid : Mid) : Prop :=
  ∃ api rtc offer, S.Adds api mid ∧ S.apply api = (rtc, some (offer, pending))

/-! ### Documented behaviour that some results rely on -/

/-- A record of the media sections each transport has announced, which no call
loses: `poll_output` announces only a section not yet on record, and records it. -/
structure MediaRecord where
  announced : S.Rtc → Set Mid
  announce : ∀ {rtc rtc' mid kind}, S.pollOutput rtc = (rtc', .ok (.event (.mediaAdded mid kind))) →
    mid ∉ announced rtc ∧ mid ∈ announced rtc'
  call : ∀ {rtc rtc'}, S.Call rtc rtc' → announced rtc ⊆ announced rtc'

/-- **`MediaAdded` is raised at most once per mid** of a transport. -/
def MediaAddedOnce : Prop := Nonempty S.MediaRecord

theorem MediaRecord.evolves {S : Str0m} (R : S.MediaRecord) {rtc rtc' : S.Rtc}
    (h : S.Evolves rtc rtc') : R.announced rtc ⊆ R.announced rtc' := by
  induction h with
  | refl => exact subset_rfl
  | tail _ hc ih => exact ih.trans (R.call hc)

end Str0m

end Video

end MateHub
