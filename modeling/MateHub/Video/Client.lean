import MateHub.Video.Sfu.Negotiator

/-!
# The client's side of a negotiation

The video client of the SDK negotiates over an `RTCPeerConnection`. It makes offers –
one with its Join, more when it starts a camera, a microphone or a screen share later –
and it answers the offers of the SFU. Its code is asynchronous: what happens between two
awaits of `createAndSendOffer`, `renegotiate` or `handleServerMessage` is one step here,
and the steps of several calls may alternate. Messages of the server are handled one
after another, through a chain of promises; when handling one fails, the chain stays
rejected and no later message is handled.

Of the peer connection we take the signaling state and its rules: an offer of the other
side rolls a local offer back, and an answer without a local offer is an error. The
offers of either side are numbered.
-/

namespace MateHub

namespace Video

/-- The signaling state of the peer connection. -/
inductive SignalingState
  | stable
  | haveLocalOffer (offer : ℕ)
  | haveRemoteOffer (offer : ℕ)
  deriving DecidableEq, Repr

/-- The messages of the client in a negotiation. -/
inductive ClientSdp
  | join (offer : ℕ)
  | offer (offer : ℕ)
  | answer (offer : ℕ)
  deriving DecidableEq, Repr

/-- A call that makes an offer: `createAndSendOffer`, which sends it with a Join, or
`renegotiate`, `publishScreen` and `unpublishScreen`. -/
structure OfferTask where
  join : Bool
  offer : ℕ
  deriving DecidableEq, Repr

/-- What the call sends. -/
def OfferTask.message (t : OfferTask) : ClientSdp :=
  if t.join then .join t.offer else .offer t.offer

/-- Where `handleServerMessage` stands. -/
inductive Handling
  | idle
  /-- An offer is set as remote description. -/
  | remoteSet (offer : ℕ)
  /-- The answer to it is set as local description, and to be sent. -/
  | answered (offer : ℕ)
  /-- The chain of promises is rejected. -/
  | rejected
  deriving DecidableEq, Repr

/-- The signalling state of a client, and the calls that are under way. -/
structure Client where
  signaling : SignalingState := .stable
  /-- The calls that have created an offer. -/
  created : List OfferTask := []
  /-- The calls that have set it as local description and are to send it. -/
  localSet : List OfferTask := []
  handling : Handling := .idle
  /-- Whether the WebSocket is open. -/
  opened : Bool := false
  /-- Whether `createAndSendOffer` has got to its offer. -/
  joining : Bool := false
  joined : Bool := false
  /-- How many offers were created. -/
  offers : ℕ := 0
  deriving DecidableEq, Repr

namespace Client

/-- `createOffer`, which needs a state without an offer of the other side. -/
def createOffer (c : Client) (join : Bool) : Client :=
  match c.signaling with
  | .haveRemoteOffer _ => c
  | _ => { c with created := c.created ++ [⟨join, c.offers⟩], offers := c.offers + 1 }

/-- The WebSocket opens, and `createAndSendOffer` asks for the devices. -/
def onopen (c : Client) : Client := { c with opened := true }

/-- `createAndSendOffer` gets to its offer. -/
def createAndSendOffer (c : Client) : Client :=
  if c.opened && !c.joining then { c.createOffer true with joining := true } else c

/-- `renegotiate` starts, or an equal part of `publishScreen` or `unpublishScreen`. -/
def renegotiate (c : Client) : Client := c.createOffer false

/-- `setLocalDescription` with the offer of the `i`-th call; with an offer of the other
side there, it is an error, and the call is over. -/
def setLocalOffer (c : Client) (i : ℕ) : Client :=
  match c.created[i]? with
  | none => c
  | some t =>
    match c.signaling with
    | .haveRemoteOffer _ => { c with created := c.created.eraseIdx i }
    | _ =>
      { c with
        signaling := .haveLocalOffer t.offer
        created := c.created.eraseIdx i
        localSet := c.localSet ++ [t] }

/-- The browser refuses the description, as for an offer that a newer one supersedes. -/
def refuseLocalOffer (c : Client) (i : ℕ) : Client :=
  { c with created := c.created.eraseIdx i }

/-- The `i`-th call sends its offer; a WebSocket that is not open drops it. -/
def sendOffer (c : Client) (i : ℕ) : Client × List ClientSdp :=
  match c.localSet[i]? with
  | none => (c, [])
  | some t =>
    ({ c with localSet := c.localSet.eraseIdx i }, if c.opened then [t.message] else [])

/-- `handleServerMessage`, up to its first await that changes something: a remote
description is set. -/
def handleServerMessage (c : Client) : SfuMessage → Client
  | .answer _ =>
    match c.signaling with
    | .haveLocalOffer _ => { c with signaling := .stable, joined := true }
    | _ => { c with handling := .rejected }
  | .offer offer =>
    { c with signaling := .haveRemoteOffer offer, handling := .remoteSet offer }

/-- `handleServerMessage` goes on: the answer is set as local description. -/
def setLocalAnswer (c : Client) : Client :=
  match c.handling with
  | .remoteSet offer =>
    match c.signaling with
    | .haveRemoteOffer _ => { c with signaling := .stable, handling := .answered offer }
    | _ => { c with handling := .rejected }
  | _ => c

/-- `handleServerMessage` ends: the answer is sent. -/
def sendAnswer (c : Client) : Client × List ClientSdp :=
  match c.handling with
  | .answered offer => ({ c with handling := .idle }, [.answer offer])
  | _ => (c, [])

end Client

end Video

end MateHub
