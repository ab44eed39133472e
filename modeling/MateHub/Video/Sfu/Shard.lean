import MateHub.Video.Sfu.Session

/-!
# The command handlers of a media shard

One `SfuShard` owns a set of sessions and runs single-threaded: it takes a command
off its queue, handles it, and polls the transports the command touched. This file
has the state of the shard and the handlers of `sfu/mod.rs` for the commands that
come from the WebSocket handlers and from the UDP dispatcher; polling and the event
loop are in `MateHub.Video.Sfu.Media` and `MateHub.Video.Sfu.Loop`.

Sending to a WebSocket is a change of that WebSocket's `MateHub.Video.Outbox`; the
outboxes are part of the state because the handlers push to them and the other
side drains them.
-/

namespace MateHub

namespace Video

/-- Where a datagram should land. -/
structure ShardTarget where
  shard : ℕ
  sid : SessionId
  pid : ParticipantId
  deriving DecidableEq, Repr

/-- The routing tables shared with the dispatcher. -/
structure SharedMaps where
  addrToTarget : Dict SocketAddr ShardTarget
  ufragToTarget : Dict String ShardTarget

namespace SharedMaps

/-- Drops the entries whose target fails the test, from both tables. -/
def retain (m : SharedMaps) (keep : ShardTarget → Bool) : SharedMaps where
  addrToTarget := m.addrToTarget.retain fun _ t => keep t
  ufragToTarget := m.ufragToTarget.retain fun _ t => keep t

end SharedMaps

/-- `SfuCommand` -/
inductive SfuCommand
  | join (sid : SessionId) (pid : ParticipantId) (userId sdpOffer : String) (replyTx : WsTx)
  | answer (sid : SessionId) (pid : ParticipantId) (sdpAnswer : String)
  | iceCandidate (sid : SessionId) (pid : ParticipantId) (candidate : String)
      (sdpMid : Option String)
  | leave (sid : SessionId) (pid : ParticipantId)
  | publishTrack (sid : SessionId) (pid : ParticipantId) (source : Source) (kind : MediaKind)
  | clientOffer (sid : SessionId) (pid : ParticipantId) (sdpOffer : String)
  | udpInput (sid : SessionId) (pid : ParticipantId) (source : SocketAddr) (data : List UInt8)
  deriving DecidableEq, Repr

/-- What work a just-handled command produced. -/
inductive PollTarget
  | one (sid : SessionId) (pid : ParticipantId)
  | session (sid : SessionId)
  deriving DecidableEq, Repr

/-- `SfuShard`, with the outboxes that it sends to. -/
structure SfuShard (S : Str0m) where
  shardIndex : ℕ
  zombieTimeout : Duration
  sessions : Dict SessionId (SfuSession S)
  candidateAddrs : List SocketAddr
  sharedMaps : SharedMaps
  pendingNegotiation : KeySet (SessionId × ParticipantId)
  pendingFlush : KeySet (SessionId × ParticipantId)
  /-- The channel of every WebSocket. -/
  ws : WsTx → Outbox

namespace SfuShard

variable {S : Str0m}

/-- A shard that has just been started. -/
def new (shardIndex : ℕ) (candidateAddrs : List SocketAddr) (zombieTimeout : Duration) :
    SfuShard S where
  shardIndex := shardIndex
  zombieTimeout := zombieTimeout
  sessions := ∅
  candidateAddrs := candidateAddrs
  sharedMaps := ⟨∅, ∅⟩
  pendingNegotiation := ∅
  pendingFlush := ∅
  ws := fun _ => {}

/-! ### Reading and writing the state -/

/-- A session of a shard. -/
def session? (st : SfuShard S) (sid : SessionId) : Option (SfuSession S) :=
  st.sessions.lookup sid

/-- A participant of a session. -/
def participant? (st : SfuShard S) (sid : SessionId) (pid : ParticipantId) :
    Option (SfuParticipant S) :=
  (st.session? sid).bind fun s => s.participants.lookup pid

/-- A session is written. -/
def setSession (st : SfuShard S) (sid : SessionId) (s : SfuSession S) : SfuShard S :=
  { st with sessions := st.sessions.insert sid s }

/-- Writes back a participant of a session that exists. -/
def setParticipant (st : SfuShard S) (sid : SessionId) (pid : ParticipantId)
    (p : SfuParticipant S) : SfuShard S :=
  { st with sessions := st.sessions.modify sid fun s => s.setParticipant pid p }

/-- `ws_try_send`. -/
def wsTrySend (st : SfuShard S) (tx : WsTx) (msg : ServerMessage) : SfuShard S :=
  { st with ws := Function.update st.ws tx ((st.ws tx).trySend msg) }

/-! ### Publishing and client offers -/

/-- `handle_publish_track`. -/
def handlePublishTrack (st : SfuShard S) (sid : SessionId) (pid : ParticipantId)
    (source : Source) (kind : MediaKind) : SfuShard S × Option PollTarget :=
  match st.participant? sid pid with
  | none => (st, none)
  | some p =>
    let hints := (p.pendingSourceHints.lookup kind).getD [] ++ [source]
    (st.setParticipant sid pid
      { p with pendingSourceHints := p.pendingSourceHints.insert kind hints }, none)

/-- `handle_client_offer`. -/
def handleClientOffer (st : SfuShard S) (sid : SessionId) (pid : ParticipantId)
    (sdpOffer : String) : SfuShard S × Option PollTarget :=
  match S.readOffer sdpOffer with
  | .error _ => (st, none)
  | .ok offer =>
    match st.participant? sid pid with
    | none => (st, none)
    | some p =>
      if p.pendingOffer.isSome then
        -- the latest offer replaces an already queued one
        (st.setParticipant sid pid { p with queuedClientOffer := some sdpOffer }, none)
      else
        match S.acceptOffer (S.sdpApi p.rtc) offer with
        | (rtc, .error _) => (st.setParticipant sid pid { p with rtc := rtc }, none)
        | (rtc, .ok answer) =>
          ((st.setParticipant sid pid { p with rtc := rtc }).wsTrySend p.wsTx
            (.answer (S.answerText answer) pid), some (.one sid pid))

/-! ### Leaving -/

/-- The mid of a track that has one, whether or not it is open yet. -/
def negotiatedMid (t : TrackOut) : Option Mid :=
  match t.state with
  | .opened mid => some mid
  | .negotiating mid => some mid
  | .toOpen => none

/-- The mids to deactivate, for each participant that has some, collected before
the stale `TrackOut`s go. -/
def midsToDeactivate (s : SfuSession S) (gone : ParticipantId) :
    List (ParticipantId × List Mid) :=
  s.participants.pairs.filterMap fun e =>
    let mids := (e.2.tracksOut.filter fun t => t.origin = gone).filterMap negotiatedMid
    if mids.isEmpty then none else some (e.1, mids)

/-- Removes the participant and every trace of it from the session. -/
def dropParticipant (s : SfuSession S) (gone : ParticipantId) : SfuSession S :=
  let s := ({ s with participants := s.participants.erase gone }).dropFromForwarding gone
  { s with
    participants := s.participants.mapVals fun _ p =>
      { p with tracksOut := p.tracksOut.filter fun t => t.origin ≠ gone } }

/-- One turn of the loop that sets dead transceivers inactive. -/
def deactivate (sid : SessionId) (st : SfuShard S) (entry : ParticipantId × List Mid) :
    SfuShard S :=
  match st.participant? sid entry.1 with
  | none => st
  | some p =>
    -- skip if already waiting for an answer
    if p.pendingOffer.isSome then st
    else
      let change := entry.2.foldl (fun c mid => S.setDirection c mid .inactive) (S.sdpApi p.rtc)
      if !S.hasChanges change then
        st.setParticipant sid entry.1 { p with rtc := S.dropChange change }
      else
        match S.apply change with
        | (rtc, none) => st.setParticipant sid entry.1 { p with rtc := rtc }
        | (rtc, some (offer, pending)) =>
          (st.setParticipant sid entry.1
            { p with rtc := rtc, pendingOffer := some pending }).wsTrySend p.wsTx
              (.offer (S.offerText offer) none)

/-- `handle_leave`. -/
def handleLeave (st : SfuShard S) (sid : SessionId) (pid : ParticipantId) :
    SfuShard S × Option PollTarget :=
  let st := { st with
    sharedMaps := st.sharedMaps.retain fun t => !(t.sid = sid && t.pid = pid)
    pendingNegotiation := st.pendingNegotiation.erase (sid, pid) }
  match st.session? sid with
  | none => (st, none)
  | some s =>
    let gone := { s with participants := s.participants.erase pid }
    let st := (midsToDeactivate gone pid).foldl (deactivate sid)
      (st.setSession sid (dropParticipant s pid))
    match st.session? sid with
    | none => (st, none)
    | some s =>
      if s.participants.isEmpty then
        ({ st with
            sessions := st.sessions.erase sid
            sharedMaps := st.sharedMaps.retain fun t => t.sid ≠ sid }, none)
      else (st, some (.session sid))

/-! ### Joining -/

/-- The tracks published in the session, as a new participant finds them. -/
def existingTracks (s : SfuSession S) : List (ParticipantId × TrackIn) :=
  s.participants.pairs.flatMap fun e => e.2.tracksIn.map fun t => (e.2.id, t)

/-- The subscription queued for a published track. -/
def queuedTrack (origin : ParticipantId) (mid : Mid) (kind : MediaKind) (source : Source) :
    TrackOut where
  origin := origin
  originMid := mid
  kind := kind
  source := source
  state := .toOpen
  egressSeqAnchor := none
  egressSeqHigh := 0

/-- A participant that has just joined: it subscribes to every existing track and
publishes nothing yet. -/
def newParticipant (pid : ParticipantId) (userId : String) (rtc : S.Rtc) (replyTx : WsTx)
    (now : Instant) (existing : List (ParticipantId × TrackIn)) : SfuParticipant S where
  id := pid
  userId := userId
  rtc := rtc
  wsTx := replyTx
  tracksIn := []
  tracksOut := existing.map fun e => queuedTrack e.1 e.2.mid e.2.kind e.2.source
  egressBitrateBps := 5000000
  pendingOffer := none
  queuedClientOffer := none
  pendingSourceHints := ∅
  lastActivityAt := now
  iceDisconnected := false

/-- Tells a replaced tab so, and takes its participant out. -/
def kickPrior (st : SfuShard S) (sid : SessionId) (pid : ParticipantId) : SfuShard S :=
  match st.participant? sid pid with
  | none => st
  | some p => ((st.wsTrySend p.wsTx (.forceDisconnected "joined_elsewhere")).handleLeave sid pid).1

/-- The transport of a new participant, with the host candidates. -/
def buildRtc (st : SfuShard S) (creds : IceCreds) (now : Instant) : S.Rtc :=
  st.candidateAddrs.foldl (fun rtc addr => S.addLocalCandidate rtc (S.hostCandidate addr))
    (S.build creds now)

/-- The part of `handle_join` after the offer was accepted. -/
def addParticipant (st : SfuShard S) (sid : SessionId) (pid : ParticipantId) (userId : String)
    (replyTx : WsTx) (rtc : S.Rtc) (answer : S.SdpAnswer) (creds : IceCreds) (now : Instant) :
    SfuShard S :=
  let s := (st.session? sid).getD (.new sid)
  let existing := existingTracks s
  let st := st.setSession sid
    (s.setParticipant pid (newParticipant pid userId rtc replyTx now existing))
  let st := st.wsTrySend replyTx (.answer (S.answerText answer) pid)
  let st := if existing.isEmpty then st else
    { st with pendingNegotiation := st.pendingNegotiation.insert (sid, pid) () }
  { st with
    sharedMaps := { st.sharedMaps with
      ufragToTarget := st.sharedMaps.ufragToTarget.insert creds.ufrag
        ⟨st.shardIndex, sid, pid⟩ } }

/-- `handle_join`. The fresh ICE credentials are those `IceCreds::new` returned. -/
def handleJoin (st : SfuShard S) (creds : IceCreds) (now : Instant) (sid : SessionId)
    (pid : ParticipantId) (userId sdpOffer : String) (replyTx : WsTx) :
    SfuShard S × Option PollTarget :=
  let st := st.kickPrior sid pid
  match S.readOffer sdpOffer with
  | .error e => (st.wsTrySend replyTx (.error ("invalid SDP offer: " ++ e)), none)
  | .ok offer =>
    match S.acceptOffer (S.sdpApi (st.buildRtc creds now)) offer with
    | (_, .error e) => (st.wsTrySend replyTx (.error ("SDP negotiation failed: " ++ e)), none)
    | (rtc, .ok answer) =>
      (st.addParticipant sid pid userId replyTx rtc answer creds now, some (.one sid pid))

/-! ### Answers -/

/-- The state of a track once the answer to its offer is in. -/
def TrackOut.answered (t : TrackOut) : TrackOut :=
  match t.state with
  | .negotiating mid => { t with state := .opened mid }
  | _ => t

/-- The forwarding entries an accepted answer registers. -/
def toRegister (pid : ParticipantId) (p : SfuParticipant S) : List (TrackKey × TrackKey) :=
  p.tracksOut.filterMap fun t =>
    match t.state with
    | .negotiating mid => some ((t.origin, t.originMid), (pid, mid))
    | _ => none

/-- The video tracks an accepted answer opens: their publishers owe a keyframe. -/
def newlyOpened (p : SfuParticipant S) : List TrackKey :=
  p.tracksOut.filterMap fun t =>
    match t.state with
    | .negotiating _ => if t.kind = .video then some (t.origin, t.originMid) else none
    | _ => none

/-- `forwarding_map.entry(key).or_default().push(pair)`. -/
def register (m : Dict TrackKey (List TrackKey)) (e : TrackKey × TrackKey) :
    Dict TrackKey (List TrackKey) :=
  m.insert e.1 ((m.lookup e.1).getD [] ++ [e.2])

/-- The participant whose answer was accepted. -/
def answeredParticipant (p : SfuParticipant S) (rtc : S.Rtc) : SfuParticipant S :=
  { p with rtc := rtc, pendingOffer := none, tracksOut := p.tracksOut.map TrackOut.answered }

/-- Opens the tracks of an accepted answer, on both sides. -/
def registerTracks (s : SfuSession S) (pid : ParticipantId) (p : SfuParticipant S) (rtc : S.Rtc) :
    SfuSession S :=
  { s.setParticipant pid (answeredParticipant p rtc) with
    forwardingMap := (toRegister pid p).foldl register s.forwardingMap }

/-- What an accepted answer does to the session. -/
def openTracks (s : SfuSession S) (now : Instant) (pid : ParticipantId) (p : SfuParticipant S)
    (rtc : S.Rtc) : SfuSession S :=
  (newlyOpened p).foldl (fun s k => (s.requestKeyframeThrottled now k.1 k.2).1)
    (registerTracks s pid p rtc)

/-- Hands a client offer that waited for the answer to `handle_client_offer`. -/
def drainQueuedOffer (st : SfuShard S) (sid : SessionId) (pid : ParticipantId) : SfuShard S :=
  match st.participant? sid pid with
  | none => st
  | some p =>
    match p.queuedClientOffer with
    | none => st
    | some sdp =>
      ((st.setParticipant sid pid { p with queuedClientOffer := none }).handleClientOffer
        sid pid sdp).1

/-- `handle_answer`. -/
def handleAnswer (st : SfuShard S) (now : Instant) (sid : SessionId) (pid : ParticipantId)
    (sdpAnswer : String) : SfuShard S × Option PollTarget :=
  match st.session? sid with
  | none => (st, none)
  | some s =>
    match s.participants.lookup pid with
    | none => (st, none)
    | some p =>
      match S.readAnswer sdpAnswer with
      | .error _ => (st, none)
      | .ok answer =>
        let st := match p.pendingOffer with
          | none => st
          | some pending =>
            match S.acceptAnswer (S.sdpApi p.rtc) pending answer with
            | (rtc, .error _) =>
              -- the pending offer has been taken; the tracks keep their state
              st.setParticipant sid pid { p with rtc := rtc, pendingOffer := none }
            | (rtc, .ok ()) => st.setSession sid (openTracks s now pid p rtc)
        (st.drainQueuedOffer sid pid, some (.session sid))

/-! ### Candidates and datagrams -/

/-- `handle_ice_candidate`. -/
def handleIceCandidate (st : SfuShard S) (sid : SessionId) (pid : ParticipantId)
    (candidate : String) : SfuShard S × Option PollTarget :=
  match st.participant? sid pid with
  | none => (st, none)
  | some p =>
    match S.candidateOfSdp candidate with
    | .error _ => (st, none)
    | .ok c =>
      (st.setParticipant sid pid { p with rtc := S.addRemoteCandidate p.rtc c },
        some (.one sid pid))

/-- `primary_candidate_addr`. -/
def primaryCandidateAddr (st : SfuShard S) : SocketAddr := st.candidateAddrs.headD (0, 0)

/-- `handle_udp_input`. -/
def handleUdpInput (st : SfuShard S) (now : Instant) (sid : SessionId) (pid : ParticipantId)
    (source : SocketAddr) (data : List UInt8) : SfuShard S × Option PollTarget :=
  match st.participant? sid pid with
  | none => (st, none)
  | some p =>
    match S.datagram data with
    | none => (st, none)
    | some contents =>
      if !S.accepts p.rtc now source st.primaryCandidateAddr contents then (st, none)
      else
        match S.handleReceive p.rtc now source st.primaryCandidateAddr contents with
        | (rtc, .error _) =>
          (st.setParticipant sid pid
            { p with rtc := S.disconnect rtc, lastActivityAt := now }, none)
        | (rtc, .ok ()) =>
          (st.setParticipant sid pid { p with rtc := rtc, lastActivityAt := now },
            some (.one sid p.id))

/-- `handle_command`. -/
def handleCommand (st : SfuShard S) (creds : IceCreds) (now : Instant) :
    SfuCommand → SfuShard S × Option PollTarget
  | .join sid pid userId sdpOffer replyTx =>
    st.handleJoin creds now sid pid userId sdpOffer replyTx
  | .answer sid pid sdpAnswer => st.handleAnswer now sid pid sdpAnswer
  | .iceCandidate sid pid candidate _ => st.handleIceCandidate sid pid candidate
  | .leave sid pid => st.handleLeave sid pid
  | .publishTrack sid pid source kind => st.handlePublishTrack sid pid source kind
  | .clientOffer sid pid sdpOffer => st.handleClientOffer sid pid sdpOffer
  | .udpInput sid pid source data => st.handleUdpInput now sid pid source data

end SfuShard

end Video

end MateHub
