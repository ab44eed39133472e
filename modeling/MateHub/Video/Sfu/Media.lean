import MateHub.Video.Sfu.Shard

/-!
# Polling and forwarding

After every command, and for everyone on every tick, the shard drains the outputs
of the transports the command touched: `poll_participant` takes one output after
another until the transport asks for a timeout, and an ingress RTP packet among
them is written at once into the transports of the subscribers (`forward_rtp`).

The loops that end only when str0m says so take a `fuel`, the number of outputs
they may take: whatever a loop of the shard does, it does with enough fuel, and
what holds for every fuel holds for it. Panics inside str0m, which
`poll_participant` catches, are the subject of `MateHub.Video.Sfu.Unwind`; the
datagrams that `Output::Transmit` puts on the wire and the statistics are left out.
-/

namespace MateHub

namespace Video

/-- `EGRESS_SEQ_START`. -/
def egressSeqStart : ℕ := 10000

/-- The `i64` a number wraps to. -/
def asI64 (x : ℤ) : ℤ := x.bmod (2 ^ 64)

/-- The smoothed loudness after an audio packet: the level counts only under voice
activity, and a packet without a level counts as speech. -/
def TrackIn.hear (t : TrackIn) (ext : ExtensionValues) : TrackIn :=
  if t.kind = .audio then
    match ext.audioLevel with
    | some level =>
      if ext.voiceActivity = some true then
        { t with audioLoudnessEma := t.audioLoudnessEma * (7 / 10) + (-level : ℤ) * (3 / 10) }
      else { t with audioLoudnessEma := t.audioLoudnessEma * (7 / 10) }
    | none => { t with audioLoudnessEma := max t.audioLoudnessEma 64 }
  else t

/-- The egress sequence number of an ingress packet: the ingress number moved by an
offset that is chosen anew when the publisher changes its SSRC. -/
def TrackOut.rewriteSeq (t : TrackOut) (ssrc : Ssrc) (seqNo : ℕ) : TrackOut × ℕ :=
  let ingress := asI64 seqNo
  let offset := match t.egressSeqAnchor with
    | some (anchored, offset) =>
      if anchored = ssrc then offset else asI64 (asI64 (t.egressSeqHigh + 1) - ingress)
    | none => asI64 (egressSeqStart - ingress)
  let egress := (max (asI64 (ingress + offset)) 1).toNat
  ({ t with
      egressSeqAnchor := some (ssrc, offset)
      egressSeqHigh := max t.egressSeqHigh egress }, egress)

/-- The header extensions a forwarded packet keeps: only those that mean the same
on every leg. -/
def ExtensionValues.endToEnd (ext : ExtensionValues) : ExtensionValues where
  audioLevel := ext.audioLevel
  voiceActivity := ext.voiceActivity
  videoOrientation := ext.videoOrientation
  videoContentType := ext.videoContentType

/-- The packet written for a subscriber. -/
def RtpPacket.egress (pkt : RtpPacket) (kind : MediaKind) (pt : Pt) (seqNo : ℕ) : RtpWrite where
  pt := pt
  seqNo := seqNo
  headerTimestamp := pkt.headerTimestamp
  timestamp := pkt.timestamp
  payload := pkt.payload
  marker := pkt.marker
  extVals := pkt.extVals.endToEnd
  nackable := kind = .video

namespace SfuShard

variable {S : Str0m}

/-! ### Forwarding -/

/-- The subscriber, once the packet has its sequence number on this mid. -/
def advanceSeq (p : SfuParticipant S) (mid : Mid) (pkt : RtpPacket) : SfuParticipant S :=
  { p with
    tracksOut := p.tracksOut.replaceF fun t =>
      if t.openMid = some mid then some (t.rewriteSeq pkt.ssrc pkt.seqNo).1 else none }

/-- The publisher, once the packet has been heard. -/
def hearPacket (p : SfuParticipant S) (mid : Mid) (pkt : RtpPacket) : SfuParticipant S :=
  { p with
    tracksIn := p.tracksIn.replaceF fun t =>
      if t.mid = mid then some (t.hear pkt.extVals) else none }

/-- One turn of the forwarding loop: the packet goes to one subscriber. -/
def forwardTo (sid : SessionId) (pkt : RtpPacket) (kind : MediaKind) (pp : S.PayloadParams)
    (st : SfuShard S) (target : TrackKey) : SfuShard S :=
  match st.participant? sid target.1 with
  | none => st
  | some p =>
    match S.matchParams p.rtc pp with
    | none => st
    | some egress =>
      match p.tracksOut.find? fun t => t.openMid = some target.2 with
      | none => st
      | some t =>
        let p := advanceSeq p target.2 pkt
        let seqNo := (t.rewriteSeq pkt.ssrc pkt.seqNo).2
        match S.writeRtp p.rtc target.2 (pkt.egress kind (S.pt egress) seqNo) with
        | none => st.setParticipant sid target.1 p
        | some rtc =>
          { st.setParticipant sid target.1 { p with rtc := rtc } with
            pendingFlush := st.pendingFlush.insert (sid, target.1) () }

/-- Replaces the list of a key that is in the forwarding map. -/
def setTargets (st : SfuShard S) (sid : SessionId) (key : TrackKey) (targets : List TrackKey) :
    SfuShard S :=
  { st with sessions := st.sessions.modify sid fun s =>
      { s with forwardingMap := s.forwardingMap.modify key fun _ => targets } }

/-- The forwarding loop. The list of subscribers is taken out of the map for the
time of the loop, and put back. -/
def forwardToAll (st : SfuShard S) (sid : SessionId) (key : TrackKey)
    (forward : SfuShard S → TrackKey → SfuShard S) : SfuShard S :=
  match (st.session? sid).bind fun s => s.forwardingMap.lookup key with
  | none => st
  | some [] =>
    { st with sessions := st.sessions.modify sid fun s =>
        { s with forwardingMap := s.forwardingMap.erase key } }
  | some targets => (targets.foldl forward (st.setTargets sid key [])).setTargets sid key targets

/-- `forward_rtp`. -/
def forwardRtp (st : SfuShard S) (sid : SessionId) (pid : ParticipantId) (mid : Mid)
    (pkt : RtpPacket) : SfuShard S :=
  match st.session? sid with
  | none => st
  | some s =>
    match s.participants.lookup pid with
    | none => st
    | some p =>
      match p.tracksIn.find? fun t => t.mid = mid with
      | none => st
      | some track =>
        let st := st.setParticipant sid pid (hearPacket p mid pkt)
        match S.findPayload p.rtc pkt.payloadType with
        | none => st
        | some pp =>
          if S.isRtx pp then st
          -- only the loudest publishers are heard
          else if track.kind = .audio ∧ (s.topAudioPublishers.lookup (pid, mid)).isNone then st
          else st.forwardToAll sid (pid, mid) (forwardTo sid pkt track.kind pp)

/-! ### Events -/

/-- Takes the source hint that has waited longest for a track of this kind. -/
def popSourceHint (p : SfuParticipant S) (kind : MediaKind) :
    SfuParticipant S × Option Source :=
  match p.pendingSourceHints.lookup kind with
  | some (source :: rest) =>
    ({ p with pendingSourceHints := p.pendingSourceHints.insert kind rest }, some source)
  | _ => (p, none)

/-- Whether the participant has a subscription to this track already. -/
def subscribesTo (p : SfuParticipant S) (origin : ParticipantId) (mid : Mid) : Bool :=
  p.tracksOut.any fun t => t.origin = origin && t.originMid = mid

/-- Records a new track: on its publisher, and as a subscription of everyone else. -/
def addTrack (s : SfuSession S) (pid : ParticipantId) (mid : Mid) (kind : MediaKind)
    (source : Source) : SfuSession S :=
  { s with
    participants := s.participants.mapVals fun k p =>
      if k = pid then { p with tracksIn := p.tracksIn ++ [⟨mid, kind, source, 64⟩] }
      else if subscribesTo p pid mid then p
      else { p with tracksOut := p.tracksOut ++ [queuedTrack pid mid kind source] } }

/-- Those for whom the new track was queued. -/
def newlyQueued (s : SfuSession S) (pid : ParticipantId) (mid : Mid) : List ParticipantId :=
  s.participants.pairs.filterMap fun e =>
    if e.1 = pid || subscribesTo e.2 pid mid then none else some e.1

/-- Writes the session with the new track, and queues those who have to be offered
it. -/
def recordTrack (st : SfuShard S) (sid : SessionId) (s : SfuSession S) (pid : ParticipantId)
    (mid : Mid) (kind : MediaKind) (source : Source) : SfuShard S :=
  { st.setSession sid (addTrack s pid mid kind source) with
    pendingNegotiation := (newlyQueued s pid mid).foldl (fun set q => set.insert (sid, q) ())
      st.pendingNegotiation }

/-- `Event::MediaAdded`. A track without a hint is a camera or a microphone. -/
def mediaAdded (st : SfuShard S) (sid : SessionId) (pid : ParticipantId) (mid : Mid)
    (kind : MediaKind) : SfuShard S :=
  match st.session? sid with
  | none => st
  | some s =>
    let hint := (s.participants.lookup pid).bind fun p => (popSourceHint p kind).2
    let s := { s with participants := s.participants.modify pid fun p => (popSourceHint p kind).1 }
    st.recordTrack sid s pid mid kind (hint.getD .camera)

/-- The event handler of `poll_participant_inner`. -/
def handleEvent (st : SfuShard S) (now : Instant) (sid : SessionId) (pid : ParticipantId) :
    Event → SfuShard S
  | .iceConnectionStateChange state =>
    match st.participant? sid pid with
    | none => st
    | some p => st.setParticipant sid pid { p with iceDisconnected := state = .disconnected }
  | .mediaAdded mid kind => st.mediaAdded sid pid mid kind
  | .rtpPacket pkt =>
    match (st.participant? sid pid).bind fun p => S.streamRx p.rtc pkt.ssrc with
    | none => st
    | some (mid, rid) =>
      -- of a simulcast stream, exactly one layer is forwarded
      if rid.all (· = "h") then st.forwardRtp sid pid mid pkt else st
  | .egressBitrateEstimate kind =>
    match kind, st.participant? sid pid with
    | .twcc bps, some p => st.setParticipant sid pid { p with egressBitrateBps := bps }
    | .remb _ bps, some p => st.setParticipant sid pid { p with egressBitrateBps := bps }
    | _, _ => st
  | .keyframeRequest mid =>
    match st.session? sid with
    | none => st
    | some s =>
      -- the request goes to the publisher of the track this mid carries
      match (s.participants.lookup pid).bind fun p =>
        p.tracksOut.find? fun t => t.openMid = some mid with
      | none => st
      | some t => st.setSession sid (s.requestKeyframeThrottled now t.origin t.originMid).1
  | .other => st

/-! ### Polling -/

/-- `poll_participant_inner`. -/
def pollParticipant (now : Instant) (sid : SessionId) (pid : ParticipantId) :
    ℕ → SfuShard S → SfuShard S
  | 0, st => st
  | fuel + 1, st =>
    match st.participant? sid pid with
    | none => st
    | some p =>
      if !S.isAlive p.rtc then st
      else
        match S.pollOutput p.rtc with
        | (rtc, .ok (.transmit _ _)) =>
          pollParticipant now sid pid fuel (st.setParticipant sid pid { p with rtc := rtc })
        | (rtc, .ok (.event e)) =>
          pollParticipant now sid pid fuel
            ((st.setParticipant sid pid { p with rtc := rtc }).handleEvent now sid pid e)
        | (rtc, .ok (.timeout _)) => st.setParticipant sid pid { p with rtc := rtc }
        | (rtc, .error _) => st.setParticipant sid pid { p with rtc := S.disconnect rtc }

/-- `poll_session`. -/
def pollSession (now : Instant) (fuel : ℕ) (st : SfuShard S) (sid : SessionId) : SfuShard S :=
  match st.session? sid with
  | none => st
  | some s => s.participants.keys.foldl (fun st pid => pollParticipant now sid pid fuel st) st

/-- `poll_target`. -/
def pollTarget (now : Instant) (fuel : ℕ) (st : SfuShard S) : Option PollTarget → SfuShard S
  | some (.one sid pid) => pollParticipant now sid pid fuel st
  | some (.session sid) => pollSession now fuel st sid
  | none => st

/-- `poll_all`. -/
def pollAll (now : Instant) (fuel : ℕ) (st : SfuShard S) : SfuShard S :=
  st.sessions.keys.foldl (pollSession now fuel) st

/-- `flush_pending_writes`. Polling a target may queue further targets. -/
def flushPendingWrites (now : Instant) (pollFuel : ℕ) : ℕ → SfuShard S → SfuShard S
  | 0, st => st
  | fuel + 1, st =>
    match st.pendingFlush.keys with
    | [] => st
    | (sid, pid) :: _ =>
      flushPendingWrites now pollFuel fuel
        (pollParticipant now sid pid pollFuel
          { st with pendingFlush := st.pendingFlush.erase (sid, pid) })

end SfuShard

end Video

end MateHub
