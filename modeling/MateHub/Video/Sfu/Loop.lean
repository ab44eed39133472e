import MateHub.Lib.Runs
import MateHub.Video.Sfu.Media

/-!
# The event loop of a media shard

An iteration of `run_blocking` is a sequence of steps: a command is handled and
what it touched is polled, again for every further command that waits; when the
tick is due, `tick` and a sweep of all transports; then the pending writes are
flushed, and the offers for newly queued tracks are made. `Input` names these
steps with what they read from outside, `SfuShard.next` computes them, and
`SfuShard.system` is the transition system they make together with what happens
around the shard: the other end drains or closes a WebSocket's outbox, and the
entries of a hash map are met in another order.

The steps are taken in any order, which covers every order in which the loop
takes them.
-/

namespace MateHub

namespace Video

namespace SfuShard

variable {S : Str0m}

/-! ### Ticks -/

/-- `Input::Timeout` for every transport of the session. -/
def handleTimeouts (s : SfuSession S) (now : Instant) : SfuSession S :=
  { s with participants := s.participants.mapVals fun _ p =>
      { p with rtc := S.handleTimeout p.rtc now } }

/-- ICE disconnected, and nothing received for longer than the timeout. -/
def isZombie (timeout : Duration) (now : Instant) (p : SfuParticipant S) : Bool :=
  p.iceDisconnected && decide (timeout < now - p.lastActivityAt)

/-- The participants a tick sweeps. -/
def zombies (st : SfuShard S) (now : Instant) : List (SessionId × ParticipantId) :=
  st.sessions.pairs.flatMap fun e =>
    (e.2.participants.values.filter (isZombie st.zombieTimeout now)).map fun p => (e.1, p.id)

/-- The part of `tick` before the zombies are swept. -/
def timeouts (st : SfuShard S) (now : Instant) : SfuShard S :=
  { st with
    sessions := Dict.mapVals (fun _ s => handleTimeouts s.recomputeTopAudio now) st.sessions }

/-- `tick`. -/
def tick (st : SfuShard S) (now : Instant) : SfuShard S :=
  ((st.timeouts now).zombies now).foldl (fun st e => (st.handleLeave e.1 e.2).1) (st.timeouts now)

/-! ### Offers for queued tracks -/

/-- The track mapping sent with an offer: who is behind each stream. -/
def trackMappings (s : SfuSession S) (p : SfuParticipant S) : List TrackMapping :=
  p.tracksOut.filterMap fun t =>
    (s.participants.lookup t.origin).map fun origin =>
      { streamId := streamIdFor t.origin t.source t.kind
        participantId := t.origin
        userId := origin.userId
        source := t.source.wire
        kind := t.kind.wire }

/-- Adds a media section for every track that has none, and notes its mid. -/
def stageTracks (api : S.SdpApi) : List TrackOut → S.SdpApi × List TrackOut
  | [] => (api, [])
  | t :: ts =>
    match t.state with
    | .toOpen =>
      let added := S.addMedia api t.kind .sendOnly (streamIdFor t.origin t.source t.kind)
      let rest := stageTracks added.1 ts
      (rest.1, { t with state := .negotiating added.2 } :: rest.2)
    | _ =>
      let rest := stageTracks api ts
      (rest.1, t :: rest.2)

/-- Whether some track waits for a media section. -/
def hasToOpen (p : SfuParticipant S) : Bool := p.tracksOut.any fun t => t.state = .toOpen

/-- One turn of the loop of `negotiate_pending_tracks`. -/
def negotiateOne (st : SfuShard S) (e : SessionId × ParticipantId) : SfuShard S :=
  match st.session? e.1 with
  | none => st
  | some s =>
    match s.participants.lookup e.2 with
    | none => st
    | some p =>
      -- no new offer while an answer is awaited: the next pass tries again
      if p.pendingOffer.isSome then
        { st with pendingNegotiation := st.pendingNegotiation.insert e () }
      else if !hasToOpen p then
        st.setParticipant e.1 e.2 { p with rtc := S.dropChange (S.sdpApi p.rtc) }
      else
        let staged := stageTracks (S.sdpApi p.rtc) p.tracksOut
        match S.apply staged.1 with
        | (rtc, none) => st.setParticipant e.1 e.2 { p with rtc := rtc, tracksOut := staged.2 }
        | (rtc, some (offer, pending)) =>
          let tracks := trackMappings s p
          (st.setParticipant e.1 e.2
            { p with rtc := rtc, tracksOut := staged.2, pendingOffer := some pending }).wsTrySend
              p.wsTx (.offer (S.offerText offer) (if tracks.isEmpty then none else some tracks))

/-- `negotiate_pending_tracks`. -/
def negotiatePendingTracks (st : SfuShard S) : SfuShard S :=
  st.pendingNegotiation.keys.foldl negotiateOne { st with pendingNegotiation := ∅ }

/-! ### The transition system -/

/-- What a step of the shard reads from outside: the clock, fresh credentials, and
how many outputs its loops find. -/
inductive Input
  /-- Handles a command and polls what it touched. -/
  | command (cmd : SfuCommand) (creds : IceCreds) (now : Instant) (fuel : ℕ)
  /-- The 20 ms tick, with its sweep of all transports. -/
  | tick (now : Instant) (fuel : ℕ)
  | flush (now : Instant) (pollFuel fuel : ℕ)
  | negotiate
  /-- The handler of a WebSocket takes messages off its channel. -/
  | drain (tx : WsTx) (n : ℕ)
  /-- The handler of a WebSocket is gone. -/
  | close (tx : WsTx)
  /-- The hash maps are met in another order. -/
  | rehash

/-- The step of the shard under an input. -/
def next (st : SfuShard S) : Input → SfuShard S
  | .command cmd creds now fuel =>
    let r := st.handleCommand creds now cmd
    pollTarget now fuel r.1 r.2
  | .tick now fuel => pollAll now fuel (st.tick now)
  | .flush now pollFuel fuel => flushPendingWrites now pollFuel fuel st
  | .negotiate => st.negotiatePendingTracks
  | .drain tx n =>
    { st with ws := Function.update st.ws tx { st.ws tx with queue := (st.ws tx).queue.drop n } }
  | .close tx => { st with ws := Function.update st.ws tx { st.ws tx with closed := true } }
  | .rehash => st

/-- The same session, its maps in another order. -/
structure Reordered (s s' : SfuSession S) : Prop where
  id : s'.id = s.id
  participants : s.participants.entries.Perm s'.participants.entries
  forwardingMap : s.forwardingMap.entries.Perm s'.forwardingMap.entries
  lastKeyframeAt : s.lastKeyframeAt.entries.Perm s'.lastKeyframeAt.entries
  topAudioPublishers : s.topAudioPublishers.entries.Perm s'.topAudioPublishers.entries

/-- The same shard, its maps in another order. -/
structure Rehashed (st st' : SfuShard S) : Prop where
  sessions : ∀ sid, Option.Rel Reordered (st.session? sid) (st'.session? sid)
  pendingNegotiation : st.pendingNegotiation.entries.Perm st'.pendingNegotiation.entries
  pendingFlush : st.pendingFlush.entries.Perm st'.pendingFlush.entries
  /-- Everything else is as it was. -/
  rest : st' = { st with
    sessions := st'.sessions
    pendingNegotiation := st'.pendingNegotiation
    pendingFlush := st'.pendingFlush }

/-- A step of the shard. -/
inductive Step : SfuShard S → Input → SfuShard S → Prop
  | next (st : SfuShard S) (i : Input) : Step st i (st.next i)
  | rehash {st st' : SfuShard S} : Rehashed st st' → Step st .rehash st'

/-- A shard that starts with no session, and its steps in any order. -/
def system (S : Str0m) : System (SfuShard S) Input where
  init := fun st => ∃ shardIndex candidateAddrs zombieTimeout,
    st = SfuShard.new shardIndex candidateAddrs zombieTimeout
  step := Step

/-- The state after a list of steps, from no session. -/
def run (candidateAddrs : List SocketAddr) (zombieTimeout : Duration) (is : List Input) :
    SfuShard S :=
  is.foldl next (SfuShard.new 0 candidateAddrs zombieTimeout)

theorem reachable_run (candidateAddrs : List SocketAddr) (zombieTimeout : Duration)
    (is : List Input) : (system S).Reachable (run candidateAddrs zombieTimeout is) :=
  System.reachable_foldl (M := system S) ⟨0, candidateAddrs, zombieTimeout, rfl⟩ Step.next is

end SfuShard

end Video

end MateHub
