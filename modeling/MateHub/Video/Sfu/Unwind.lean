import MateHub.Video.Sfu.Media

/-!
# Polling, when a call panics

`poll_participant` runs its loop under `catch_unwind`: a call of str0m that panics unwinds the
loop, from wherever it has got to, and the participant that was polled is marked dead. Here is
one turn of that loop with the place where it is cut short as an input: `panicAt` is the number
of calls on a transport that return before one panics, or `none` when all of them do. The call
that panics leaves its transport in some state, which `poison` names.

A turn that is not cut short is a turn of `MateHub.Video.SfuShard.pollParticipant`
(`MateHub.Video.SfuShard.agrees_pollTurn`).
-/

namespace MateHub

namespace Video

/-- How a piece of a turn ends: it returns, with the calls that are left before one panics, or
it is unwound. -/
inductive Unwinding (S : Str0m)
  | returned (st : SfuShard S) (panicAt : Option ℕ)
  | unwound (st : SfuShard S)

namespace Unwinding

variable {S : Str0m}

/-- What comes next, if there is a next. -/
def bind (o : Unwinding S) (next : SfuShard S → Option ℕ → Unwinding S) : Unwinding S :=
  match o with
  | .returned st panicAt => next st panicAt
  | .unwound st => .unwound st

/-- It ends in this state if it returns, and it returns if no call panics. -/
def Agrees (panicAt : Option ℕ) (st : SfuShard S) : Unwinding S → Prop
  | .returned st' m => st' = st ∧ (panicAt = none → m = none)
  | .unwound _ => panicAt ≠ none

/-- Whether it returns or is unwound, it ends in a state with this property. -/
def EndsIn (P : SfuShard S → Prop) : Unwinding S → Prop
  | .returned st _ => P st
  | .unwound st => P st

theorem EndsIn.imp {P Q : SfuShard S → Prop} (h : ∀ st, P st → Q st) {o : Unwinding S}
    (ho : o.EndsIn P) : o.EndsIn Q := by
  cases o <;> exact h _ ho

theorem EndsIn.bind {P : SfuShard S → Prop} {o : Unwinding S}
    {next : SfuShard S → Option ℕ → Unwinding S} (h : o.EndsIn P)
    (hnext : ∀ st m, P st → (next st m).EndsIn P) : (o.bind next).EndsIn P := by
  cases o with
  | returned st m => exact hnext st m h
  | unwound st => exact h

theorem agrees_returned (panicAt : Option ℕ) (st : SfuShard S) :
    (returned st panicAt).Agrees panicAt st :=
  ⟨rfl, id⟩

theorem Agrees.bind {o : Unwinding S} {panicAt : Option ℕ} {st st' : SfuShard S}
    {next : SfuShard S → Option ℕ → Unwinding S} (h : o.Agrees panicAt st)
    (hnext : ∀ m, (next st m).Agrees m st') : (o.bind next).Agrees panicAt st' := by
  cases o with
  | unwound _ => exact h
  | returned st₁ m =>
    obtain ⟨rfl, hm⟩ := h
    have hnext := hnext m
    rw [Unwinding.bind]
    rcases hn : next st₁ m with ⟨st₂, m'⟩ | st₂
    · rw [hn] at hnext
      exact ⟨hnext.1, hnext.2 ∘ hm⟩
    · rw [hn] at hnext
      exact hnext ∘ hm

end Unwinding

namespace SfuShard

variable {S : Str0m}

/-- A call on the transport of a participant has panicked. -/
def poisoned (poison : S.Rtc → S.Rtc) (st : SfuShard S) (sid : SessionId) (pid : ParticipantId) :
    SfuShard S :=
  match st.participant? sid pid with
  | none => st
  | some p => st.setParticipant sid pid { p with rtc := poison p.rtc }

/-- A call on the transport of a participant, and what follows when it returns. -/
def atCall (poison : S.Rtc → S.Rtc) (panicAt : Option ℕ) (st : SfuShard S) (sid : SessionId)
    (pid : ParticipantId) (next : Option ℕ → Unwinding S) : Unwinding S :=
  match panicAt with
  | some 0 => .unwound (st.poisoned poison sid pid)
  | some (n + 1) => next (some n)
  | none => next none

theorem endsIn_atCall {P : SfuShard S → Prop} {poison : S.Rtc → S.Rtc} {panicAt : Option ℕ}
    {st : SfuShard S} {sid : SessionId} {pid : ParticipantId} {next : Option ℕ → Unwinding S}
    (h : P (st.poisoned poison sid pid)) (hnext : ∀ m, (next m).EndsIn P) :
    (atCall poison panicAt st sid pid next).EndsIn P := by
  rcases panicAt with _ | _ | n
  · exact hnext none
  · exact h
  · exact hnext (some n)

/-! ### Forwarding -/

/-- One turn of the forwarding loop. -/
def forwardToPanics (poison : S.Rtc → S.Rtc) (sid : SessionId) (pkt : RtpPacket)
    (kind : MediaKind) (pp : S.PayloadParams) (panicAt : Option ℕ) (st : SfuShard S)
    (target : TrackKey) : Unwinding S :=
  match st.participant? sid target.1 with
  | none => .returned st panicAt
  | some p => atCall poison panicAt st sid target.1 fun panicAt =>
    match S.matchParams p.rtc pp with
    | none => .returned st panicAt
    | some egress =>
      match p.tracksOut.find? fun t => t.openMid = some target.2 with
      | none => .returned st panicAt
      | some t =>
        let p := advanceSeq p target.2 pkt
        let seqNo := (t.rewriteSeq pkt.ssrc pkt.seqNo).2
        atCall poison panicAt (st.setParticipant sid target.1 p) sid target.1 fun panicAt =>
          match S.writeRtp p.rtc target.2 (pkt.egress kind (S.pt egress) seqNo) with
          | none => .returned (st.setParticipant sid target.1 p) panicAt
          | some rtc =>
            .returned { st.setParticipant sid target.1 { p with rtc := rtc } with
              pendingFlush := st.pendingFlush.insert (sid, target.1) () } panicAt

/-- The loop. -/
def forwardLoop (forward : Option ℕ → SfuShard S → TrackKey → Unwinding S) :
    List TrackKey → Option ℕ → SfuShard S → Unwinding S
  | [], panicAt, st => .returned st panicAt
  | target :: targets, panicAt, st =>
    (forward panicAt st target).bind fun st panicAt => forwardLoop forward targets panicAt st

/-- The list of subscribers is out of the map for the time of the loop. -/
def forwardToAllPanics (panicAt : Option ℕ) (st : SfuShard S) (sid : SessionId) (key : TrackKey)
    (forward : Option ℕ → SfuShard S → TrackKey → Unwinding S) : Unwinding S :=
  match (st.session? sid).bind fun s => s.forwardingMap.lookup key with
  | none => .returned st panicAt
  | some [] =>
    .returned { st with sessions := st.sessions.modify sid fun s =>
      { s with forwardingMap := s.forwardingMap.erase key } } panicAt
  | some targets =>
    (forwardLoop forward targets panicAt (st.setTargets sid key [])).bind fun st panicAt =>
      .returned (st.setTargets sid key targets) panicAt

/-- `forward_rtp`. -/
def forwardRtpPanics (poison : S.Rtc → S.Rtc) (panicAt : Option ℕ) (st : SfuShard S)
    (sid : SessionId) (pid : ParticipantId) (mid : Mid) (pkt : RtpPacket) : Unwinding S :=
  match st.session? sid with
  | none => .returned st panicAt
  | some s =>
    match s.participants.lookup pid with
    | none => .returned st panicAt
    | some p =>
      match p.tracksIn.find? fun t => t.mid = mid with
      | none => .returned st panicAt
      | some track =>
        let st := st.setParticipant sid pid (hearPacket p mid pkt)
        atCall poison panicAt st sid pid fun panicAt =>
          match S.findPayload p.rtc pkt.payloadType with
          | none => .returned st panicAt
          | some pp =>
            if S.isRtx pp then .returned st panicAt
            else if track.kind = .audio ∧ (s.topAudioPublishers.lookup (pid, mid)).isNone then
              .returned st panicAt
            else
              forwardToAllPanics panicAt st sid (pid, mid)
                (forwardToPanics poison sid pkt track.kind pp)

/-! ### Events and turns -/

/-- Whether a keyframe request reaches the transport of the publisher. -/
def asksPublisher (s : SfuSession S) (now : Instant) (key : TrackKey) : Bool :=
  !((s.lastKeyframeAt.lookup key).any fun t => now - t < keyframeThrottle) &&
    (s.participants.lookup key.1).isSome

/-- The event handler of `poll_participant_inner`. Only packets and keyframe requests are
handled with calls on a transport. -/
def handleEventPanics (poison : S.Rtc → S.Rtc) (panicAt : Option ℕ) (st : SfuShard S)
    (now : Instant) (sid : SessionId) (pid : ParticipantId) : Event → Unwinding S
  | .rtpPacket pkt =>
    match st.participant? sid pid with
    | none => .returned st panicAt
    | some p => atCall poison panicAt st sid pid fun panicAt =>
      match S.streamRx p.rtc pkt.ssrc with
      | none => .returned st panicAt
      | some (mid, rid) =>
        if rid.all (· = "h") then forwardRtpPanics poison panicAt st sid pid mid pkt
        else .returned st panicAt
  | .keyframeRequest mid =>
    match st.session? sid with
    | none => .returned st panicAt
    | some s =>
      match (s.participants.lookup pid).bind fun p =>
        p.tracksOut.find? fun t => t.openMid = some mid with
      | none => .returned st panicAt
      | some t =>
        let asked := st.setSession sid (s.requestKeyframeThrottled now t.origin t.originMid).1
        if asksPublisher s now (t.origin, t.originMid) then
          atCall poison panicAt st sid t.origin fun panicAt => .returned asked panicAt
        else .returned asked panicAt
  | e => .returned (st.handleEvent now sid pid e) panicAt

/-- One turn of the loop of `poll_participant_inner`. -/
def pollTurnPanics (poison : S.Rtc → S.Rtc) (panicAt : Option ℕ) (now : Instant) (sid : SessionId)
    (pid : ParticipantId) (st : SfuShard S) : Unwinding S :=
  match st.participant? sid pid with
  | none => .returned st panicAt
  | some p => atCall poison panicAt st sid pid fun panicAt =>
    if !S.isAlive p.rtc then .returned st panicAt
    else
      atCall poison panicAt st sid pid fun panicAt =>
        match S.pollOutput p.rtc with
        | (rtc, .ok (.transmit _ _)) =>
          .returned (st.setParticipant sid pid { p with rtc := rtc }) panicAt
        | (rtc, .ok (.event e)) =>
          handleEventPanics poison panicAt (st.setParticipant sid pid { p with rtc := rtc }) now
            sid pid e
        | (rtc, .ok (.timeout _)) =>
          .returned (st.setParticipant sid pid { p with rtc := rtc }) panicAt
        | (rtc, .error _) =>
          atCall poison panicAt (st.setParticipant sid pid { p with rtc := rtc }) sid pid
            fun panicAt =>
              .returned (st.setParticipant sid pid { p with rtc := S.disconnect rtc }) panicAt

/-- The participant whose poll has panicked: its silence is backdated, so that the next tick
sweeps it. -/
def deadParticipant (zombieTimeout : Duration) (now : Instant) (p : SfuParticipant S) :
    SfuParticipant S :=
  { p with
    rtc := S.disconnect p.rtc
    iceDisconnected := true
    lastActivityAt :=
      if zombieTimeout + 1000 ≤ now then now - (zombieTimeout + 1000) else p.lastActivityAt }

/-- Marks a participant dead. -/
def markDead (st : SfuShard S) (now : Instant) (sid : SessionId) (pid : ParticipantId) :
    SfuShard S :=
  match st.participant? sid pid with
  | none => st
  | some p =>
    (st.setParticipant sid pid (deadParticipant st.zombieTimeout now p)).wsTrySend p.wsTx
      (.error "internal SFU error — please rejoin")

/-- One turn of `poll_participant`, with what it catches. -/
def pollCaught (poison : S.Rtc → S.Rtc) (panicAt : Option ℕ) (now : Instant) (sid : SessionId)
    (pid : ParticipantId) (st : SfuShard S) : SfuShard S :=
  match pollTurnPanics poison panicAt now sid pid st with
  | .returned st _ => st
  | .unwound st => st.markDead now sid pid

/-! ### Turns that are not cut short -/

theorem agrees_atCall {poison : S.Rtc → S.Rtc} {panicAt : Option ℕ} {st : SfuShard S}
    {sid : SessionId} {pid : ParticipantId} {next : Option ℕ → Unwinding S} {st' : SfuShard S}
    (h : ∀ m, (next m).Agrees m st') :
    (atCall poison panicAt st sid pid next).Agrees panicAt st' := by
  rcases panicAt with _ | _ | n
  · exact h none
  · exact Option.some_ne_none 0
  · have h := h (some n)
    rw [atCall]
    rcases hn : next (some n) with ⟨st₁, m⟩ | st₁
    · rw [hn] at h
      exact ⟨h.1, nofun⟩
    · exact Option.some_ne_none (n + 1)

theorem agrees_forwardTo (poison : S.Rtc → S.Rtc) (sid : SessionId) (pkt : RtpPacket)
    (kind : MediaKind) (pp : S.PayloadParams) (panicAt : Option ℕ) (st : SfuShard S)
    (target : TrackKey) :
    (forwardToPanics poison sid pkt kind pp panicAt st target).Agrees panicAt
      (forwardTo sid pkt kind pp st target) := by
  unfold forwardToPanics forwardTo
  rcases st.participant? sid target.1 with _ | p
  · exact Unwinding.agrees_returned _ _
  · refine agrees_atCall fun m => ?_
    dsimp only
    rcases S.matchParams p.rtc pp with _ | egress
    · exact Unwinding.agrees_returned _ _
    · dsimp only
      generalize List.find? _ p.tracksOut = found
      rcases found with _ | t
      · exact Unwinding.agrees_returned _ _
      · refine agrees_atCall fun m => ?_
        dsimp only
        rcases S.writeRtp (advanceSeq p target.2 pkt).rtc target.2 _ with _ | rtc <;>
          exact Unwinding.agrees_returned _ _

theorem agrees_forwardLoop {forward : Option ℕ → SfuShard S → TrackKey → Unwinding S}
    {forward' : SfuShard S → TrackKey → SfuShard S}
    (h : ∀ panicAt st target, (forward panicAt st target).Agrees panicAt (forward' st target))
    (targets : List TrackKey) (panicAt : Option ℕ) (st : SfuShard S) :
    (forwardLoop forward targets panicAt st).Agrees panicAt (targets.foldl forward' st) := by
  induction targets generalizing panicAt st with
  | nil => exact Unwinding.agrees_returned _ _
  | cons target targets ih => exact (h panicAt st target).bind fun m => ih m (forward' st target)

theorem agrees_forwardToAll {forward : Option ℕ → SfuShard S → TrackKey → Unwinding S}
    {forward' : SfuShard S → TrackKey → SfuShard S}
    (h : ∀ panicAt st target, (forward panicAt st target).Agrees panicAt (forward' st target))
    (panicAt : Option ℕ) (st : SfuShard S) (sid : SessionId) (key : TrackKey) :
    (forwardToAllPanics panicAt st sid key forward).Agrees panicAt
      (st.forwardToAll sid key forward') := by
  unfold forwardToAllPanics forwardToAll
  rcases (st.session? sid).bind fun s => s.forwardingMap.lookup key with _ | _ | ⟨target, targets⟩
  · exact Unwinding.agrees_returned _ _
  · exact Unwinding.agrees_returned _ _
  · exact (agrees_forwardLoop h _ _ _).bind fun m => Unwinding.agrees_returned _ _

theorem agrees_forwardRtp (poison : S.Rtc → S.Rtc) (panicAt : Option ℕ) (st : SfuShard S)
    (sid : SessionId) (pid : ParticipantId) (mid : Mid) (pkt : RtpPacket) :
    (forwardRtpPanics poison panicAt st sid pid mid pkt).Agrees panicAt
      (st.forwardRtp sid pid mid pkt) := by
  unfold forwardRtpPanics forwardRtp
  rcases st.session? sid with _ | s
  · exact Unwinding.agrees_returned _ _
  · dsimp only
    rcases s.participants.lookup pid with _ | p
    · exact Unwinding.agrees_returned _ _
    · dsimp only
      generalize List.find? _ p.tracksIn = found
      rcases found with _ | track
      · exact Unwinding.agrees_returned _ _
      · refine agrees_atCall fun m => ?_
        dsimp only
        rcases S.findPayload p.rtc pkt.payloadType with _ | pp
        · exact Unwinding.agrees_returned _ _
        · dsimp only
          split_ifs
          · exact Unwinding.agrees_returned _ _
          · exact Unwinding.agrees_returned _ _
          · exact agrees_forwardToAll (agrees_forwardTo poison sid pkt _ _) _ _ _ _

theorem agrees_handleEvent (poison : S.Rtc → S.Rtc) (panicAt : Option ℕ) (st : SfuShard S)
    (now : Instant) (sid : SessionId) (pid : ParticipantId) (e : Event) :
    (handleEventPanics poison panicAt st now sid pid e).Agrees panicAt
      (st.handleEvent now sid pid e) := by
  cases e with
  | rtpPacket pkt =>
    dsimp only [handleEventPanics, handleEvent]
    rcases st.participant? sid pid with _ | p
    · exact Unwinding.agrees_returned _ _
    · refine agrees_atCall fun m => ?_
      rw [Option.bind_some]
      rcases S.streamRx p.rtc pkt.ssrc with _ | ⟨mid, rid⟩
      · exact Unwinding.agrees_returned _ _
      · dsimp only
        split
        · exact agrees_forwardRtp poison m st sid pid mid pkt
        · exact Unwinding.agrees_returned _ _
  | keyframeRequest mid =>
    dsimp only [handleEventPanics, handleEvent]
    rcases st.session? sid with _ | s
    · exact Unwinding.agrees_returned _ _
    · dsimp only
      generalize (s.participants.lookup pid).bind _ = found
      rcases found with _ | t
      · exact Unwinding.agrees_returned _ _
      · dsimp only
        split
        · exact agrees_atCall fun m => Unwinding.agrees_returned _ _
        · exact Unwinding.agrees_returned _ _
  | iceConnectionStateChange _ => exact Unwinding.agrees_returned _ _
  | mediaAdded _ _ => exact Unwinding.agrees_returned _ _
  | egressBitrateEstimate _ => exact Unwinding.agrees_returned _ _
  | other => exact Unwinding.agrees_returned _ _

/-- **A turn that is not cut short** is a turn of `poll_participant`, and it is not cut short
when no call panics. -/
theorem agrees_pollTurn (poison : S.Rtc → S.Rtc) (panicAt : Option ℕ) (now : Instant)
    (sid : SessionId) (pid : ParticipantId) (st : SfuShard S) :
    (pollTurnPanics poison panicAt now sid pid st).Agrees panicAt
      (pollParticipant now sid pid 1 st) := by
  unfold pollTurnPanics pollParticipant
  rcases st.participant? sid pid with _ | p
  · exact Unwinding.agrees_returned _ _
  · refine agrees_atCall fun m => ?_
    dsimp only
    split_ifs
    · exact Unwinding.agrees_returned _ _
    · refine agrees_atCall fun m => ?_
      rcases S.pollOutput p.rtc with ⟨rtc, e | out⟩
      · exact agrees_atCall fun m => Unwinding.agrees_returned _ _
      · cases out with
        | transmit _ _ => exact Unwinding.agrees_returned _ _
        | event e => exact agrees_handleEvent poison m _ now sid pid e
        | timeout _ => exact Unwinding.agrees_returned _ _

theorem pollCaught_none (poison : S.Rtc → S.Rtc) (now : Instant) (sid : SessionId)
    (pid : ParticipantId) (st : SfuShard S) :
    pollCaught poison none now sid pid st = pollParticipant now sid pid 1 st := by
  have h := agrees_pollTurn poison none now sid pid st
  rw [pollCaught]
  rcases ho : pollTurnPanics poison none now sid pid st with ⟨st', m⟩ | st'
  · rw [ho] at h
    exact h.1
  · rw [ho] at h
    exact absurd rfl h

end SfuShard

end Video

end MateHub
