import MateHub.Video.Sfu.Effects

/-!
# The SFU's side of a negotiation

Offers and answers go back and forth between a client and its participant in the
shard. `MateHub.Video.Negotiator` is what that exchange sees of the participant:
whether an offer of its own awaits its answer, and whether an offer of the client is
queued behind it. The offers of either side are numbered, so that one can say which
offer an answer answers; what the transport says to an offer of the client is an
input.

The handlers of the shard do to a participant what the negotiator's operations do,
and send the same messages: `MateHub.Video.Negotiator.tracks_handleJoin`,
`tracks_handleClientOffer`, `tracks_handleAnswer`, `tracks_negotiateOne` and
`tracks_deactivate`.
-/

namespace MateHub

namespace Video

/-- What negotiation sees of a participant of the shard. -/
structure Negotiator where
  /-- Whether the participant is in the session. -/
  joined : Bool := false
  /-- The offer of the SFU that awaits its answer. -/
  pendingOffer : Option ℕ := none
  /-- The offer of the client that waits for that answer. -/
  queuedClientOffer : Option ℕ := none
  /-- How many offers the SFU has made. -/
  offers : ℕ := 0
  deriving DecidableEq, Repr

/-- The messages of the SFU in a negotiation: an answer to an offer of the client, or
an offer. -/
inductive SfuMessage
  | answer (offer : ℕ)
  | offer (number : ℕ)
  deriving DecidableEq, Repr

namespace Negotiator

/-- `handle_client_offer`. -/
def handleClientOffer (n : Negotiator) (accepts : Bool) (offer : ℕ) :
    Negotiator × List SfuMessage :=
  if !n.joined then (n, [])
  else if n.pendingOffer.isSome then ({ n with queuedClientOffer := some offer }, [])
  else (n, if accepts then [.answer offer] else [])

/-- `handle_join`: an older participant of the client is gone in any case. -/
def handleJoin (n : Negotiator) (accepts : Bool) (offer : ℕ) : Negotiator × List SfuMessage :=
  ({ n with joined := accepts, pendingOffer := none, queuedClientOffer := none },
    if accepts then [.answer offer] else [])

/-- The end of `handle_answer`. -/
def drainQueuedOffer (n : Negotiator) (accepts : Bool) : Negotiator × List SfuMessage :=
  match n.queuedClientOffer with
  | none => (n, [])
  | some offer => ({ n with queuedClientOffer := none }).handleClientOffer accepts offer

/-- `handle_answer`: the offer that awaits an answer is taken, whatever the transport
makes of the answer. -/
def handleAnswer (n : Negotiator) (accepts : Bool) : Negotiator × List SfuMessage :=
  if !n.joined then (n, []) else ({ n with pendingOffer := none }).drainQueuedOffer accepts

/-- An offer is made, unless one awaits its answer. -/
def makeOffer (n : Negotiator) : Negotiator × List SfuMessage :=
  if n.joined && n.pendingOffer.isNone then
    ({ n with pendingOffer := some n.offers, offers := n.offers + 1 }, [.offer n.offers])
  else (n, [])

/-! ### The shard does the same -/

variable {S : Str0m} {st : SfuShard S} {sid : SessionId} {pid : ParticipantId} {n : Negotiator}

/-- The negotiator shows the state of a participant. -/
structure TracksParticipant (n : Negotiator) (p : SfuParticipant S) : Prop where
  pendingOffer : n.pendingOffer.isSome = p.pendingOffer.isSome
  queuedClientOffer : n.queuedClientOffer.isSome = p.queuedClientOffer.isSome

/-- The negotiator shows the state of the participant of an id, which may be none. -/
def Tracks (n : Negotiator) (st : SfuShard S) (sid : SessionId) (pid : ParticipantId) : Prop :=
  match st.participant? sid pid with
  | none => n.joined = false
  | some p => n.joined = true ∧ n.TracksParticipant p

theorem tracks_none (hp : st.participant? sid pid = none) :
    n.Tracks st sid pid ↔ n.joined = false := by
  rw [Tracks, hp]

theorem tracks_some {p : SfuParticipant S} (hp : st.participant? sid pid = some p) :
    n.Tracks st sid pid ↔ n.joined = true ∧ n.TracksParticipant p := by
  rw [Tracks, hp]

/-- The participant is written back, and perhaps a message is sent. -/
theorem tracks_setParticipant {p p' : SfuParticipant S} {st' : SfuShard S}
    (hp : st.participant? sid pid = some p)
    (hst' : st'.sessions = (st.setParticipant sid pid p').sessions) (hjoined : n.joined = true)
    (ht : n.TracksParticipant p') : n.Tracks st' sid pid := by
  refine (tracks_some (p := p') ?_).mpr ⟨hjoined, ht⟩
  have hset : (st.setParticipant sid pid p').participant? sid pid = some p' := by
    rw [SfuShard.participant?_setParticipant hp, if_pos ⟨rfl, rfl⟩]
  rwa [SfuShard.participant?, SfuShard.session?, ← hst'] at hset

/-- A message of the shard is what the negotiator calls it. -/
inductive Shows : ServerMessage → SfuMessage → Prop
  | answer (text : String) (pid : ParticipantId) (offer : ℕ) :
      Shows (.answer text pid) (.answer offer)
  | offer (text : String) (tracks : Option (List TrackMapping)) (number : ℕ) :
      Shows (.offer text tracks) (.offer number)

/-- Whether a message belongs to a negotiation. -/
def negotiates : ServerMessage → Bool
  | .answer _ _ => true
  | .offer _ _ => true
  | _ => false

/-- From one state of the shard to another, messages are sent to a WebSocket: those of
the negotiator, and perhaps others. -/
def Sends (st st' : SfuShard S) (tx : WsTx) (ms : List SfuMessage) : Prop :=
  ∃ msgs : List ServerMessage, List.Forall₂ Shows (msgs.filter negotiates) ms ∧
    st'.ws tx = msgs.foldl Outbox.trySend (st.ws tx)

theorem sends_nil {st' : SfuShard S} {tx : WsTx} (h : st'.ws = st.ws) : Sends st st' tx [] :=
  ⟨[], .nil, by rw [h]; rfl⟩

theorem sends_one {st' : SfuShard S} {tx : WsTx} {msg : ServerMessage} {m : SfuMessage}
    (hm : Shows msg m) (h : st'.ws tx = (st.ws tx).trySend msg) : Sends st st' tx [m] := by
  refine ⟨[msg], ?_, h⟩
  cases hm <;> exact .cons (by constructor) .nil

theorem sends_other {st' : SfuShard S} {tx : WsTx} {msg : ServerMessage}
    (hm : negotiates msg = false) (h : st'.ws tx = (st.ws tx).trySend msg) :
    Sends st st' tx [] := by
  refine ⟨[msg], ?_, h⟩
  rw [List.filter_cons_of_neg (by simp [hm])]
  exact .nil

theorem ws_wsTrySend (st : SfuShard S) (tx : WsTx) (msg : ServerMessage) :
    (st.wsTrySend tx msg).ws tx = (st.ws tx).trySend msg :=
  Function.update_self tx _ st.ws

/-- **The shard does what an operation of the negotiator says**, and sends its messages. -/
def Follows (st st' : SfuShard S) (sid : SessionId) (pid : ParticipantId)
    (r : Negotiator × List SfuMessage) : Prop :=
  r.1.Tracks st' sid pid ∧ ∀ p, st.participant? sid pid = some p → Sends st st' p.wsTx r.2

theorem Tracks.follows_none (h : n.Tracks st sid pid) (hp : st.participant? sid pid = none) :
    Follows st st sid pid (n, []) :=
  ⟨h, fun p hp' => by rw [hp] at hp'; cases hp'⟩

/-- The participant is written back, and the messages are sent to it. -/
theorem follows_setParticipant {p p' : SfuParticipant S} {st' : SfuShard S}
    {ms : List SfuMessage} (hp : st.participant? sid pid = some p)
    (hst' : st'.sessions = (st.setParticipant sid pid p').sessions) (hjoined : n.joined = true)
    (ht : n.TracksParticipant p') (hsends : Sends st st' p.wsTx ms) :
    Follows st st' sid pid (n, ms) := by
  refine ⟨tracks_setParticipant hp hst' hjoined ht, fun q hq => ?_⟩
  obtain rfl := Option.some.inj (hp.symm.trans hq)
  exact hsends

/-- `handle_client_offer`, for an offer that can be read. -/
theorem tracks_handleClientOffer (h : n.Tracks st sid pid) {sdpOffer : String} {sdp : S.SdpOffer}
    (hread : S.readOffer sdpOffer = .ok sdp) (offer : ℕ) : ∃ accepts,
    Follows st (st.handleClientOffer sid pid sdpOffer).1 sid pid
      (n.handleClientOffer accepts offer) := by
  rcases hp : st.participant? sid pid with _ | p
  · refine ⟨true, ?_⟩
    simp only [SfuShard.handleClientOffer, hread, hp, handleClientOffer, (tracks_none hp).mp h,
      Bool.not_false, if_true]
    exact h.follows_none hp
  · obtain ⟨hjoined, ht⟩ := (tracks_some hp).mp h
    have hsome := ht.pendingOffer
    rcases hpend : p.pendingOffer with _ | pending <;> rw [hpend] at hsome
    · -- nothing is pending: the transport decides
      rcases hacc : S.acceptOffer (S.sdpApi p.rtc) sdp with ⟨rtc, e | answer⟩
      · refine ⟨false, ?_⟩
        simp only [SfuShard.handleClientOffer, hread, hp, hpend, hacc, handleClientOffer, hjoined,
          hsome, Option.isSome_none, Bool.not_true, Bool.false_eq_true, if_false]
        exact follows_setParticipant hp rfl hjoined ⟨hsome, ht.queuedClientOffer⟩ (sends_nil rfl)
      · refine ⟨true, ?_⟩
        simp only [SfuShard.handleClientOffer, hread, hp, hpend, hacc, handleClientOffer, hjoined,
          hsome, Option.isSome_none, Bool.not_true, Bool.false_eq_true, if_false, if_true]
        exact follows_setParticipant hp rfl hjoined ⟨hsome, ht.queuedClientOffer⟩
          (sends_one (.answer _ _ _) (ws_wsTrySend _ _ _))
    · -- an offer is pending: the client's is queued
      refine ⟨true, ?_⟩
      simp only [SfuShard.handleClientOffer, hread, hp, hpend, handleClientOffer, hjoined, hsome,
        Option.isSome_some, Bool.not_true, Bool.false_eq_true, if_false, if_true]
      exact follows_setParticipant hp rfl rfl ⟨hsome, rfl⟩ (sends_nil rfl)

/-- The end of `handle_answer`, when nothing is pending. -/
theorem tracks_drainQueuedOffer (h : n.Tracks st sid pid) (hpend : n.pendingOffer = none) :
    ∃ accepts, Follows st (st.drainQueuedOffer sid pid) sid pid (n.drainQueuedOffer accepts) := by
  unfold SfuShard.drainQueuedOffer drainQueuedOffer
  rcases hp : st.participant? sid pid with _ | p
  · have hjoined : n.joined = false := (tracks_none hp).mp h
    refine ⟨false, ?_⟩
    rcases n.queuedClientOffer with _ | offer
    · exact h.follows_none hp
    · simp only [handleClientOffer, hjoined, Bool.not_false, if_true]
      exact Tracks.follows_none ((tracks_none hp).mpr rfl) hp
  · obtain ⟨hjoined, ht⟩ := (tracks_some hp).mp h
    have hqueued := ht.queuedClientOffer
    rcases hq : p.queuedClientOffer with _ | sdp <;> rw [hq] at hqueued
    · rw [Option.isSome_none, Option.isSome_eq_false_iff, Option.isNone_iff_eq_none] at hqueued
      simp only [hq, hqueued]
      exact ⟨false, h, fun _ _ => sends_nil rfl⟩
    · obtain ⟨offer, hoffer⟩ := Option.isSome_iff_exists.mp hqueued
      -- the queued offer is taken off, and handled as if it came now
      have htaken : ({ n with queuedClientOffer := none }).Tracks
          (st.setParticipant sid pid { p with queuedClientOffer := none }) sid pid :=
        tracks_setParticipant hp rfl hjoined ⟨ht.pendingOffer, rfl⟩
      have hp' : (st.setParticipant sid pid { p with queuedClientOffer := none }).participant?
          sid pid = some { p with queuedClientOffer := none } := by
        rw [SfuShard.participant?_setParticipant hp, if_pos ⟨rfl, rfl⟩]
      simp only [hq, hoffer]
      rcases hread : S.readOffer sdp with e | offer'
      · refine ⟨false, ?_⟩
        simp only [SfuShard.handleClientOffer, hread, handleClientOffer, hjoined, hpend,
          Option.isSome_none, Bool.not_true, Bool.false_eq_true, if_false]
        exact ⟨by simpa only [hjoined, hpend] using htaken, fun _ _ => sends_nil rfl⟩
      · obtain ⟨accepts, ht', hsends⟩ := tracks_handleClientOffer htaken hread offer
        refine ⟨accepts, ht', fun q hq' => ?_⟩
        obtain rfl := Option.some.inj (hp.symm.trans hq')
        exact hsends { p with queuedClientOffer := none } hp'

/-- A participant as far as its negotiation goes. -/
structure SameExchange (p p' : SfuParticipant S) : Prop where
  wsTx : p'.wsTx = p.wsTx
  pendingOffer : p'.pendingOffer = p.pendingOffer
  queuedClientOffer : p'.queuedClientOffer = p.queuedClientOffer

/-- A request for a keyframe is a call on one transport. -/
theorem rel_requestKeyframe {R : SfuParticipant S → SfuParticipant S → Prop} (hrefl : ∀ p, R p p)
    (hrtc : ∀ p rtc, R p { p with rtc := rtc }) (s : SfuSession S) (now : Instant) (k : TrackKey)
    (pid : ParticipantId) : Option.Rel R (s.participants.lookup pid)
      ((s.requestKeyframeThrottled now k.1 k.2).1.participants.lookup pid) := by
  unfold SfuSession.requestKeyframeThrottled
  dsimp only
  split
  · exact Option.Rel.refl hrefl _
  · split
    · exact Option.Rel.refl hrefl _
    · rename_i p hp
      split
      · exact Option.Rel.refl hrefl _
      · rw [SfuSession.setParticipant, Dict.lookup_insert_eq]
        by_cases hpid : pid = k.1
        · rw [if_pos hpid, hpid, hp]
          exact .some (hrtc _ _)
        · rw [if_neg hpid]
          exact Option.Rel.refl hrefl _

theorem rel_foldl_requestKeyframe {R : SfuParticipant S → SfuParticipant S → Prop}
    (hrefl : ∀ p, R p p) (hrtc : ∀ p rtc, R p { p with rtc := rtc })
    (htrans : ∀ {p q r}, R p q → R q r → R p r) (now : Instant) (pid : ParticipantId)
    (ks : List TrackKey) (s : SfuSession S) : Option.Rel R (s.participants.lookup pid)
      ((ks.foldl (fun s k => (s.requestKeyframeThrottled now k.1 k.2).1) s).participants.lookup
        pid) := by
  induction ks generalizing s with
  | nil => exact Option.Rel.refl hrefl _
  | cons k ks ih =>
    exact Option.Rel.trans (R := R) htrans (rel_requestKeyframe hrefl hrtc s now k pid) (ih _)

theorem sameExchange_foldl_requestKeyframe (now : Instant) (pid : ParticipantId)
    (ks : List TrackKey) (s : SfuSession S) : Option.Rel SameExchange (s.participants.lookup pid)
      ((ks.foldl (fun s k => (s.requestKeyframeThrottled now k.1 k.2).1) s).participants.lookup
        pid) :=
  rel_foldl_requestKeyframe (fun _ => ⟨rfl, rfl, rfl⟩) (fun _ _ => ⟨rfl, rfl, rfl⟩)
    (fun h h' => ⟨h'.wsTx.trans h.wsTx, h'.pendingOffer.trans h.pendingOffer,
      h'.queuedClientOffer.trans h.queuedClientOffer⟩) now pid ks s

/-- The part of `handle_answer` before a queued offer is drained. -/
def takeAnswer (st : SfuShard S) (now : Instant) (sid : SessionId) (pid : ParticipantId)
    (s : SfuSession S) (p : SfuParticipant S) (answer : S.SdpAnswer) : SfuShard S :=
  match p.pendingOffer with
  | none => st
  | some pending =>
    match S.acceptAnswer (S.sdpApi p.rtc) pending answer with
    | (rtc, .error _) => st.setParticipant sid pid { p with rtc := rtc, pendingOffer := none }
    | (rtc, .ok ()) => st.setSession sid (SfuShard.openTracks s now pid p rtc)

/-- Whatever becomes of the answer, the pending offer is taken and nothing is sent. -/
theorem takeAnswer_exchange {s : SfuSession S} {p : SfuParticipant S} (now : Instant)
    (answer : S.SdpAnswer) (hp : st.participant? sid pid = some p) :
    (takeAnswer st now sid pid s p answer).ws = st.ws ∧
    ∃ p', (takeAnswer st now sid pid s p answer).participant? sid pid = some p' ∧
      p'.wsTx = p.wsTx ∧ p'.pendingOffer = none ∧ p'.queuedClientOffer = p.queuedClientOffer := by
  unfold takeAnswer
  split
  · rename_i hpend
    exact ⟨rfl, p, hp, rfl, hpend, rfl⟩
  · split
    · rename_i rtc e _
      refine ⟨rfl, { p with rtc := rtc, pendingOffer := none }, ?_, rfl, rfl, rfl⟩
      rw [SfuShard.participant?_setParticipant hp, if_pos ⟨rfl, rfl⟩]
    · rename_i rtc _
      refine ⟨rfl, ?_⟩
      rw [SfuShard.participant?_setSession, if_pos rfl]
      have hrel := sameExchange_foldl_requestKeyframe now pid (SfuShard.newlyOpened p)
        (SfuShard.registerTracks s pid p rtc)
      rw [SfuShard.lookup_registerTracks, if_pos rfl] at hrel
      obtain ⟨p', hp', hx⟩ := hrel.some_left
      exact ⟨p', hp', hx.wsTx, hx.pendingOffer, hx.queuedClientOffer⟩

/-- `handle_answer`, for an answer that can be read. -/
theorem tracks_handleAnswer (h : n.Tracks st sid pid) (now : Instant) {sdpAnswer : String}
    {answer : S.SdpAnswer} (hread : S.readAnswer sdpAnswer = .ok answer) : ∃ accepts,
    Follows st (st.handleAnswer now sid pid sdpAnswer).1 sid pid (n.handleAnswer accepts) := by
  rcases hp : st.participant? sid pid with _ | p
  · have hsame : (st.handleAnswer now sid pid sdpAnswer).1 = st := by
      unfold SfuShard.handleAnswer
      split
      · rfl
      · rename_i s hs
        rw [SfuShard.participant?, hs, Option.bind_some] at hp
        rw [hp]
    refine ⟨false, ?_⟩
    rw [hsame, handleAnswer, (tracks_none hp).mp h]
    exact h.follows_none hp
  · obtain ⟨hjoined, ht⟩ := (tracks_some hp).mp h
    obtain ⟨s, hs, hlook⟩ := SfuShard.participant?_eq_some.mp hp
    have heq : (st.handleAnswer now sid pid sdpAnswer).1 =
        (takeAnswer st now sid pid s p answer).drainQueuedOffer sid pid := by
      rcases hoffer : p.pendingOffer with _ | pending
      · simp only [SfuShard.handleAnswer, hs, hlook, hread, takeAnswer, hoffer]
      · rcases hacc : S.acceptAnswer (S.sdpApi p.rtc) pending answer with ⟨rtc, e | ⟨⟨⟩⟩⟩ <;>
          simp only [SfuShard.handleAnswer, hs, hlook, hread, takeAnswer, hoffer, hacc]
    obtain ⟨hws, p', hp', htx, hpend, hqueued⟩ := takeAnswer_exchange (s := s) now answer hp
    have htaken : ({ n with pendingOffer := none }).Tracks (takeAnswer st now sid pid s p answer)
        sid pid :=
      (tracks_some hp').mpr ⟨hjoined, by rw [hpend]; rfl, by rw [hqueued]; exact ht.2⟩
    obtain ⟨accepts, ht', hsends⟩ := tracks_drainQueuedOffer htaken rfl
    have hn : n.handleAnswer accepts =
        ({ n with pendingOffer := none }).drainQueuedOffer accepts := by
      rw [handleAnswer, hjoined]
      rfl
    rw [heq]
    refine ⟨accepts, hn ▸ ht', ?_⟩
    rintro q hq
    obtain rfl := Option.some.inj (hp.symm.trans hq)
    obtain ⟨msgs, hmsgs, hout⟩ := hsends p' hp'
    rw [htx, hws] at hout
    exact ⟨msgs, hn ▸ hmsgs, hout⟩

/-- `handle_join`, for an offer that can be read; what is sent to the WebSocket before is
the notice that it has been replaced. -/
theorem tracks_handleJoin (n : Negotiator) (st : SfuShard S) (creds : IceCreds) (now : Instant)
    (userId : String) {sdpOffer : String} (replyTx : WsTx) {sdp : S.SdpOffer}
    (hread : S.readOffer sdpOffer = .ok sdp) (offer : ℕ) : ∃ accepts,
    (n.handleJoin accepts offer).1.Tracks
      (st.handleJoin creds now sid pid userId sdpOffer replyTx).1 sid pid ∧
    Sends (st.kickPrior sid pid) (st.handleJoin creds now sid pid userId sdpOffer replyTx).1
      replyTx (n.handleJoin accepts offer).2 := by
  have hnone := SfuShard.participant?_kickPrior st sid pid
  unfold SfuShard.handleJoin
  generalize st.kickPrior sid pid = st₁ at hnone ⊢
  simp only [hread]
  rcases S.acceptOffer (S.sdpApi (st₁.buildRtc creds now)) sdp with ⟨rtc, e | answer⟩
  · exact ⟨false, (tracks_none hnone).mpr rfl, sends_other rfl (ws_wsTrySend _ _ _)⟩
  · refine ⟨true, (tracks_some ((SfuShard.participant?_addParticipant _ _ _ _ _ _ _ _ _ _ _).trans
      (if_pos ⟨rfl, rfl⟩))).mpr ⟨rfl, rfl, rfl⟩, sends_one (.answer (S.answerText answer) pid offer) ?_⟩
    unfold SfuShard.addParticipant
    dsimp only
    split <;> exact ws_wsTrySend _ _ _

/-- An offer is made to a participant that has none to answer. -/
theorem follows_makeOffer {p p' : SfuParticipant S} {tracks : Option (List TrackMapping)}
    {text : String} (h : n.Tracks st sid pid) (hp : st.participant? sid pid = some p)
    (hpend : ¬ p.pendingOffer.isSome = true) (hp' : p'.pendingOffer.isSome = true)
    (hqueued : p'.queuedClientOffer = p.queuedClientOffer) :
    Follows st ((st.setParticipant sid pid p').wsTrySend p.wsTx (.offer text tracks)) sid pid
      n.makeOffer := by
  obtain ⟨hjoined, ht⟩ := (tracks_some hp).mp h
  have hnone := ht.pendingOffer
  rw [Bool.eq_false_iff.mpr hpend, Option.isSome_eq_false_iff, Option.isNone_iff_eq_none] at hnone
  simp only [makeOffer, hjoined, hnone, Option.isNone_none, Bool.and_self, if_true]
  exact follows_setParticipant hp rfl rfl ⟨hp'.symm, hqueued ▸ ht.2⟩
    (sends_one (.offer _ _ _) (ws_wsTrySend _ _ _))

/-- A turn of `negotiate_pending_tracks` makes an offer or sends nothing. -/
theorem tracks_negotiateOne (h : n.Tracks st sid pid) {p : SfuParticipant S}
    (hp : st.participant? sid pid = some p) :
    Follows st (SfuShard.negotiateOne st (sid, pid)) sid pid (n, []) ∨
      Follows st (SfuShard.negotiateOne st (sid, pid)) sid pid n.makeOffer := by
  obtain ⟨hjoined, ht⟩ := (tracks_some hp).mp h
  obtain ⟨s, hs, hlook⟩ := SfuShard.participant?_eq_some.mp hp
  simp only [SfuShard.negotiateOne, hs, hlook]
  split
  · exact .inl ⟨h, fun _ _ => sends_nil rfl⟩
  · rename_i hpend
    split
    · exact .inl (follows_setParticipant hp rfl hjoined ⟨ht.1, ht.2⟩ (sends_nil rfl))
    · split
      · exact .inl (follows_setParticipant hp rfl hjoined ⟨ht.1, ht.2⟩ (sends_nil rfl))
      · exact .inr (follows_makeOffer h hp hpend rfl rfl)

/-- So does a turn of the loop with which `handle_leave` sets the transceivers of a
departed publisher inactive. -/
theorem tracks_deactivate (h : n.Tracks st sid pid) (mids : List Mid) {p : SfuParticipant S}
    (hp : st.participant? sid pid = some p) :
    Follows st (SfuShard.deactivate sid st (pid, mids)) sid pid (n, []) ∨
      Follows st (SfuShard.deactivate sid st (pid, mids)) sid pid n.makeOffer := by
  obtain ⟨hjoined, ht⟩ := (tracks_some hp).mp h
  simp only [SfuShard.deactivate, hp]
  split
  · exact .inl ⟨h, fun _ _ => sends_nil rfl⟩
  · rename_i hpend
    split
    · exact .inl (follows_setParticipant hp rfl hjoined ⟨ht.1, ht.2⟩ (sends_nil rfl))
    · split
      · exact .inl (follows_setParticipant hp rfl hjoined ⟨ht.1, ht.2⟩ (sends_nil rfl))
      · exact .inr (follows_makeOffer h hp hpend rfl rfl)

end Negotiator

end Video

end MateHub
