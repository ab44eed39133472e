import MateHub.Video.Sfu.Bystander
import MateHub.Video.Sfu.FanOut

/-!
# Runs in which calls panic

The steps of the event loop are taken apart here, so that a run can tell where a call has
panicked: the handler of a command is a step of its own, and so is every turn of
`poll_participant`, whether it returns or is unwound. Every run of the event loop is such a run
(`MateHub.Video.SfuShard.reach_pieces`).

The forwarding loop works on a list of subscribers that it has taken out of the forwarding map.
A call that panics there leaves the map without the list; a call that panics anywhere else
leaves the sessions in order, and the damage is to the participant that was polled
(`MateHub.Video.panic_isolated`).
-/

namespace MateHub

namespace Video

variable {S : Str0m} {leaves : S.Rtc → S.Rtc → Prop}

/-- **`MediaAdded` is raised at most once per mid**, also of a transport one of whose calls has
panicked. -/
def Str0m.MediaAddedOnceDespite (leaves : S.Rtc → S.Rtc → Prop) : Prop :=
  ∃ R : S.MediaRecord, ∀ rtc rtc', leaves rtc rtc' → R.announced rtc ⊆ R.announced rtc'

/-- A call has panicked. -/
def Unwinding.isUnwound : Unwinding S → Bool
  | .returned _ _ => false
  | .unwound _ => true

namespace SfuShard

/-! ### The steps, taken apart -/

/-- The pieces into which the event loop may be cut by panics. -/
inductive Piece (S : Str0m)
  | command (cmd : SfuCommand) (creds : IceCreds) (now : Instant)
  /-- A turn of `poll_participant` that returns. -/
  | turn (sid : SessionId) (pid : ParticipantId) (now : Instant)
  /-- A turn of `poll_participant` in which a call panics, the one after `calls` others. -/
  | panic (sid : SessionId) (pid : ParticipantId) (now : Instant) (calls : ℕ)
      (poison : S.Rtc → S.Rtc)
  | tick (now : Instant)
  /-- A target is taken off the pending writes. -/
  | flush (e : SessionId × ParticipantId)
  | negotiate
  | drain (tx : WsTx) (n : ℕ)
  | close (tx : WsTx)
  | rehash

/-- If a call is to panic, it does, and leaves what it may leave. -/
def Happens (leaves : S.Rtc → S.Rtc → Prop) (st : SfuShard S) : Piece S → Prop
  | .panic sid pid now calls poison => (∀ rtc, leaves rtc (poison rtc)) ∧
      (pollTurnPanics poison (some calls) now sid pid st).isUnwound = true
  | _ => True

/-- The shard after a piece. -/
def perform (st : SfuShard S) : Piece S → SfuShard S
  | .command cmd creds now => (st.handleCommand creds now cmd).1
  | .turn sid pid now => pollParticipant now sid pid 1 st
  | .panic sid pid now calls poison => pollCaught poison (some calls) now sid pid st
  | .tick now => st.tick now
  | .flush e => { st with pendingFlush := st.pendingFlush.erase e }
  | .negotiate => st.next .negotiate
  | .drain tx n => st.next (.drain tx n)
  | .close tx => st.next (.close tx)
  | .rehash => st

/-- The steps of a shard, piece by piece. -/
inductive PieceStep (leaves : S.Rtc → S.Rtc → Prop) : SfuShard S → Piece S → SfuShard S → Prop
  | perform (st : SfuShard S) {i : Piece S} :
      st.Happens leaves i → PieceStep leaves st i (st.perform i)
  | rehash {st st' : SfuShard S} : Rehashed st st' → PieceStep leaves st .rehash st'

/-- A shard that starts with no session, and the pieces of its steps in any order. -/
def pieces (leaves : S.Rtc → S.Rtc → Prop) : System (SfuShard S) (Piece S) where
  init := (system S).init
  step := PieceStep leaves

/-- **The call that panics is not one of the forwarding loop**: a turn makes at most four calls
outside of it, all of them before. -/
def OutsideForwarding (_ : SfuShard S) : Piece S → Prop
  | .panic _ _ _ calls _ => calls < 4
  | _ => True

/-! ### Every run of the event loop -/

/-- A loop of `poll_participant` is a turn, and perhaps further ones. -/
theorem pollParticipant_succ (now : Instant) (sid : SessionId) (pid : ParticipantId) (fuel : ℕ)
    (st : SfuShard S) :
    pollParticipant now sid pid (fuel + 1) st = pollParticipant now sid pid 1 st ∨
      pollParticipant now sid pid (fuel + 1) st =
        pollParticipant now sid pid fuel (pollParticipant now sid pid 1 st) := by
  simp only [pollParticipant]
  rcases st.participant? sid pid with _ | p
  · exact .inl rfl
  · dsimp only
    split_ifs
    · exact .inl rfl
    · rcases S.pollOutput p.rtc with ⟨rtc, e | out⟩
      · exact .inl rfl
      · cases out with
        | transmit _ _ => exact .inr rfl
        | event e => exact .inr rfl
        | timeout _ => exact .inl rfl

section Reach

variable {P : SfuShard S → Prop}
  (hturn : ∀ now sid pid st, P st → P (pollParticipant now sid pid 1 st))

include hturn

theorem pollParticipant_induct (now : Instant) (sid : SessionId) (pid : ParticipantId) (fuel : ℕ)
    {st : SfuShard S} (h : P st) : P (pollParticipant now sid pid fuel st) := by
  induction fuel generalizing st with
  | zero => exact h
  | succ fuel ih =>
    rcases pollParticipant_succ now sid pid fuel st with heq | heq
    · exact heq ▸ hturn now sid pid st h
    · exact heq ▸ ih (hturn now sid pid st h)

theorem pollSession_induct (now : Instant) (fuel : ℕ) (sid : SessionId) {st : SfuShard S}
    (h : P st) : P (pollSession now fuel st sid) := by
  unfold pollSession
  split
  · exact h
  · exact List.foldlRecOn _ _ h fun st h pid _ => pollParticipant_induct hturn now sid pid fuel h

theorem pollTarget_induct (now : Instant) (fuel : ℕ) (target : Option PollTarget)
    {st : SfuShard S} (h : P st) : P (pollTarget now fuel st target) := by
  rcases target with _ | ⟨sid, pid⟩ | sid
  · exact h
  · exact pollParticipant_induct hturn now sid pid fuel h
  · exact pollSession_induct hturn now fuel sid h

theorem flushPendingWrites_induct
    (hflush : ∀ st e, P st → P { st with pendingFlush := st.pendingFlush.erase e })
    (now : Instant) (pollFuel fuel : ℕ) {st : SfuShard S} (h : P st) :
    P (flushPendingWrites now pollFuel fuel st) := by
  induction fuel generalizing st with
  | zero => exact h
  | succ fuel ih =>
    unfold flushPendingWrites
    split
    · exact h
    · exact ih (pollParticipant_induct hturn now _ _ pollFuel (hflush st _ h))

end Reach

/-- **Every run of the event loop** is a run of its pieces, in which no call panics. -/
theorem reach_pieces {st : SfuShard S} (hst : (system S).Reachable st) :
    (pieces leaves).Reach OutsideForwarding st := by
  have hpiece : ∀ {st : SfuShard S} (i : Piece S), st.Happens leaves i → OutsideForwarding st i →
      (pieces leaves).Reach OutsideForwarding st →
      (pieces leaves).Reach OutsideForwarding (st.perform i) :=
    fun i hi hok h => .step h hok (.perform _ hi)
  have hturn : ∀ now sid pid (st : SfuShard S), (pieces leaves).Reach OutsideForwarding st →
      (pieces leaves).Reach OutsideForwarding (pollParticipant now sid pid 1 st) :=
    fun now sid pid st h => hpiece (.turn sid pid now) trivial trivial h
  induction hst with
  | start hinit => exact .start hinit
  | @step _ _ i _ _ hstep ih =>
    cases hstep with
    | rehash hr => exact .step (l := .rehash) ih trivial (.rehash hr)
    | next =>
      cases i with
      | command cmd creds now fuel =>
        exact pollTarget_induct hturn now fuel _
          (hpiece (.command cmd creds now) trivial trivial ih)
      | tick now fuel =>
        exact List.foldlRecOn _ _ (hpiece (.tick now) trivial trivial ih)
          fun st h sid _ => pollSession_induct hturn now fuel sid h
      | flush now pollFuel fuel =>
        exact flushPendingWrites_induct hturn
          (fun st e h => hpiece (.flush e) trivial trivial h) now pollFuel fuel ih
      | negotiate => exact hpiece .negotiate trivial trivial ih
      | drain tx n => exact hpiece (.drain tx n) trivial trivial ih
      | close tx => exact hpiece (.close tx) trivial trivial ih
      | rehash => exact ih

/-! ### A panic outside the forwarding loop -/

theorem unwound_atCall {poison : S.Rtc → S.Rtc} {calls : ℕ} {st st' : SfuShard S} {sid : SessionId}
    {pid : ParticipantId} {next : Option ℕ → Unwinding S}
    (h : atCall poison (some calls) st sid pid next = .unwound st') :
    calls = 0 ∧ st' = st.poisoned poison sid pid ∨
      ∃ m, calls = m + 1 ∧ next (some m) = .unwound st' := by
  rcases calls with _ | m
  · cases h
    exact .inl ⟨rfl, rfl⟩
  · exact .inr ⟨m, rfl, h⟩

section Unwound

variable {poison : S.Rtc → S.Rtc} {calls : ℕ} {st st' : SfuShard S} {now : Instant}
  {sid : SessionId} {pid : ParticipantId}

theorem unwound_forwardRtp {mid : Mid} {pkt : RtpPacket} (hcalls : calls < 1)
    (h : forwardRtpPanics poison (some calls) st sid pid mid pkt = .unwound st') :
    ∃ st₁ q, st.Frame st₁ ∧ st' = st₁.poisoned poison sid q := by
  unfold forwardRtpPanics at h
  split at h
  · cases h
  · rename_i s hs
    split at h
    · cases h
    · rename_i p hp
      split at h
      · cases h
      · have hpart : st.participant? sid pid = some p := participant?_eq_some.mpr ⟨s, hs, hp⟩
        rcases unwound_atCall h with ⟨-, rfl⟩ | ⟨m, rfl, -⟩
        · exact ⟨_, pid, .setParticipant hpart (frame_hearPacket p mid pkt), rfl⟩
        · omega

theorem unwound_handleEvent {e : Event} (hcalls : calls < 2)
    (h : handleEventPanics poison (some calls) st now sid pid e = .unwound st') :
    ∃ st₁ q, st.Frame st₁ ∧ st' = st₁.poisoned poison sid q := by
  cases e with
  | rtpPacket pkt =>
    dsimp only [handleEventPanics] at h
    split at h
    · cases h
    · rcases unwound_atCall h with ⟨-, rfl⟩ | ⟨m, rfl, h⟩
      · exact ⟨st, pid, .refl st, rfl⟩
      · split at h
        · cases h
        · split at h
          · exact unwound_forwardRtp (by omega) h
          · cases h
  | keyframeRequest mid =>
    dsimp only [handleEventPanics] at h
    split at h
    · cases h
    · split at h
      · cases h
      · split at h
        · rcases unwound_atCall h with ⟨-, rfl⟩ | ⟨m, rfl, h⟩
          · exact ⟨st, _, .refl st, rfl⟩
          · cases h
        · cases h
  | iceConnectionStateChange _ => cases h
  | mediaAdded _ _ => cases h
  | egressBitrateEstimate _ => cases h
  | other => cases h

/-- **Outside the forwarding loop**, a panic finds the shard with one participant written back
and the rest of the frame as it was. -/
theorem unwound_pollTurn (hcalls : calls < 4)
    (h : pollTurnPanics poison (some calls) now sid pid st = .unwound st') :
    ∃ st₁ q, st.Frame st₁ ∧ st' = st₁.poisoned poison sid q := by
  unfold pollTurnPanics at h
  split at h
  · cases h
  · rename_i p hp
    have hpolled : st.Frame (st.setParticipant sid pid { p with rtc := (S.pollOutput p.rtc).1 }) :=
      .setParticipant hp (.call (.pollOutput p.rtc))
    rcases unwound_atCall h with ⟨-, rfl⟩ | ⟨m, rfl, hnext⟩
    · exact ⟨st, pid, .refl st, rfl⟩
    · clear h
      split_ifs at hnext
      · rcases unwound_atCall hnext with ⟨-, rfl⟩ | ⟨m, rfl, h⟩
        · exact ⟨st, pid, .refl st, rfl⟩
        · clear hnext
          split at h
          · cases h
          · rename_i heq
            rw [heq] at hpolled
            obtain ⟨st₁, q, hf, rfl⟩ := unwound_handleEvent (by omega) h
            exact ⟨st₁, q, hpolled.trans hf, rfl⟩
          · cases h
          · rename_i heq
            rw [heq] at hpolled
            rcases unwound_atCall h with ⟨-, rfl⟩ | ⟨m, -, h⟩
            · exact ⟨_, pid, hpolled, rfl⟩
            · cases h

/-- Only a participant that is there is polled. -/
theorem exists_of_isUnwound {panicAt : Option ℕ}
    (h : (pollTurnPanics poison panicAt now sid pid st).isUnwound = true) :
    ∃ p, st.participant? sid pid = some p := by
  rcases hp : st.participant? sid pid with _ | p
  · rw [pollTurnPanics, hp] at h
    cases h
  · exact ⟨p, rfl⟩

end Unwound

/-! ### The sessions stay in order -/

section Sound

variable {R : S.MediaRecord} {st : SfuShard S}

theorem Sound.poisoned {poison : S.Rtc → S.Rtc} (h : st.Sound R)
    (hpoison : ∀ rtc, R.announced rtc ⊆ R.announced (poison rtc)) (sid : SessionId)
    (pid : ParticipantId) : (st.poisoned poison sid pid).Sound R := by
  unfold SfuShard.poisoned
  split
  · exact h
  · rename_i p hp
    exact h.keep hp rfl rfl rfl (hpoison p.rtc)

theorem Sound.markDead (h : st.Sound R) (now : Instant) (sid : SessionId) (pid : ParticipantId) :
    (st.markDead now sid pid).Sound R := by
  unfold SfuShard.markDead
  split
  · exact h
  · rename_i p hp
    have hdead : (st.setParticipant sid pid (deadParticipant st.zombieTimeout now p)).Sound R :=
      h.keep hp rfl rfl rfl (R.call (.disconnect p.rtc))
    exact fun sid' s hs => hdead sid' s hs

theorem Sound.turn (h : st.Sound R) (now : Instant) (sid : SessionId) (pid : ParticipantId)
    (fuel : ℕ) : (pollParticipant now sid pid fuel st).Sound R :=
  h.moves ((moves_polls (E := fun _ => True) trivial fun _ _ => trivial).pollParticipant now sid
    pid fuel st)

/-- **A panic outside the forwarding loop** leaves the sessions in order. -/
theorem Sound.pollCaught {poison : S.Rtc → S.Rtc} (h : st.Sound R)
    (hpoison : ∀ rtc, R.announced rtc ⊆ R.announced (poison rtc)) {calls : ℕ} (hcalls : calls < 4)
    (now : Instant) (sid : SessionId) (pid : ParticipantId) :
    (pollCaught poison (some calls) now sid pid st).Sound R := by
  have hagrees := agrees_pollTurn poison (some calls) now sid pid st
  unfold SfuShard.pollCaught
  split
  · rename_i heq
    rw [heq] at hagrees
    rw [hagrees.1]
    exact h.turn now sid pid 1
  · rename_i heq
    obtain ⟨st₁, q, hf, rfl⟩ := unwound_pollTurn hcalls heq
    exact ((h.move (.framed hf)).poisoned hpoison sid q).markDead now sid pid

theorem Sound.piece (h : st.Sound R)
    (hleaves : ∀ rtc rtc', leaves rtc rtc' → R.announced rtc ⊆ R.announced rtc') {i : Piece S}
    (hi : st.Happens leaves i) (hok : st.OutsideForwarding i) : (st.perform i).Sound R := by
  cases i with
  | command cmd creds now => exact h.moves (moves_handleCommand st cmd creds now 0)
  | turn sid pid now => exact h.turn now sid pid 1
  | panic sid pid now calls poison =>
    exact h.pollCaught (fun rtc => hleaves rtc _ (hi.1 rtc)) hok now sid pid
  | tick now =>
    exact h.moves (moves_tick (E := fun _ => True) trivial (fun _ _ => trivial) (fun _ => trivial)
      st now fun _ _ => trivial)
  | flush e => exact fun sid s hs => h sid s hs
  | negotiate => exact h.moves (moves_of_step (.next st .negotiate))
  | drain tx n => exact h.moves (moves_of_step (.next st (.drain tx n)))
  | close tx => exact h.moves (moves_of_step (.next st (.close tx)))
  | rehash => exact h

theorem sound_of_reach_pieces
    (hleaves : ∀ rtc rtc', leaves rtc rtc' → R.announced rtc ⊆ R.announced rtc')
    (hst : (pieces leaves).Reach OutsideForwarding st) : st.Sound R := by
  refine hst.invariant (fun st hinit => ?_) fun st i st' h hok hstep => ?_
  · obtain ⟨_, _, _, rfl⟩ := hinit
    exact fun _ _ hs => by cases hs
  · cases hstep with
    | perform hi => exact h.piece hleaves hi hok
    | rehash hr => exact h.move (.framed (.rehashed hr))

end Sound

/-! ### A poll that panics -/

/-- **A poll that panics**: after some turns that return comes one in which a call panics, the
one after `calls` others. -/
def PollPanics (leaves : S.Rtc → S.Rtc → Prop) (sid : SessionId) (pid : ParticipantId)
    (now : Instant) (turns calls : ℕ) (st st' : SfuShard S) : Prop :=
  ∃ poison : S.Rtc → S.Rtc,
    ((pollParticipant now sid pid 1)^[turns] st).Happens leaves
      (.panic sid pid now calls poison) ∧
    st' = pollCaught poison (some calls) now sid pid ((pollParticipant now sid pid 1)^[turns] st)

/-- **The damage is to the participant that was polled**: it is marked dead, and everybody else
is a bystander. -/
structure Isolated (leaves : S.Rtc → S.Rtc → Prop) (sid : SessionId) (pid : ParticipantId)
    (now : Instant) (st st' : SfuShard S) : Prop where
  dead : ∃ p, st'.participant? sid pid = some (deadParticipant st'.zombieTimeout now p)
  spares : Spares leaves sid pid st st'

theorem spares_turns (now : Instant) (sid : SessionId) (pid : ParticipantId) (turns : ℕ)
    (st : SfuShard S) :
    Spares leaves sid pid st ((pollParticipant now sid pid 1)^[turns] st) := by
  induction turns with
  | zero => exact .refl st
  | succ turns ih =>
    rw [Function.iterate_succ_apply']
    exact ih.trans (spares_pollParticipant now sid pid _)

theorem PollPanics.isolated {sid : SessionId} {pid : ParticipantId} {now : Instant}
    {turns calls : ℕ} {st st' : SfuShard S} (h : PollPanics leaves sid pid now turns calls st st') :
    Isolated leaves sid pid now st st' := by
  obtain ⟨poison, ⟨hpoison, hunwound⟩, rfl⟩ := h
  have hturns : Spares leaves sid pid st ((pollParticipant now sid pid 1)^[turns] st) :=
    spares_turns now sid pid turns st
  generalize (pollParticipant now sid pid 1)^[turns] st = st₁ at hunwound hturns ⊢
  have hpoison : ∀ rtc, Str0m.Touched leaves rtc (poison rtc) :=
    fun rtc => .single (.panicked (hpoison rtc))
  refine ⟨?_, hturns.trans (spares_pollCaught hpoison _ now sid pid st₁)⟩
  obtain ⟨p, hp⟩ := exists_of_isUnwound hunwound
  have hturn := endsIn_pollTurn hpoison (some calls) now sid pid st₁
  rcases ho : pollTurnPanics poison (some calls) now sid pid st₁ with ⟨st₂, m⟩ | st₂
  · rw [ho] at hunwound
    cases hunwound
  · rw [ho] at hturn
    obtain ⟨p₂, hp₂, -⟩ := (hp ▸ Spares.own hturn).some_left
    have hcaught : pollCaught poison (some calls) now sid pid st₁ = st₂.markDead now sid pid := by
      rw [pollCaught, ho]
    have hmark : st₂.markDead now sid pid = (st₂.setParticipant sid pid
        (deadParticipant st₂.zombieTimeout now p₂)).wsTrySend p₂.wsTx
          (.error "internal SFU error — please rejoin") := by
      rw [markDead, hp₂]
    rw [hcaught, hmark]
    exact ⟨p₂, (participant?_setParticipant hp₂ _ sid pid).trans (if_pos ⟨rfl, rfl⟩)⟩

end SfuShard

/-! ### The result -/

/-- **A panic is isolated**, if the call that panics is not one of the forwarding loop. In every
state of a run in which no call of that loop panics, the sessions are in order; and a poll in
which any other call panics leaves them in order, marks the participant that was polled, and
costs nobody else a track or its part of a negotiation. -/
theorem panic_isolated (hmedia : Str0m.MediaAddedOnceDespite leaves) {st : SfuShard S}
    (hst : (SfuShard.pieces leaves).Reach SfuShard.OutsideForwarding st) :
    (∀ sid s, st.session? sid = some s → s.ForwardsExactly ∧ s.FansOut) ∧
    ∀ sid pid now turns calls st', SfuShard.PollPanics leaves sid pid now turns calls st st' →
      calls < 4 → (∀ sid' s, st'.session? sid' = some s → s.ForwardsExactly ∧ s.FansOut) ∧
        SfuShard.Isolated leaves sid pid now st st' := by
  obtain ⟨R, hleaves⟩ := hmedia
  have horder : ∀ {st : SfuShard S}, (SfuShard.Sound R st) →
      ∀ sid s, st.session? sid = some s → s.ForwardsExactly ∧ s.FansOut :=
    fun h sid s hs => ⟨(h sid s hs).forwardsExactly, (h sid s hs).fansOut⟩
  have hsound := SfuShard.sound_of_reach_pieces hleaves hst
  refine ⟨horder hsound, fun sid pid now turns calls st' hpanics hcalls => ⟨?_, hpanics.isolated⟩⟩
  obtain ⟨poison, ⟨hpoison, -⟩, rfl⟩ := hpanics
  have hturns : SfuShard.Sound R ((SfuShard.pollParticipant now sid pid 1)^[turns] st) := by
    induction turns with
    | zero => exact hsound
    | succ turns ih =>
      rw [Function.iterate_succ_apply']
      exact ih.turn now sid pid 1
  exact horder (hturns.pollCaught (fun rtc => hleaves rtc _ (hpoison rtc)) hcalls now sid pid)

/-- In the call of two, `poll_output` panics when participant 1 is polled. -/
theorem panic_isolated_twoParty : ∃ st', SfuShard.PollPanics Eq 7 1 80 0 1 twoPartyCall st' ∧
    (∀ sid s, st'.session? sid = some s → s.ForwardsExactly ∧ s.FansOut) ∧
    SfuShard.Isolated Eq 7 1 80 twoPartyCall st' := by
  have hmedia : Str0m.MediaAddedOnceDespite (S := scripted) Eq :=
    Scripted.mediaAddedOnce.elim fun R => ⟨R, fun _ _ h => h ▸ subset_rfl⟩
  have hpanics : SfuShard.PollPanics Eq 7 1 80 0 1 twoPartyCall
      (twoPartyCall.pollCaught id (some 1) 80 7 1) := ⟨id, ⟨fun _ => rfl, by decide⟩, rfl⟩
  exact ⟨_, hpanics, (panic_isolated hmedia (SfuShard.reach_pieces
    (SfuShard.reachable_run _ _ twoParty))).2 7 1 80 0 1 _ hpanics (by decide)⟩

/-! ### A panic in the forwarding loop

Participant 1 publishes video, which participant 2 has open, and the transport of participant 1
delivers packets. -/

/-- A packet whenever there is nothing to announce. -/
def Scripted.deliver (rtc : Rtc) : Rtc × Except String Output :=
  if rtc.waiting = [] then (rtc, .ok (.event (.rtpPacket ⟨1, 96, 0, false, {}, 1, 0, []⟩)))
  else scripted.pollOutput rtc

/-- A transport that delivers packets of its first track. -/
def delivering : Str0m :=
  Scripted.scriptedWith Scripted.deliver (fun _ _ => some (0, none)) fun _ pt => some pt

theorem mediaAddedOnceDespite_delivering : Str0m.MediaAddedOnceDespite (S := delivering) Eq := by
  have hidle : ∀ rtc : Scripted.Rtc, rtc.waiting ≠ [] →
      Scripted.deliver rtc = scripted.pollOutput rtc := fun rtc hw => if_neg hw
  have hpacket : ∀ rtc : Scripted.Rtc, rtc.waiting = [] →
      Scripted.deliver rtc = (rtc, .ok (.event (.rtpPacket ⟨1, 96, 0, false, {}, 1, 0, []⟩))) :=
    fun rtc hw => if_pos hw
  refine ⟨Scripted.mediaRecord _ _ _ (fun rtc => ?_) fun {rtc rtc' mid kind} h => ?_,
    fun _ _ h => by rw [h]⟩
  · by_cases hw : rtc.waiting = []
    · rw [hpacket rtc hw]
    · rw [hidle rtc hw]
      exact Scripted.announced_le_pollOutput rtc
  · by_cases hw : rtc.waiting = []
    · rw [hpacket rtc hw] at h
      cases h
    · rw [hidle rtc hw] at h
      exact Scripted.announce_pollOutput h

/-- Participant 2 has the track of participant 1 open. -/
def watched : SfuShard delivering :=
  .run [(1, 2)] 12000
    [.command (.join 7 1 "alice" "v" 11) ⟨"ua", "pa"⟩ 0 1,
      .command (.join 7 2 "bob" "" 12) ⟨"ub", "pb"⟩ 0 0,
      .negotiate,
      .command (.answer 7 2 "accept") ⟨"", ""⟩ 40 0]

/-- It, after a poll of participant 1 in which `match_params` panics on the transport of
participant 2. -/
def unwatched : SfuShard delivering := watched.pollCaught id (some 4) 60 7 1

/-- Participant 2 has the track open, and is not on its list. -/
def unlisted (s : SfuSession delivering) : Bool :=
  (s.participants.lookup 2).any (fun p => p.tracksOut.any fun t =>
    t.origin = 1 && t.originMid = 0 && t.state = .opened 1000) &&
    !((s.targets (1, 0)).contains (2, 1000))

theorem not_forwardsExactly_of_unlisted {s : SfuSession delivering} (h : unlisted s = true) :
    ¬ s.ForwardsExactly := by
  intro hexact
  obtain ⟨hopen, hlist⟩ := Bool.and_eq_true_iff.mp h
  obtain ⟨p, hp, hany⟩ := (Option.any_eq_true _ _).mp hopen
  obtain ⟨t, ht, hopen⟩ := List.any_eq_true.mp hany
  obtain ⟨⟨horigin, hmid⟩, hstate⟩ : (t.origin = 1 ∧ t.originMid = 0) ∧ t.state = .opened 1000 := by
    simpa using hopen
  have hmem : (2, 1000) ∈ s.targets (1, 0) :=
    (hexact.1 1 0 2 1000).mpr ⟨p, hp, t, ht, horigin, hmid, hstate⟩
  rw [List.contains_iff_mem.mpr hmem] at hlist
  cases hlist

/-- **A panic in the forwarding loop loses the list**: the subscriber still has the track
open. -/
theorem targets_lost : Str0m.MediaAddedOnceDespite (S := delivering) Eq ∧
    ∃ st st', (SfuShard.system delivering).Reachable st ∧
      SfuShard.PollPanics Eq 7 1 60 0 4 st st' ∧
      ∃ s, st'.session? 7 = some s ∧ ¬ s.ForwardsExactly := by
  refine ⟨mediaAddedOnceDespite_delivering, watched, unwatched, SfuShard.reachable_run _ _ _,
    ⟨id, ⟨fun _ => rfl, by decide +kernel⟩, rfl⟩, ?_⟩
  obtain ⟨s, hs, hlost⟩ := (Option.any_eq_true _ _).mp
    (show (unwatched.session? 7).any unlisted = true from by decide +kernel)
  exact ⟨s, hs, not_forwardsExactly_of_unlisted hlost⟩

end Video

end MateHub
