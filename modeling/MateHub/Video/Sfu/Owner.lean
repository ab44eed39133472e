import MateHub.Video.Sfu.Effects

/-!
# Whose a participant is

A participant of a session belongs to the WebSocket that its Join came from. This
file follows that owner through the steps of the shard: a Join hands the participant
to a new one, a Leave and the zombie sweep take it away, and nothing else touches it.

A Leave names a session and a participant id and no WebSocket, so the shard takes the
participant out whoever sent it (`MateHub.Video.SfuShard.owner_leave`).
-/

namespace MateHub

namespace Video

namespace SfuShard

variable {S : Str0m} {st st' : SfuShard S} {sid : SessionId} {pid : ParticipantId}

/-- The WebSocket that the participant of an id belongs to. -/
def owner (st : SfuShard S) (sid : SessionId) (pid : ParticipantId) : Option WsTx :=
  (st.participant? sid pid).map SfuParticipant.wsTx

theorem owner_eq_of_sessions (h : st'.sessions = st.sessions) :
    st'.owner sid pid = st.owner sid pid := by
  rw [owner, owner, participant?, participant?, session?, session?, h]

theorem owner_eq_of_rel
    (h : Option.Rel SameOwner (st.participant? sid pid) (st'.participant? sid pid)) :
    st'.owner sid pid = st.owner sid pid := by
  rw [owner, owner]
  cases hp : st.participant? sid pid with
  | none =>
    rw [hp] at h
    rw [h.none_left]
  | some p =>
    rw [hp] at h
    obtain ⟨p', hp', ho⟩ := h.some_left
    rw [hp', Option.map_some, Option.map_some, ho.2]

/-- Moves without the departure or the admission of a participant keep its owner. -/
theorem Moves.owner {E : Effect → Prop} (h : Moves E st st') (hl : ¬ E (.left sid pid))
    (ha : ∀ tx, ¬ E (.admitted sid pid tx)) : st'.owner sid pid = st.owner sid pid := by
  refine h.invariant (I := fun s => s.owner sid pid = st.owner sid pid)
    (fun e s s' he hm hs => ?_) rfl
  rw [← hs]
  refine owner_eq_of_rel (hm.participant ?_ fun tx => ?_)
  · rintro rfl
    exact hl he
  · rintro rfl
    exact ha tx he

theorem Move.owner_left (h : Move (.left sid pid) st st') : st'.owner sid pid = none := by
  cases h
  rw [owner, participant?_leaveMove, if_pos rfl, if_pos rfl]
  rfl

/-- Moves without an admission leave a participant to its owner or take it away. -/
theorem Moves.owner_or_none {E : Effect → Prop} (h : Moves E st st')
    (ha : ∀ tx, ¬ E (.admitted sid pid tx)) :
    st'.owner sid pid = st.owner sid pid ∨ st'.owner sid pid = none := by
  refine h.invariant (I := fun s => s.owner sid pid = st.owner sid pid ∨ s.owner sid pid = none)
    (fun e s s' he hm hs => ?_) (.inl rfl)
  by_cases hl : e = .left sid pid
  · subst hl
    exact .inr hm.owner_left
  · have hkeep : s'.owner sid pid = s.owner sid pid := by
      refine owner_eq_of_rel (hm.participant hl fun tx => ?_)
      rintro rfl
      exact ha tx he
    rwa [hkeep]

/-! ### Commands -/

/-- What a command makes of the owner of a participant, as far as its sender can tell:
whether the transport will accept a Join is not known before. -/
def lifecycle (S : Str0m) (sid : SessionId) (pid : ParticipantId) (o : Option WsTx) :
    SfuCommand → Option WsTx
  | .join sid' pid' _ sdpOffer replyTx =>
    if sid' = sid ∧ pid' = pid then
      match S.readOffer sdpOffer with
      | .ok _ => some replyTx
      | .error _ => none
    else o
  | .leave sid' pid' => if sid' = sid ∧ pid' = pid then none else o
  | _ => o

/-- The effects of polling. -/
def Polls : Effect → Prop
  | .framed => True
  | .announced _ _ => True
  | _ => False

theorem owner_pollTarget (now : Instant) (fuel : ℕ) (st : SfuShard S)
    (target : Option PollTarget) : (pollTarget now fuel st target).owner sid pid =
      st.owner sid pid :=
  ((moves_polls (E := Polls) trivial fun _ _ => trivial).pollTarget now fuel st target).owner id
    fun _ => id

theorem owner_leave (st : SfuShard S) (creds : IceCreds) (now : Instant) (fuel : ℕ) :
    (st.next (.command (.leave sid pid) creds now fuel)).owner sid pid = none := by
  refine (owner_pollTarget now fuel _ _).trans ?_
  rw [owner, show (st.handleCommand creds now (.leave sid pid)).1.participant? sid pid = none from
    participant?_handleLeave st sid pid]
  rfl

/-- After a Join the participant belongs to the WebSocket it came from, or there is
none. -/
theorem owner_join (st : SfuShard S) (creds : IceCreds) (now : Instant) (fuel : ℕ)
    (userId sdpOffer : String) (replyTx : WsTx) (o : Option WsTx) :
    let o' := (st.next (.command (.join sid pid userId sdpOffer replyTx) creds now fuel)).owner
      sid pid
    o' = lifecycle S sid pid o (.join sid pid userId sdpOffer replyTx) ∨ o' = none := by
  have hnone : (st.kickPrior sid pid).owner sid pid = none := by
    rw [owner, participant?_kickPrior]
    rfl
  have hpoll : (st.next (.command (.join sid pid userId sdpOffer replyTx) creds now fuel)).owner
      sid pid = (st.handleJoin creds now sid pid userId sdpOffer replyTx).1.owner sid pid :=
    owner_pollTarget now fuel _ _
  dsimp only
  rw [hpoll]
  unfold handleJoin
  generalize st.kickPrior sid pid = st₁ at hnone ⊢
  dsimp only
  split
  · exact .inr hnone
  · rename_i offer hoffer
    split
    · exact .inr hnone
    · left
      rw [owner, participant?_addParticipant, if_pos ⟨rfl, rfl⟩, lifecycle, if_pos ⟨rfl, rfl⟩,
        hoffer]
      rfl

/-- **A command does to the owner what was foreseen, or takes the participant away.** -/
theorem owner_command (st : SfuShard S) (cmd : SfuCommand) (creds : IceCreds) (now : Instant)
    (fuel : ℕ) :
    let o' := (st.next (.command cmd creds now fuel)).owner sid pid
    o' = lifecycle S sid pid (st.owner sid pid) cmd ∨ o' = none := by
  have hmoves := moves_of_step (.next st (.command cmd creds now fuel))
  cases cmd with
  | join sid' pid' userId sdpOffer replyTx =>
    by_cases h : sid' = sid ∧ pid' = pid
    · obtain ⟨rfl, rfl⟩ := h
      exact owner_join st creds now fuel userId sdpOffer replyTx _
    · left
      rw [lifecycle, if_neg h]
      exact hmoves.owner h fun tx ha => h ⟨ha.1, ha.2.1⟩
  | leave sid' pid' =>
    by_cases h : sid' = sid ∧ pid' = pid
    · obtain ⟨rfl, rfl⟩ := h
      exact .inr (owner_leave st creds now fuel)
    · left
      rw [lifecycle, if_neg h]
      exact hmoves.owner h fun _ => id
  | answer sid' pid' sdpAnswer => exact .inl (hmoves.owner id fun _ => id)
  | iceCandidate sid' pid' candidate sdpMid => exact .inl (hmoves.owner id fun _ => id)
  | publishTrack sid' pid' source kind => exact .inl (hmoves.owner id fun _ => id)
  | clientOffer sid' pid' sdpOffer => exact .inl (hmoves.owner id fun _ => id)
  | udpInput sid' pid' source data => exact .inl (hmoves.owner id fun _ => id)

/-! ### Ticks -/

/-- Every participant carries the id it is stored under. -/
def Ids (st : SfuShard S) : Prop :=
  ∀ sid pid p, st.participant? sid pid = some p → p.id = pid

theorem Ids.move {e : Effect} (h : st.Ids) (hm : Move e st st') : st'.Ids := by
  intro sid pid p' hp'
  by_cases hl : e = .left sid pid
  · subst hl
    have hnone := hm.owner_left
    rw [owner, hp'] at hnone
    cases hnone
  · by_cases ha : ∃ tx, e = .admitted sid pid tx
    · obtain ⟨tx, rfl⟩ := ha
      cases hm
      rw [participant?_addParticipant, if_pos ⟨rfl, rfl⟩] at hp'
      obtain rfl := Option.some.inj hp'
      rfl
    · have hrel := hm.participant hl fun tx heq => ha ⟨tx, heq⟩
      rw [hp'] at hrel
      obtain ⟨p, hp, ho⟩ := hrel.some_right
      exact ho.1.trans (h sid pid p hp)

theorem Ids.moves (h : st.Ids) {E : Effect → Prop} (hm : Moves E st st') : st'.Ids :=
  hm.invariant (fun _ _ _ _ hm h => h.move hm) h

theorem Ids.step {i : Input} (h : st.Ids) (hstep : Step st i st') : st'.Ids :=
  h.moves (moves_of_step hstep)

theorem ids_new (shardIndex : ℕ) (candidateAddrs : List SocketAddr) (zombieTimeout : Duration) :
    (new (S := S) shardIndex candidateAddrs zombieTimeout).Ids := fun _ _ _ hp => by cases hp

/-- The sweep of a tick takes zombies only. -/
theorem isZombie_of_mem_zombies (h : st.Ids) {now : Instant}
    (hmem : (sid, pid) ∈ (st.timeouts now).zombies now) :
    ∃ p, st.participant? sid pid = some p ∧ isZombie st.zombieTimeout now p = true := by
  obtain ⟨⟨sid', s'⟩, hs', hmem⟩ := List.mem_flatMap.mp hmem
  obtain ⟨p', hp', heq⟩ := List.mem_map.mp hmem
  obtain ⟨rfl, rfl⟩ : sid' = sid ∧ p'.id = pid := by simpa using heq
  obtain ⟨hp', hz⟩ := List.mem_filter.mp hp'
  obtain ⟨pid, hpid⟩ := Dict.mem_values.mp hp'
  have hs' : (st.timeouts now).sessions.lookup sid' = some s' := Dict.mem_pairs.mp hs'
  rw [show (st.timeouts now).sessions = Dict.mapVals (fun _ s => handleTimeouts
    s.recomputeTopAudio now) st.sessions from rfl, Dict.lookup_mapVals, Option.map_eq_some_iff]
    at hs'
  obtain ⟨s, hs, rfl⟩ := hs'
  rw [show (handleTimeouts s.recomputeTopAudio now).participants = Dict.mapVals (fun _ p =>
    { p with rtc := S.handleTimeout p.rtc now }) s.participants from rfl, Dict.lookup_mapVals,
    Option.map_eq_some_iff] at hpid
  obtain ⟨p, hp, rfl⟩ := hpid
  have hpart : st.participant? sid' pid = some p := participant?_eq_some.mpr ⟨s, hs, hp⟩
  obtain rfl : p.id = pid := h sid' pid p hpart
  exact ⟨p, hpart, hz⟩

end SfuShard

end Video

end MateHub
