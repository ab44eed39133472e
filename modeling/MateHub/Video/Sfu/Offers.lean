import MateHub.Video.Scripted
import MateHub.Video.Sfu.Signals

/-!
# Whether an offer that is pending was sent

A participant with a pending offer gets no other one until the answer is in. The shard
stores the pending offer and hands the message to the WebSocket with `try_send`, which drops
it when the outbox is full or closed; what was stored stays. So an offer that is pending has
been placed in the outbox if no offer is made for an outbox without room
(`MateHub.Video.offer_placed`).
-/

namespace MateHub

namespace Video

/-! ### Room in an outbox -/

/-- There is room for one more message. -/
def Outbox.HasRoom (o : Outbox) : Prop := o.closed = false ∧ o.queue.length < wsTxBuffer

instance (o : Outbox) : Decidable o.HasRoom :=
  inferInstanceAs (Decidable (o.closed = false ∧ o.queue.length < wsTxBuffer))

theorem Outbox.queue_trySend {o : Outbox} (h : o.HasRoom) (msg : ServerMessage) :
    (o.trySend msg).queue = o.queue ++ [msg] := by
  have hroom : ¬ (o.closed || decide (wsTxBuffer ≤ o.queue.length)) = true := by
    simp only [h.1, Bool.false_or, decide_eq_true_eq, Nat.not_le]
    exact h.2
  rw [trySend, if_neg hroom]

namespace SfuShard

variable {S : Str0m} {st st' st'' : SfuShard S}

/-! ### Moves that make no offer -/

/-- Whether an effect is an offer. -/
def Silent : Effect → Prop
  | .deactivated _ _ => False
  | .offered _ _ => False
  | _ => True

/-- The offer of a participant was pending before. -/
def WasPending (st st' : SfuShard S) : Prop :=
  ∀ sid pid p' pending, st'.participant? sid pid = some p' → p'.pendingOffer = some pending →
    ∃ p, st.participant? sid pid = some p ∧ p.wsTx = p'.wsTx ∧ p.pendingOffer = some pending

theorem WasPending.refl (st : SfuShard S) : st.WasPending st :=
  fun _ _ p' _ hp hpend => ⟨p', hp, rfl, hpend⟩

theorem WasPending.trans (h : st.WasPending st') (h' : st'.WasPending st'') :
    st.WasPending st'' := by
  intro sid pid p'' pending hp'' hpend
  obtain ⟨p', hp', htx', hpend'⟩ := h' sid pid p'' pending hp'' hpend
  obtain ⟨p, hp, htx, hpend⟩ := h sid pid p' pending hp' hpend'
  exact ⟨p, hp, htx.trans htx', hpend⟩

theorem WasPending.of_rel
    (h : ∀ sid pid, Option.Rel SameOffer (st.participant? sid pid) (st'.participant? sid pid)) :
    st.WasPending st' := by
  intro sid pid p' pending hp' hpend
  have hrel := h sid pid
  rw [hp'] at hrel
  obtain ⟨p, hp, hsame⟩ := hrel.some_right
  exact ⟨p, hp, hsame.owner.2.symm, hsame.pendingOffer ▸ hpend⟩

/-- A participant is written back, without an offer that was not pending. -/
theorem WasPending.setParticipant {sid : SessionId} {pid : ParticipantId} {p p' : SfuParticipant S}
    (hp : st.participant? sid pid = some p) (htx : p'.wsTx = p.wsTx)
    (hpend : p'.pendingOffer = p.pendingOffer ∨ p'.pendingOffer = none) :
    st.WasPending (st.setParticipant sid pid p') := by
  intro sid' pid' q pending hq hqpend
  rw [participant?_setParticipant hp] at hq
  by_cases heq : sid' = sid ∧ pid' = pid
  · obtain ⟨rfl, rfl⟩ := heq
    rw [if_pos ⟨rfl, rfl⟩] at hq
    obtain rfl := Option.some.inj hq
    rcases hpend with hpend | hpend
    · exact ⟨p, hp, htx.symm, hpend ▸ hqpend⟩
    · rw [hpend] at hqpend
      cases hqpend
  · rw [if_neg heq] at hq
    exact ⟨q, hq, rfl, hqpend⟩

theorem Move.wasPending {e : Effect} (h : Move e st st') (he : Silent e) : st.WasPending st' := by
  cases h with
  | framed hf =>
    exact .of_rel fun sid pid =>
      (hf.participant sid pid).imp fun hpf => ⟨⟨hpf.id, hpf.wsTx⟩, hpf.pendingOffer⟩
  | @announced _ sid pid p rtc mid kind hp _ =>
    have hpolled : st.WasPending (st.setParticipant sid pid { p with rtc := rtc }) :=
      .setParticipant hp rfl (.inl rfl)
    exact hpolled.trans (.of_rel fun sid' pid' =>
      participant?_mediaAdded _ sid pid mid kind sid' pid')
  | left _ sid pid =>
    intro sid' pid' p' pending hp' hpend
    rw [participant?_leaveMove] at hp'
    split at hp'
    · split at hp'
      · cases hp'
      · obtain ⟨p, hp, rfl⟩ := Option.map_eq_some_iff.mp hp'
        exact ⟨p, hp, rfl, hpend⟩
    · exact ⟨p', hp', rfl, hpend⟩
  | deactivated => exact absurd he id
  | @closed _ sid s hs hempty =>
    intro sid' pid' p' pending hp' hpend
    rw [participant?, session?, Dict.lookup_erase_eq] at hp'
    split at hp'
    · cases hp'
    · exact ⟨p', hp', rfl, hpend⟩
  | admitted =>
    intro sid' pid' p' pending hp' hpend
    rw [participant?_addParticipant] at hp'
    split at hp'
    · obtain rfl := Option.some.inj hp'
      cases hpend
    · exact ⟨p', hp', rfl, hpend⟩
  | @opened _ sid pid s p _ _ rtc hs hp _ _ =>
    intro sid' pid' p' pending hp' hpend
    rw [participant?_setSession] at hp'
    by_cases hsid : sid' = sid
    · rw [if_pos hsid, lookup_registerTracks] at hp'
      split at hp'
      · obtain rfl := Option.some.inj hp'
        cases hpend
      · exact ⟨p', participant?_eq_some.mpr ⟨s, hsid ▸ hs, hp'⟩, rfl, hpend⟩
    · rw [if_neg hsid] at hp'
      exact ⟨p', hp', rfl, hpend⟩
  | refused hp _ _ => exact .setParticipant hp rfl (.inr rfl)
  | taken => exact .refl st
  | offered => exact absurd he id
  | unsent hp _ _ _ => exact .setParticipant hp rfl (.inl rfl)

theorem Moves.wasPending (h : Moves Silent st st') : st.WasPending st' :=
  h.invariant (fun _ _ _ he hm hs => hs.trans (hm.wasPending he)) (.refl st)

/-! ### Offers are placed -/

/-- **An offer message carries a pending offer**: the two are made of one change. -/
def Carries (msg : ServerMessage) (pending : S.SdpPendingOffer) : Prop :=
  ∃ api rtc offer tracks, S.apply api = (rtc, some (offer, pending)) ∧
    msg = .offer (S.offerText offer) tracks

/-- What has been placed in an outbox from one state to another. -/
def placed (st st' : SfuShard S) (tx : WsTx) : List ServerMessage :=
  (st'.ws tx).queue.drop (st.ws tx).queue.length

/-- An offer that is pending was pending before, or has been placed in the outbox. -/
def Posts (st st' : SfuShard S) : Prop :=
  ∀ sid pid p' pending, st'.participant? sid pid = some p' → p'.pendingOffer = some pending →
    (∃ p, st.participant? sid pid = some p ∧ p.wsTx = p'.wsTx ∧ p.pendingOffer = some pending) ∨
      ∃ msg ∈ st.placed st' p'.wsTx, Carries msg pending

theorem WasPending.posts (h : st.WasPending st') : st.Posts st' :=
  fun sid pid p' pending hp' hpend => .inl (h sid pid p' pending hp' hpend)

theorem Posts.trans (h : st.Posts st') (h' : st'.Posts st'') (hg : st.Signals st')
    (hg' : st'.Signals st'') : st.Posts st'' := by
  intro sid pid p'' pending hp'' hpend
  rcases h' sid pid p'' pending hp'' hpend with ⟨p', hp', htx, hpend'⟩ | ⟨msg, hmem, hmsg⟩
  · rcases h sid pid p' pending hp' hpend' with ⟨p, hp, htx', hpend⟩ | ⟨msg, hmem, hmsg⟩
    · exact .inl ⟨p, hp, htx'.trans htx, hpend⟩
    · rw [htx] at hmem
      exact .inr ⟨msg, ((hg'.grows p''.wsTx).drop _).subset hmem, hmsg⟩
  · exact .inr ⟨msg, List.drop_subset_drop_left _ (hg.grows p''.wsTx).length_le hmem, hmsg⟩

/-- A loop whose turns are all accepted. -/
theorem Posts.foldl {α : Type*} {f : SfuShard S → α → SfuShard S} {ok : SfuShard S → α → Prop}
    (hg : ∀ st a, Signals st (f st a)) (h : ∀ st a, ok st a → Posts st (f st a)) (l : List α)
    (st : SfuShard S) (hok : System.Accepted ok f st l) : st.Posts (l.foldl f st) := by
  induction l generalizing st with
  | nil => exact (WasPending.refl st).posts
  | cons a l ih =>
    exact (h st a hok.1).trans (ih (f st a) hok.2) (hg st a) (Signals.foldl hg l (f st a))

/-- **An offer** is stored and sent. -/
theorem posts_offer {sid : SessionId} {pid : ParticipantId} {p p' : SfuParticipant S}
    {api : S.SdpApi} {rtc : S.Rtc} {offer : S.SdpOffer} {pending : S.SdpPendingOffer}
    (hp : st.participant? sid pid = some p) (htx : p'.wsTx = p.wsTx)
    (hpend : p'.pendingOffer = some pending) (happly : S.apply api = (rtc, some (offer, pending)))
    (hroom : (st.ws p.wsTx).HasRoom) (tracks : Option (List TrackMapping)) :
    st.Posts ((st.setParticipant sid pid p').wsTrySend p.wsTx
      (.offer (S.offerText offer) tracks)) := by
  intro sid' pid' q pending' hq hqpend
  have hq : (st.setParticipant sid pid p').participant? sid' pid' = some q := hq
  rw [participant?_setParticipant hp] at hq
  by_cases heq : sid' = sid ∧ pid' = pid
  · -- the participant that the offer is for
    rw [if_pos heq] at hq
    obtain rfl := Option.some.inj hq
    obtain rfl := Option.some.inj (hpend.symm.trans hqpend)
    refine .inr ⟨.offer (S.offerText offer) tracks, ?_, api, rtc, offer, tracks, happly, rfl⟩
    have hqueue : (st.ws p.wsTx).queue ++ [.offer (S.offerText offer) tracks] =
        (((st.setParticipant sid pid p').wsTrySend p.wsTx
          (.offer (S.offerText offer) tracks)).ws p.wsTx).queue := by
      rw [outbox_wsTrySend, if_pos rfl]
      exact (Outbox.queue_trySend hroom _).symm
    rw [htx, placed, ← hqueue, List.drop_left]
    exact List.mem_singleton_self _
  · rw [if_neg heq] at hq
    exact .inl ⟨q, hq, rfl, hqpend⟩

/-- The change that sets transceivers inactive. -/
def deactivation (p : SfuParticipant S) (mids : List Mid) : S.SdpApi :=
  mids.foldl (fun c mid => S.setDirection c mid .inactive) (S.sdpApi p.rtc)

/-- If a turn of the loop that sets dead transceivers inactive makes an offer, there is room
for it. -/
def RoomToDeactivate (sid : SessionId) (st : SfuShard S) (entry : ParticipantId × List Mid) :
    Prop :=
  ∀ p ∈ st.participant? sid entry.1, p.pendingOffer.isNone →
    S.hasChanges (deactivation p entry.2) → (S.apply (deactivation p entry.2)).2.isSome →
    (st.ws p.wsTx).HasRoom

/-- If a turn of the loop of `negotiate_pending_tracks` makes an offer, there is room for
it. -/
def RoomToNegotiate (st : SfuShard S) (e : SessionId × ParticipantId) : Prop :=
  ∀ p ∈ st.participant? e.1 e.2, p.pendingOffer.isNone → hasToOpen p →
    (S.apply (stageTracks (S.sdpApi p.rtc) p.tracksOut).1).2.isSome → (st.ws p.wsTx).HasRoom

instance (st : SfuShard S) (e : SessionId × ParticipantId) : Decidable (st.RoomToNegotiate e) :=
  inferInstanceAs (Decidable (∀ p ∈ st.participant? e.1 e.2, p.pendingOffer.isNone → hasToOpen p →
    (S.apply (stageTracks (S.sdpApi p.rtc) p.tracksOut).1).2.isSome → (st.ws p.wsTx).HasRoom))

/-- There is room for all offers of a leave. -/
def RoomToLeave (st : SfuShard S) (sid : SessionId) (pid : ParticipantId) : Prop :=
  ∀ s ∈ st.session? sid, System.Accepted (RoomToDeactivate sid) (deactivate sid)
    (st.leaveStart sid pid s)
    (midsToDeactivate { s with participants := s.participants.erase pid } pid)

/-- **There is room for every offer** that a step makes. -/
def Room (st : SfuShard S) : Input → Prop
  | .command (.leave sid pid) _ _ _ => st.RoomToLeave sid pid
  | .command (.join sid pid _ _ _) _ _ _ => ∀ p ∈ st.participant? sid pid,
      (st.wsTrySend p.wsTx (.forceDisconnected "joined_elsewhere")).RoomToLeave sid pid
  | .tick now _ => System.Accepted (fun st e => RoomToLeave st e.1 e.2)
      (fun st e => (st.handleLeave e.1 e.2).1) (st.timeouts now) ((st.timeouts now).zombies now)
  | .negotiate => System.Accepted RoomToNegotiate negotiateOne { st with pendingNegotiation := ∅ }
      st.pendingNegotiation.keys
  | _ => True

theorem posts_deactivate {sid : SessionId} {entry : ParticipantId × List Mid}
    (hroom : st.RoomToDeactivate sid entry) : st.Posts (deactivate sid st entry) := by
  refine deactivate_cases (WasPending.refl st).posts
    (fun hp => WasPending.posts (.setParticipant hp (by rfl) (by exact .inl rfl)))
    (fun hp _ => WasPending.posts (.setParticipant hp (by rfl) (by exact .inl rfl)))
    fun hp hpend hchanges happly => ?_
  refine posts_offer hp (by rfl) (by rfl) happly (hroom _ hp (by rw [hpend]; rfl) hchanges ?_) _
  rw [deactivation, happly]
  rfl

theorem posts_negotiateOne {e : SessionId × ParticipantId} (hroom : st.RoomToNegotiate e) :
    st.Posts (negotiateOne st e) := by
  refine negotiateOne_cases (WasPending.refl st).posts
    (fun _ => WasPending.posts fun _ _ p' _ hp' hpend => ⟨p', hp', rfl, hpend⟩)
    (fun hp => WasPending.posts (.setParticipant hp (by rfl) (by exact .inl rfl)))
    (fun hp _ _ _ => WasPending.posts (.setParticipant hp (by rfl) (by exact .inl rfl)))
    fun hp hpend hopen happly => ?_
  refine posts_offer hp (by rfl) (by rfl) happly (hroom _ hp (by rw [hpend]; rfl) hopen ?_) _
  rw [happly]
  rfl

/-! ### Steps -/

theorem posts_handleLeave {sid : SessionId} {pid : ParticipantId}
    (hroom : st.RoomToLeave sid pid) : st.Posts (st.handleLeave sid pid).1 := by
  rcases handleLeave_cases st sid pid with ⟨-, heq⟩ | ⟨s, st₁, hs, hst₁, hend⟩
  · refine WasPending.posts fun sid' pid' p' pending hp' hpend => ⟨p', ?_, rfl, hpend⟩
    rw [heq] at hp'
    exact hp'
  · have hstart : Moves Silent st (st.leaveStart sid pid s) :=
      (Moves.one trivial (.left st sid pid)).trans (.frame trivial (frame_leaveStart hs pid))
    have hsignals : (st.leaveStart sid pid s).Signals st₁ := by
      rw [hst₁]
      exact (stays_deactivates sid _ _).signals
    have hposts : (st.leaveStart sid pid s).Posts st₁ := by
      rw [hst₁]
      exact Posts.foldl (fun st e => (stays_deactivate sid st e).signals)
        (fun _ _ => posts_deactivate) _ _ (hroom s hs)
    have hloop : st.Posts st₁ := hstart.wasPending.posts.trans hposts (.of_eq rfl) hsignals
    rcases hend with ⟨s₁, hs₁, hempty, heq⟩ | ⟨heq, -⟩
    · have hclosed : Moves Silent st₁ (st.handleLeave sid pid).1 := by
        rw [heq]
        exact (Moves.one trivial (.closed hs₁ hempty)).trans
          (.frame trivial (.of_eq rfl fun _ he => he))
      exact hloop.trans hclosed.wasPending.posts ((Signals.of_eq rfl).trans hsignals)
        (.of_eq (by rw [heq]))
    · exact heq ▸ hloop

theorem posts_handleJoin {sid : SessionId} {pid : ParticipantId} (creds : IceCreds) (now : Instant)
    (userId sdpOffer : String) (replyTx : WsTx)
    (hroom : ∀ p ∈ st.participant? sid pid,
      (st.wsTrySend p.wsTx (.forceDisconnected "joined_elsewhere")).RoomToLeave sid pid) :
    st.Posts (st.handleJoin creds now sid pid userId sdpOffer replyTx).1 := by
  have hkick : st.Posts (st.kickPrior sid pid) := by
    unfold kickPrior
    split
    · exact (WasPending.refl st).posts
    · rename_i p hp
      have hnotice : st.Posts (st.wsTrySend p.wsTx (.forceDisconnected "joined_elsewhere")) :=
        WasPending.posts fun _ _ p' _ hp' hpend => ⟨p', hp', rfl, hpend⟩
      exact hnotice.trans (posts_handleLeave (hroom p hp)) (signals_wsTrySend rfl _ _)
        (signals_handleLeave _ sid pid)
  have hsignals := signals_kickPrior st sid pid
  have hnone := participant?_kickPrior st sid pid
  unfold handleJoin
  generalize st.kickPrior sid pid = st₁ at hkick hsignals hnone ⊢
  have hreply {msg : ServerMessage} (hmsg : msg.ofSfu = true) :
      st.Posts (st₁.wsTrySend replyTx msg) :=
    hkick.trans (WasPending.posts fun _ _ p' _ hp' hpend => ⟨p', hp', rfl, hpend⟩) hsignals
      (signals_wsTrySend hmsg _ _)
  dsimp only
  split
  · exact hreply rfl
  · split
    · exact hreply rfl
    · rename_i rtc answer _
      have hadmitted := Move.wasPending (.admitted userId replyTx rtc answer creds now hnone) trivial
      refine hkick.trans hadmitted.posts hsignals ?_
      unfold addParticipant
      dsimp only
      split <;> exact (Signals.of_eq rfl).trans (signals_wsTrySend rfl _ _)

/-- A command, when there is room for its offers. -/
theorem posts_handleCommand {creds : IceCreds} {now : Instant} {cmd : SfuCommand} {fuel : ℕ}
    (hroom : st.Room (.command cmd creds now fuel)) :
    st.Posts (st.handleCommand creds now cmd).1 := by
  have hsilent (h : Moves Silent st (st.handleCommand creds now cmd).1) :
      st.Posts (st.handleCommand creds now cmd).1 := h.wasPending.posts
  cases cmd with
  | join sid pid userId sdpOffer replyTx =>
    exact posts_handleJoin creds now userId sdpOffer replyTx hroom
  | leave sid pid => exact posts_handleLeave hroom
  | answer sid pid sdpAnswer =>
    exact hsilent (moves_handleAnswer trivial trivial st now sdpAnswer
      fun _ _ _ _ _ _ _ _ _ => trivial)
  | clientOffer sid pid sdpOffer =>
    exact hsilent (.frame trivial (frame_handleClientOffer st sid pid sdpOffer))
  | iceCandidate sid pid candidate sdpMid =>
    exact hsilent (.frame trivial (frame_handleIceCandidate st sid pid candidate))
  | publishTrack sid pid source kind =>
    exact hsilent (.frame trivial (frame_handlePublishTrack st sid pid source kind))
  | udpInput sid pid source data =>
    exact hsilent (.frame trivial (frame_handleUdpInput st now sid pid source data))

theorem posts_leaves (l : List (SessionId × ParticipantId)) (st : SfuShard S)
    (hroom : System.Accepted (fun st e => RoomToLeave st e.1 e.2)
      (fun st e => (st.handleLeave e.1 e.2).1) st l) :
    st.Posts (l.foldl (fun st e => (st.handleLeave e.1 e.2).1) st) := by
  induction l generalizing st with
  | nil => exact (WasPending.refl st).posts
  | cons e l ih =>
    exact (posts_handleLeave hroom.1).trans (ih _ hroom.2) (signals_handleLeave st e.1 e.2)
      (signals_leaves l _)

theorem posts_tick {now : Instant} {fuel : ℕ} (hroom : st.Room (.tick now fuel)) :
    st.Posts (st.tick now) := by
  have hstart : Moves Silent st (st.timeouts now) := .frame trivial (frame_timeouts st now)
  have hroom : System.Accepted (fun st e => RoomToLeave st e.1 e.2)
      (fun st e => (st.handleLeave e.1 e.2).1) (st.timeouts now)
      ((st.timeouts now).zombies now) := hroom
  rw [tick]
  exact hstart.wasPending.posts.trans (posts_leaves _ _ hroom) (.of_eq rfl) (signals_leaves _ _)

/-- **A step** in which there is room for every offer: an offer that is pending after it was
pending before, or has been placed in the outbox. -/
theorem posts_step {i : Input} (hstep : Step st i st') (hroom : st.Room i) : st.Posts st' := by
  cases hstep with
  | rehash hr =>
    have hframe : Moves Silent st st' := .frame trivial (.rehashed hr)
    exact hframe.wasPending.posts
  | next =>
    cases i with
    | command cmd creds now fuel =>
      have hposts := posts_handleCommand hroom
      have hsignals := signals_handleCommand st creds now cmd
      have hpoll := (moves_polls (E := Silent) trivial fun _ _ => trivial).pollTarget now fuel
        (st.handleCommand creds now cmd).1 (st.handleCommand creds now cmd).2
      exact hposts.trans hpoll.wasPending.posts hsignals (stays_polls.pollTarget now fuel _ _).signals
    | tick now fuel =>
      have hposts := posts_tick hroom
      have hpoll := (moves_polls (E := Silent) trivial fun _ _ => trivial).pollAll now fuel
        (st.tick now)
      exact hposts.trans hpoll.wasPending.posts (signals_tick st now)
        (stays_polls.pollAll now fuel _).signals
    | flush now pollFuel fuel =>
      have hmoves := (moves_polls (E := Silent) trivial fun _ _ => trivial).flushPendingWrites now
        pollFuel fuel st
      exact hmoves.wasPending.posts
    | negotiate =>
      have htaken : Moves Silent st { st with pendingNegotiation := ∅ } :=
        .one (e := .taken) trivial (.taken st)
      exact htaken.wasPending.posts.trans
        (Posts.foldl (fun st e => (stays_negotiateOne st e).signals) (fun _ _ => posts_negotiateOne) _ _ hroom) (.of_eq rfl)
        (Signals.foldl (fun st e => (stays_negotiateOne st e).signals) _ _)
    | drain tx n => exact WasPending.posts fun _ _ p' _ hp' hpend => ⟨p', hp', rfl, hpend⟩
    | close tx => exact WasPending.posts fun _ _ p' _ hp' hpend => ⟨p', hp', rfl, hpend⟩
    | rehash => exact (WasPending.refl st).posts

end SfuShard

/-! ### Runs -/

/-- A shard, with all that has ever been placed in each outbox. -/
structure Posting (S : Str0m) where
  shard : SfuShard S
  placed : WsTx → List ServerMessage

/-- The steps of the shard, with what they place. -/
def posting (S : Str0m) : System (Posting S) SfuShard.Input where
  init s := (SfuShard.system S).init s.shard ∧ ∀ tx, s.placed tx = []
  step s i t := SfuShard.Step s.shard i t.shard ∧
    ∀ tx, t.placed tx = s.placed tx ++ s.shard.placed t.shard tx

variable {S : Str0m}

/-- **An offer that is pending has been sent**, in a run in which there is room for every
offer. -/
theorem offer_placed {s : Posting S} (hs : (posting S).Reach (fun s i => s.shard.Room i) s)
    {sid : SessionId} {pid : ParticipantId} {p : SfuParticipant S} {pending : S.SdpPendingOffer}
    (hp : s.shard.participant? sid pid = some p) (hpend : p.pendingOffer = some pending) :
    ∃ msg ∈ s.placed p.wsTx, SfuShard.Carries msg pending := by
  refine hs.invariant (I := fun s => ∀ sid pid p pending, s.shard.participant? sid pid = some p →
    p.pendingOffer = some pending → ∃ msg ∈ s.placed p.wsTx, SfuShard.Carries msg pending)
    ?_ ?_ sid pid p pending hp hpend
  · rintro s ⟨⟨_, _, _, hnew⟩, -⟩ sid pid p pending hp -
    rw [hnew] at hp
    cases hp
  · rintro s i t hinv hroom ⟨hstep, hplaced⟩ sid pid p' pending hp' hpend
    rw [hplaced]
    rcases SfuShard.posts_step hstep hroom sid pid p' pending hp' hpend with
      ⟨p, hp, htx, hpend⟩ | ⟨msg, hmem, hmsg⟩
    · obtain ⟨msg, hmem, hmsg⟩ := hinv sid pid p pending hp hpend
      rw [htx] at hmem
      exact ⟨msg, List.mem_append_left _ hmem, hmsg⟩
    · exact ⟨msg, List.mem_append_right _ hmem, hmsg⟩

namespace Posting

/-- The state after a step that the shard computes. -/
def next (s : Posting S) (i : SfuShard.Input) : Posting S where
  shard := s.shard.next i
  placed := fun tx => s.placed tx ++ s.shard.placed (s.shard.next i) tx

theorem step_next (s : Posting S) (i : SfuShard.Input) : (posting S).step s i (s.next i) :=
  ⟨.next s.shard i, fun _ => rfl⟩

/-- No session, and nothing sent. -/
def fresh : Posting scripted := ⟨.new 0 [(1, 2)] 12000, fun _ => []⟩

theorem init_fresh : (posting scripted).init fresh := ⟨⟨0, [(1, 2)], 12000, rfl⟩, fun _ => rfl⟩

/-- Participant 1 joins, something happens, and participant 2 joins with a microphone, which
participant 1 is to be offered. -/
def call (between : List SfuShard.Input) : List SfuShard.Input :=
  .command (.join 7 1 "alice" "" 11) ⟨"ua", "pa"⟩ 0 9 ::
    (between ++ [.command (.join 7 2 "bob" "a" 12) ⟨"ub", "pb"⟩ 0 9, .negotiate])

/-- Whether a message is an offer. -/
def isOffer : ServerMessage → Bool
  | .offer _ _ => true
  | _ => false

theorem isOffer_of_carries {msg : ServerMessage} {pending : S.SdpPendingOffer}
    (h : SfuShard.Carries msg pending) : isOffer msg = true := by
  obtain ⟨_, _, _, _, _, rfl⟩ := h
  rfl

/-- An offer of participant 1 is pending, and was not sent. -/
def lost (s : Posting scripted) : Bool :=
  match s.shard.participant? 7 1 with
  | none => false
  | some p => p.pendingOffer.isSome && (s.placed p.wsTx).all fun msg => !isOffer msg

theorem not_placed_of_lost {s : Posting scripted} (h : lost s = true) :
    ∃ p pending, s.shard.participant? 7 1 = some p ∧ p.pendingOffer = some pending ∧
      ¬ ∃ msg ∈ s.placed p.wsTx, SfuShard.Carries msg pending := by
  unfold lost at h
  split at h
  · cases h
  · rename_i p hp
    obtain ⟨hpend, hall⟩ := Bool.and_eq_true_iff.mp h
    obtain ⟨pending, hpend⟩ := Option.isSome_iff_exists.mp hpend
    refine ⟨p, pending, hp, hpend, ?_⟩
    rintro ⟨msg, hmem, hmsg⟩
    have hno := List.all_eq_true.mp hall msg hmem
    rw [isOffer_of_carries hmsg] at hno
    cases hno

/-- The call in which nothing happens to the outboxes. -/
def roomy : Posting scripted := (call []).foldl next fresh

/-- It, before the offer is made. -/
def joined : Posting scripted :=
  (fresh.next (.command (.join 7 1 "alice" "" 11) ⟨"ua", "pa"⟩ 0 9)).next
    (.command (.join 7 2 "bob" "a" 12) ⟨"ub", "pb"⟩ 0 9)

theorem reach_roomy : (posting scripted).Reach (fun s i => s.shard.Room i) roomy := by
  refine System.Reach.foldl step_next (.start init_fresh) ⟨?_, ?_, ?_, trivial⟩
  · intro p hp
    cases hp
  · have hnone : SfuShard.participant? (fresh.next
        (.command (.join 7 1 "alice" "" 11) ⟨"ua", "pa"⟩ 0 9)).shard 7 2 = none := by decide
    intro p hp
    rw [hnone] at hp
    cases hp
  · have hroom : System.Accepted SfuShard.RoomToNegotiate SfuShard.negotiateOne
        { joined.shard with pendingNegotiation := ∅ } joined.shard.pendingNegotiation.keys := by
      decide
    exact hroom

end Posting

theorem offer_placed_roomy : ∃ p pending, Posting.roomy.shard.participant? 7 1 = some p ∧
    p.pendingOffer = some pending ∧
    ∃ msg ∈ Posting.roomy.placed p.wsTx, SfuShard.Carries msg pending := by
  have hp := Option.some_get (show (Posting.roomy.shard.participant? 7 1).isSome from by decide)
  have hpend := Option.some_get (show ((Posting.roomy.shard.participant? 7 1).get
    (by decide)).pendingOffer.isSome from by decide)
  exact ⟨_, _, hp.symm, hpend.symm, offer_placed Posting.reach_roomy hp.symm hpend.symm⟩

/-- **An offer is lost** when its outbox is closed, and stays pending. -/
theorem offer_dropped : ∃ s : Posting scripted, (posting scripted).Reachable s ∧
    ∃ p pending, s.shard.participant? 7 1 = some p ∧ p.pendingOffer = some pending ∧
      ¬ ∃ msg ∈ s.placed p.wsTx, SfuShard.Carries msg pending :=
  ⟨_, System.reachable_foldl Posting.init_fresh Posting.step_next (Posting.call [.close 11]),
    Posting.not_placed_of_lost (by decide)⟩

end Video

end MateHub
