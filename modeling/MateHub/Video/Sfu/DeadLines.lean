import MateHub.Video.Sfu.FanOut
import MateHub.Video.Sfu.Offers

/-!
# Whether the lines of a publisher that left are closed

When a participant leaves, the tracks that the others have of it go, and the shard sets the
transceivers of those that had a mid inactive, in an offer to each of the others. It makes the
offer on the spot or never: a participant whose answer to another offer is still awaited is
passed over, and nothing remembers its mids (`MateHub.Video.lines_left_open`).

In a run in which every such offer can be made, no line stays open towards a publisher that is
gone (`MateHub.Video.lines_closed`).
-/

namespace MateHub

namespace Video

variable {S : Str0m}

/-- **A staged change sets a mid inactive**, and nothing staged later sets it otherwise. -/
inductive Str0m.Deactivates (S : Str0m) : S.SdpApi → Mid → Prop
  | setDirection (api : S.SdpApi) (mid : Mid) :
      Deactivates S (S.setDirection api mid .inactive) mid
  | setDirection_of {api : S.SdpApi} {mid mid' : Mid} (dir : Direction) :
      mid' ≠ mid → Deactivates S api mid → Deactivates S (S.setDirection api mid' dir) mid
  | addMedia_of {api : S.SdpApi} {mid : Mid} (kind : MediaKind) (dir : Direction)
      (streamId : String) :
      Deactivates S api mid → Deactivates S (S.addMedia api kind dir streamId).1 mid

/-- The mid of a subscription as a room sees it. -/
def stageMid : Room.Stage Mid → Option Mid
  | .waiting => none
  | .offered mid => some mid
  | .opened mid => some mid

/-- The line of a track is that of its subscription. -/
theorem negotiatedMid_eq (t : TrackOut) :
    SfuShard.negotiatedMid t = stageMid t.subscription.stage := by
  unfold SfuShard.negotiatedMid TrackOut.subscription
  rcases t.state with _ | mid | mid <;> rfl

/-! ### The mids of a participant -/

namespace SfuParticipant

variable {p p' p'' : SfuParticipant S}

/-- The mids of the tracks that a participant subscribes to. -/
def mids (p : SfuParticipant S) : List Mid := p.tracksOut.filterMap SfuShard.negotiatedMid

/-- The lines of a participant are those of its tracks. -/
theorem mem_mids {mid : Mid} :
    mid ∈ p.mids ↔ ∃ t ∈ p.tracksOut, SfuShard.negotiatedMid t = some mid :=
  List.mem_filterMap

/-- The lines of a participant are those of its subscriptions. -/
theorem mids_eq (p : SfuParticipant S) :
    p.mids = (p.tracksOut.map TrackOut.subscription).filterMap fun u => stageMid u.stage := by
  rw [mids, List.filterMap_map]
  exact congrArg (fun f => List.filterMap f p.tracksOut) (funext negotiatedMid_eq)

/-- The same participant, with all mids that it had. -/
structure Holds (p p' : SfuParticipant S) : Prop where
  wsTx : p'.wsTx = p.wsTx
  rtc : S.Evolves p.rtc p'.rtc
  mids : ∀ mid ∈ p.mids, mid ∈ p'.mids

namespace Holds

theorem refl (p : SfuParticipant S) : p.Holds p := ⟨rfl, .refl, fun _ h => h⟩

theorem trans (h : p.Holds p') (h' : p'.Holds p'') : p.Holds p'' :=
  ⟨h'.wsTx.trans h.wsTx, h.rtc.trans h'.rtc, fun mid hmid => h'.mids mid (h.mids mid hmid)⟩

end Holds

/-- A participant whose frame stays holds its lines. -/
theorem Frame.holds (h : p.Frame p') : p.Holds p' where
  wsTx := h.wsTx
  rtc := h.rtc
  mids := fun mid hmid => by
    rw [mids_eq] at hmid ⊢
    rwa [h.tracksOut]

end SfuParticipant

namespace SfuShard

variable {st st' st'' : SfuShard S} {sid : SessionId} {pid : ParticipantId}

/-! ### Only a leave takes mids away -/

/-- Whoever is there was there, and has all mids that it had. -/
def Holding (sid : SessionId) (pid : ParticipantId) (st st' : SfuShard S) : Prop :=
  ∀ p', st'.participant? sid pid = some p' → ∃ p, st.participant? sid pid = some p ∧ p.Holds p'

namespace Holding

/-- A participant that is not touched holds its lines. -/
theorem of_eq (h : st'.participant? sid pid = st.participant? sid pid) : Holding sid pid st st' :=
  fun p' hp' => ⟨p', h ▸ hp', .refl p'⟩

theorem refl (st : SfuShard S) : Holding sid pid st st := of_eq rfl

theorem trans (h : Holding sid pid st st') (h' : Holding sid pid st' st'') :
    Holding sid pid st st'' := by
  intro p'' hp''
  obtain ⟨p', hp', hh'⟩ := h' p'' hp''
  obtain ⟨p, hp, hh⟩ := h p' hp'
  exact ⟨p, hp, hh.trans hh'⟩

/-- A message lets everybody hold its lines. -/
theorem wsTrySend (st : SfuShard S) (tx : WsTx) (msg : ServerMessage) :
    Holding sid pid st (st.wsTrySend tx msg) := of_eq rfl

/-- Somebody is written back. -/
theorem set {sid' : SessionId} {pid' : ParticipantId} {p p' : SfuParticipant S}
    (hp : st.participant? sid' pid' = some p) (h : p.Holds p') :
    Holding sid pid st (st.setParticipant sid' pid' p') := by
  intro q hq
  rw [participant?_setParticipant hp] at hq
  by_cases heq : sid = sid' ∧ pid = pid'
  · obtain ⟨rfl, rfl⟩ := heq
    rw [if_pos ⟨rfl, rfl⟩] at hq
    obtain rfl := Option.some.inj hq
    exact ⟨p, hp, h⟩
  · rw [if_neg heq] at hq
    exact ⟨q, hq, .refl q⟩

end Holding

/-- New media lets everybody hold its lines. -/
theorem holding_mediaAdded (st : SfuShard S) (sid' : SessionId) (origin : ParticipantId)
    (mid : Mid) (kind : MediaKind) :
    Holding sid pid st (st.mediaAdded sid' origin mid kind) := by
  unfold mediaAdded
  split
  · exact .refl st
  · rename_i s hs
    dsimp only
    intro p' hp'
    rw [participant?_recordTrack] at hp'
    by_cases hsid : sid = sid'
    · subst hsid
      rw [if_pos rfl] at hp'
      obtain ⟨q, hq, rfl⟩ := Option.map_eq_some_iff.mp hp'
      have hrel := (frame_popSourceHint s origin kind).participants pid
      rw [hq] at hrel
      obtain ⟨p, hp, hpf⟩ := hrel.some_right
      refine ⟨p, participant?_eq_some.mpr ⟨s, hs, hp⟩, hpf.holds.trans ?_⟩
      split_ifs
      · exact ⟨rfl, .refl, fun _ => id⟩
      · exact .refl q
      · refine ⟨rfl, .refl, fun mid hmid => ?_⟩
        obtain ⟨t, ht, hst⟩ := SfuParticipant.mem_mids.mp hmid
        exact SfuParticipant.mem_mids.mpr ⟨t, List.mem_append_left _ ht, hst⟩
    · rw [if_neg hsid] at hp'
      exact ⟨p', hp', .refl p'⟩

/-- Staging tracks takes no mid away. -/
theorem mids_stageTracks {mid : Mid} {ts : List TrackOut} (api : S.SdpApi)
    (h : mid ∈ ts.filterMap negotiatedMid) :
    mid ∈ (stageTracks api ts).2.filterMap negotiatedMid := by
  induction ts generalizing api with
  | nil => exact h
  | cons t ts ih =>
    unfold stageTracks
    split
    · rename_i hst
      have hnone : negotiatedMid t = none := by rw [negotiatedMid, hst]
      rw [List.filterMap_cons_none hnone] at h
      obtain ⟨u, hu, hmid⟩ := List.mem_filterMap.mp (ih _ h)
      exact List.mem_filterMap.mpr ⟨u, List.mem_cons_of_mem _ hu, hmid⟩
    · obtain ⟨u, hu, hmid⟩ := List.mem_filterMap.mp h
      rcases List.mem_cons.mp hu with rfl | hu
      · exact List.mem_filterMap.mpr ⟨u, List.mem_cons_self, hmid⟩
      · obtain ⟨u', hu', hmid'⟩ :=
          List.mem_filterMap.mp (ih api (List.mem_filterMap.mpr ⟨u, hu, hmid⟩))
        exact List.mem_filterMap.mpr ⟨u', List.mem_cons_of_mem _ hu', hmid'⟩

/-- The call with which staged tracks are applied. -/
theorem call_stageTracks (p : SfuParticipant S) :
    S.Call p.rtc (S.apply (stageTracks (S.sdpApi p.rtc) p.tracksOut).1).1 :=
  .apply (SfuSession.staged_stageTracks .sdpApi p.tracksOut)

/-- Lines that were there are there after an answer. -/
theorem mids_answered {mid : Mid} {p : SfuParticipant S} (rtc : S.Rtc) (h : mid ∈ p.mids) :
    mid ∈ (answeredParticipant p rtc).mids := by
  obtain ⟨t, ht, hst⟩ := SfuParticipant.mem_mids.mp h
  refine SfuParticipant.mem_mids.mpr ⟨TrackOut.answered t, List.mem_map_of_mem ht, ?_⟩
  unfold negotiatedMid at hst ⊢
  unfold TrackOut.answered
  rcases hstate : t.state with _ | m | m
  · rw [hstate] at hst
    cases hst
  · rw [hstate] at hst
    exact hst
  · rw [hstate] at hst
    simpa only [hstate] using hst

/-- **Only a leave in its session takes mids from a participant**, and only its own admission
brings it in. -/
theorem Move.holding {e : Effect} (h : Move e st st') (hl : ∀ pid', e ≠ .left sid pid')
    (ha : ∀ tx, e ≠ .admitted sid pid tx) : Holding sid pid st st' := by
  cases h with
  | framed hf =>
    intro p' hp'
    have hrel := hf.participant sid pid
    rw [hp'] at hrel
    obtain ⟨p, hp, hpf⟩ := hrel.some_right
    exact ⟨p, hp, hpf.holds⟩
  | @announced _ sid' pid' p rtc mid kind hp hpoll =>
    have hcall := Str0m.Call.pollOutput p.rtc
    rw [hpoll] at hcall
    have hset : Holding sid pid st (st.setParticipant sid' pid' { p with rtc := rtc }) :=
      .set hp (SfuParticipant.Frame.call hcall).holds
    exact hset.trans (holding_mediaAdded _ sid' pid' mid kind)
  | left _ sid' pid' =>
    by_cases hsid : sid = sid'
    · exact absurd (by rw [hsid]) (hl pid')
    · exact .of_eq ((participant?_leaveMove st sid' sid pid' pid).trans (if_neg hsid))
  | deactivated _ hp _ hrtc => exact .set hp ⟨rfl, hrtc, fun _ => id⟩
  | @closed _ sid' s hs hempty =>
    intro p' hp'
    rw [participant?, session?, Dict.lookup_erase_eq] at hp'
    split at hp'
    · cases hp'
    · exact ⟨p', hp', .refl p'⟩
  | @admitted _ sid' pid' _ tx _ _ _ _ _ =>
    refine .of_eq ?_
    rw [participant?_addParticipant, if_neg]
    rintro ⟨rfl, rfl⟩
    exact ha tx rfl
  | @opened _ sid' pid' s p pending answer rtc hs hp _ haccept =>
    have hpart : st.participant? sid' pid' = some p := participant?_eq_some.mpr ⟨s, hs, hp⟩
    have hcall := Str0m.Call.acceptAnswer p.rtc pending answer
    rw [haccept] at hcall
    intro p' hp'
    rw [participant?_setSession] at hp'
    by_cases hsid : sid = sid'
    · subst hsid
      rw [if_pos rfl, lookup_registerTracks] at hp'
      by_cases hpid : pid = pid'
      · subst hpid
        rw [if_pos rfl] at hp'
        obtain rfl := Option.some.inj hp'
        exact ⟨p, hpart, rfl, .single hcall, fun mid hmid => mids_answered rtc hmid⟩
      · rw [if_neg hpid] at hp'
        exact ⟨p', participant?_eq_some.mpr ⟨s, hs, hp'⟩, .refl p'⟩
    · rw [if_neg hsid] at hp'
      exact ⟨p', hp', .refl p'⟩
  | @refused _ _ _ p pending answer rtc _ hp _ heq =>
    have hcall := Str0m.Call.acceptAnswer p.rtc pending answer
    rw [heq] at hcall
    exact .set hp ⟨rfl, .single hcall, fun _ => id⟩
  | taken => exact .of_eq rfl
  | @offered _ _ _ p rtc _ _ hp _ happly =>
    have hcall := call_stageTracks p
    rw [happly] at hcall
    exact .set hp ⟨rfl, .single hcall, fun mid hmid => mids_stageTracks _ hmid⟩
  | @unsent _ _ _ p rtc hp _ _ happly =>
    have hcall := call_stageTracks p
    rw [happly] at hcall
    exact .set hp ⟨rfl, .single hcall, fun mid hmid => mids_stageTracks _ hmid⟩

/-- A step in which nobody leaves and nobody is admitted holds the lines. -/
theorem Moves.holding {E : Effect → Prop} (h : Moves E st st')
    (hl : ∀ pid', ¬ E (.left sid pid')) (ha : ∀ tx, ¬ E (.admitted sid pid tx)) :
    Holding sid pid st st' :=
  h.invariant (I := Holding sid pid st)
    (fun _ _ _ he hm hst => hst.trans (hm.holding (fun pid' heq => hl pid' (heq ▸ he))
      fun tx heq => ha tx (heq ▸ he))) (.refl st)

/-! ### Lines that are closed -/

/-- **A mid is set inactive in an offer** that is sent to the participant: the offer is made of a
change that is staged on what its transport has become. -/
def Deactivated (st st' : SfuShard S) (p : SfuParticipant S) (mid : Mid) : Prop :=
  ∃ rtc api rtc' offer pending tracks, S.Evolves p.rtc rtc ∧ S.Staged rtc api ∧
    S.Deactivates api mid ∧ S.apply api = (rtc', some (offer, pending)) ∧
    .offer (S.offerText offer) tracks ∈ st.placed st' p.wsTx

/-- A line that is closed later on. -/
theorem Deactivated.later {p p' : SfuParticipant S} {mid : Mid}
    (h : st'.Deactivated st'' p' mid) (hg : st.Signals st') (htx : p'.wsTx = p.wsTx)
    (hrtc : S.Evolves p.rtc p'.rtc) : st.Deactivated st'' p mid := by
  obtain ⟨rtc, api, rtc', offer, pending, tracks, hevolves, hstaged, hdeactivates, happly,
    hmem⟩ := h
  rw [htx] at hmem
  exact ⟨rtc, api, rtc', offer, pending, tracks, hrtc.trans hevolves, hstaged, hdeactivates, happly,
    List.drop_subset_drop_left _ (hg.grows p.wsTx).length_le hmem⟩

/-- A line that was closed before. -/
theorem Deactivated.earlier {p : SfuParticipant S} {mid : Mid}
    (h : st.Deactivated st' p mid) (hg : st'.Signals st'') : st.Deactivated st'' p mid := by
  obtain ⟨rtc, api, rtc', offer, pending, tracks, hrtc, hstaged, hdeactivates, happly, hmem⟩ := h
  exact ⟨rtc, api, rtc', offer, pending, tracks, hrtc, hstaged, hdeactivates, happly,
    ((hg.grows p.wsTx).drop _).subset hmem⟩

/-- **Whoever is there was there**, and of the mids that it had those that are gone have been set
inactive in an offer. -/
def Closing (sid : SessionId) (pid : ParticipantId) (st st' : SfuShard S) : Prop :=
  ∀ p', st'.participant? sid pid = some p' → ∃ p, st.participant? sid pid = some p ∧
    p'.wsTx = p.wsTx ∧ S.Evolves p.rtc p'.rtc ∧
    ∀ mid ∈ p.mids, mid ∈ p'.mids ∨ st.Deactivated st' p mid

/-- What holds the lines leaves none behind. -/
theorem Holding.closing (h : Holding sid pid st st') : Closing sid pid st st' := by
  intro p' hp'
  obtain ⟨p, hp, hh⟩ := h p' hp'
  exact ⟨p, hp, hh.wsTx, hh.rtc, fun mid hmid => .inl (hh.mids mid hmid)⟩

theorem Closing.trans (h : Closing sid pid st st') (h' : Closing sid pid st' st'')
    (hg : st.Signals st') (hg' : st'.Signals st'') : Closing sid pid st st'' := by
  intro p'' hp''
  obtain ⟨p', hp', htx', hrtc', hmids'⟩ := h' p'' hp''
  obtain ⟨p, hp, htx, hrtc, hmids⟩ := h p' hp'
  refine ⟨p, hp, htx'.trans htx, hrtc.trans hrtc', fun mid hmid => ?_⟩
  rcases hmids mid hmid with hmid | hclosed
  · exact (hmids' mid hmid).imp_right fun hclosed => hclosed.later hg htx hrtc
  · exact .inr (hclosed.earlier hg')

/-! ### A leave -/

/-- A turn of the loop that sets dead transceivers inactive **makes an offer and places it**: no
answer is awaited, str0m finds something to change and makes an offer of it, and there is room in
the outbox. -/
def CanDeactivate (sid : SessionId) (st : SfuShard S) (entry : ParticipantId × List Mid) : Prop :=
  ∀ p ∈ st.participant? sid entry.1, p.pendingOffer.isNone ∧
    S.hasChanges (deactivation p entry.2) ∧ (S.apply (deactivation p entry.2)).2.isSome ∧
    (st.ws p.wsTx).HasRoom

instance (st : SfuShard S) (entry : ParticipantId × List Mid) :
    Decidable (CanDeactivate sid st entry) :=
  inferInstanceAs (Decidable (∀ p ∈ st.participant? sid entry.1, p.pendingOffer.isNone ∧
    S.hasChanges (deactivation p entry.2) ∧ (S.apply (deactivation p entry.2)).2.isSome ∧
    (st.ws p.wsTx).HasRoom))

/-- Every turn of the loop of a leave does. -/
def CanLeave (st : SfuShard S) (sid : SessionId) (pid : ParticipantId) : Prop :=
  ∀ s ∈ st.session? sid, System.Accepted (CanDeactivate sid) (deactivate sid)
    (st.leaveStart sid pid s)
    (midsToDeactivate { s with participants := s.participants.erase pid } pid)

instance (st : SfuShard S) : Decidable (st.CanLeave sid pid) :=
  inferInstanceAs (Decidable (∀ s ∈ st.session? sid, System.Accepted (CanDeactivate sid)
    (deactivate sid) (st.leaveStart sid pid s)
    (midsToDeactivate { s with participants := s.participants.erase pid } pid)))

/-- The change that makes lines inactive makes each of them inactive. -/
theorem deactivates_deactivation {mid : Mid} {mids : List Mid} (h : mid ∈ mids)
    (p : SfuParticipant S) : S.Deactivates (deactivation p mids) mid := by
  have hstays (mids : List Mid) (api : S.SdpApi) (hapi : S.Deactivates api mid) :
      S.Deactivates (mids.foldl (fun c m => S.setDirection c m .inactive) api) mid := by
    induction mids generalizing api with
    | nil => exact hapi
    | cons m mids ih =>
      refine ih _ ?_
      by_cases hm : m = mid
      · rw [hm]
        exact .setDirection api mid
      · exact .setDirection_of .inactive hm hapi
  obtain ⟨before, after, rfl⟩ := List.append_of_mem h
  rw [deactivation, List.foldl_append, List.foldl_cons]
  exact hstays after _ (.setDirection _ mid)

/-- A turn of the loop that makes an offer closes the lines of its participant. -/
theorem deactivated_deactivate {entry : ParticipantId × List Mid}
    (hok : st.CanDeactivate sid entry) {p : SfuParticipant S}
    (hp : st.participant? sid entry.1 = some p) {mid : Mid} (hmid : mid ∈ entry.2) :
    st.Deactivated (deactivate sid st entry) p mid := by
  obtain ⟨hpend, hchanges, happly, hroom⟩ := hok p hp
  obtain ⟨r, hr⟩ := Option.isSome_iff_exists.mp happly
  obtain ⟨offer, pending⟩ := r
  have happly : S.apply (deactivation p entry.2) =
      ((S.apply (deactivation p entry.2)).1, some (offer, pending)) := by rw [← hr]
  have heq : deactivate sid st entry = (st.setParticipant sid entry.1
      { p with
        rtc := (S.apply (deactivation p entry.2)).1
        pendingOffer := some pending }).wsTrySend p.wsTx (.offer (S.offerText offer) none) := by
    unfold deactivate
    rw [hp]
    dsimp only
    rw [if_neg (by simpa using hpend)]
    rw [show entry.2.foldl (fun c mid => S.setDirection c mid .inactive) (S.sdpApi p.rtc) =
      deactivation p entry.2 from rfl, if_neg (by simpa using hchanges), happly]
  refine ⟨p.rtc, _, _, offer, pending, none, .refl, staged_foldl_setDirection entry.2 .sdpApi,
    deactivates_deactivation hmid p, happly, ?_⟩
  have hqueue : (st.ws p.wsTx).queue ++ [.offer (S.offerText offer) none] =
      ((deactivate sid st entry).ws p.wsTx).queue := by
    rw [heq, outbox_wsTrySend, if_pos rfl]
    exact (Outbox.queue_trySend hroom _).symm
  rw [placed, ← hqueue, List.drop_left]
  exact List.mem_singleton_self _

/-- Making lines inactive lets everybody hold its lines. -/
theorem holding_deactivate (st : SfuShard S) (sid' : SessionId) (entry : ParticipantId × List Mid) :
    Holding sid pid st (deactivate sid' st entry) :=
  (moves_deactivate (E := fun e => (∀ pid', e ≠ .left sid pid') ∧ ∀ tx, e ≠ .admitted sid pid tx)
    (by simp) (by simp) sid' st entry).holding (fun pid' he => he.1 pid' rfl)
      fun tx he => he.2 tx rfl

/-- **The loop of a leave**: whoever is there has the mids that it had, and those of its entry are
closed. -/
theorem closed_deactivates (entries : List (ParticipantId × List Mid)) {st : SfuShard S}
    (hok : System.Accepted (CanDeactivate sid) (deactivate sid) st entries) {p' : SfuParticipant S}
    (hp' : (entries.foldl (deactivate sid) st).participant? sid pid = some p') :
    ∃ p, st.participant? sid pid = some p ∧ p.Holds p' ∧ ∀ mids, (pid, mids) ∈ entries →
      ∀ mid ∈ mids, st.Deactivated (entries.foldl (deactivate sid) st) p mid := by
  induction entries generalizing st with
  | nil => exact ⟨p', hp', .refl p', fun _ h => absurd h List.not_mem_nil⟩
  | cons entry entries ih =>
    have hfirst := (stays_deactivate sid st entry).signals
    have hrest := (stays_deactivates sid entries (deactivate sid st entry)).signals
    obtain ⟨p₁, hp₁, hholds₁, hclosed⟩ := ih hok.2 hp'
    obtain ⟨p, hp, hholds⟩ := holding_deactivate st sid entry p₁ hp₁
    refine ⟨p, hp, hholds.trans hholds₁, fun mids hmem mid hmid => ?_⟩
    rcases List.mem_cons.mp hmem with rfl | hmem
    · exact (deactivated_deactivate hok.1 hp hmid).earlier hrest
    · exact (hclosed mids hmem mid hmid).later hfirst hholds.wsTx hholds.rtc

/-- A leave in another session. -/
theorem holding_handleLeave_of_ne {sid' : SessionId} (hsid : sid ≠ sid') (st : SfuShard S)
    (pid' : ParticipantId) : Holding sid pid st (st.handleLeave sid' pid').1 := by
  have hmoves : Moves (fun e => (∀ pid', e ≠ .left sid pid') ∧ ∀ tx, e ≠ .admitted sid pid tx) st
      (st.handleLeave sid' pid').1 := by
    refine moves_handleLeave (by simp) (by simp) (by simp) ⟨fun q heq => ?_, nofun⟩ st
    exact hsid (Effect.left.inj heq).1.symm
  exact hmoves.holding (fun pid' he => he.1 pid' rfl) fun tx he => he.2 tx rfl

/-- **A leave** closes the lines towards whoever leaves. -/
theorem closing_handleLeave {sid' : SessionId} {pid' : ParticipantId}
    (hok : st.CanLeave sid' pid') : Closing sid pid st (st.handleLeave sid' pid').1 := by
  by_cases hsid : sid = sid'
  case neg => exact (holding_handleLeave_of_ne hsid st pid').closing
  subst hsid
  by_cases hpid : pid = pid'
  · subst hpid
    intro p' hp'
    rw [participant?_handleLeave] at hp'
    cases hp'
  intro p' hp'
  rcases handleLeave_cases st sid pid' with ⟨-, heq⟩ | ⟨s, st₁, hs, hst₁, hend⟩
  · rw [heq] at hp'
    exact ⟨p', hp', rfl, .refl, fun _ => .inl⟩
  · -- whoever is there after the leave is there when the loop is done
    have hloop : st₁.participant? sid pid = some p' ∧ (st.handleLeave sid pid').1.ws = st₁.ws := by
      rcases hend with ⟨s₁, hs₁, hempty, heq⟩ | ⟨heq, -⟩
      · rw [heq, participant?, session?, Dict.lookup_erase_eq, if_pos rfl] at hp'
        cases hp'
      · exact ⟨heq ▸ hp', by rw [heq]⟩
    obtain ⟨hp₁, hws⟩ := hloop
    rw [hst₁] at hp₁
    obtain ⟨p₀, hp₀, hholds, hclosed⟩ := closed_deactivates _ (hok s hs) hp₁
    rw [leaveStart, participant?_setSession, if_pos rfl, lookup_dropParticipant, if_neg hpid] at hp₀
    obtain ⟨p, hp, rfl⟩ := Option.map_eq_some_iff.mp hp₀
    refine ⟨p, participant?_eq_some.mpr ⟨s, hs, hp⟩, hholds.wsTx, hholds.rtc, fun mid hmid => ?_⟩
    obtain ⟨t, ht, hst⟩ := SfuParticipant.mem_mids.mp hmid
    by_cases horigin : t.origin = pid'
    · -- the track goes, and its mid is in the entry of the participant
      refine .inr ?_
      have hmem : mid ∈ (p.tracksOut.filter fun t => t.origin = pid').filterMap negotiatedMid :=
        List.mem_filterMap.mpr ⟨t, List.mem_filter.mpr ⟨ht, decide_eq_true horigin⟩, hst⟩
      have hentry : (pid, (p.tracksOut.filter fun t => t.origin = pid').filterMap negotiatedMid) ∈
          midsToDeactivate { s with participants := s.participants.erase pid' } pid' := by
        refine List.mem_filterMap.mpr ⟨(pid, p), Dict.mem_pairs.mpr ?_, ?_⟩
        · rw [Dict.lookup_erase_eq, if_neg hpid]
          exact hp
        · dsimp only
          rw [if_neg]
          rw [List.isEmpty_iff]
          exact List.ne_nil_of_mem hmem
      obtain ⟨rtc, api, rtc', offer, pending, tracks, hevolves, hstaged, hdeactivates, happly,
        hsent⟩ := hclosed _ hentry mid hmem
      refine ⟨rtc, api, rtc', offer, pending, tracks, hevolves, hstaged, hdeactivates, happly, ?_⟩
      rw [placed, hws, hst₁]
      exact hsent
    · refine .inl (hholds.mids mid (SfuParticipant.mem_mids.mpr ⟨t, ?_, hst⟩))
      exact List.mem_filter.mpr ⟨ht, decide_eq_true horigin⟩

/-! ### Steps -/

/-- Whether a command is a Join of this participant id. -/
def Input.Joins (sid : SessionId) (pid : ParticipantId) : Input → Prop
  | .command (.join sid' pid' _ _ _) _ _ _ => sid' = sid ∧ pid' = pid
  | _ => False

/-- **Every offer that a leave is to make is made**, in a step in which somebody leaves: on a Leave,
on a Join that replaces a participant, and in the sweep of a tick. -/
def Closable (st : SfuShard S) : Input → Prop
  | .command (.leave sid pid) _ _ _ => st.CanLeave sid pid
  | .command (.join sid pid _ _ _) _ _ _ => ∀ p ∈ st.participant? sid pid,
      (st.wsTrySend p.wsTx (.forceDisconnected "joined_elsewhere")).CanLeave sid pid
  | .tick now _ => System.Accepted (fun st e => CanLeave st e.1 e.2)
      (fun st e => (st.handleLeave e.1 e.2).1) (st.timeouts now) ((st.timeouts now).zombies now)
  | _ => True

/-- **A join** leaves no line behind if its earlier participant can leave. -/
theorem closing_handleJoin {sid' : SessionId} {pid' : ParticipantId} (creds : IceCreds)
    (now : Instant) (userId sdpOffer : String) (replyTx : WsTx) (hne : ¬ (sid' = sid ∧ pid' = pid))
    (hok : ∀ p ∈ st.participant? sid' pid',
      (st.wsTrySend p.wsTx (.forceDisconnected "joined_elsewhere")).CanLeave sid' pid') :
    Closing sid pid st (st.handleJoin creds now sid' pid' userId sdpOffer replyTx).1 := by
  have hkick : Closing sid pid st (st.kickPrior sid' pid') := by
    unfold kickPrior
    split
    · exact (Holding.refl st).closing
    · rename_i p hp
      exact (Holding.wsTrySend st _ _).closing.trans (closing_handleLeave (hok p hp))
        (signals_wsTrySend rfl _ _) (signals_handleLeave _ sid' pid')
  have hsignals := signals_kickPrior st sid' pid'
  have hnone := participant?_kickPrior st sid' pid'
  unfold handleJoin
  generalize st.kickPrior sid' pid' = st₁ at hkick hsignals hnone ⊢
  have hreply {msg : ServerMessage} (hmsg : msg.ofSfu = true) :
      Closing sid pid st (st₁.wsTrySend replyTx msg) :=
    hkick.trans (Holding.wsTrySend st₁ _ _).closing hsignals (signals_wsTrySend hmsg _ _)
  dsimp only
  split
  · exact hreply rfl
  · split
    · exact hreply rfl
    · rename_i rtc answer _
      have hadmitted : Holding sid pid st₁
          (st₁.addParticipant sid' pid' userId replyTx rtc answer creds now) := by
        refine (Move.admitted userId replyTx rtc answer creds now hnone).holding nofun ?_
        rintro tx heq
        obtain ⟨rfl, rfl, -⟩ := Effect.admitted.inj heq
        exact hne ⟨rfl, rfl⟩
      refine hkick.trans hadmitted.closing hsignals ?_
      unfold addParticipant
      dsimp only
      split <;> exact (Signals.of_eq rfl).trans (signals_wsTrySend rfl _ _)

/-- Leaves leave no line behind if each of them can, by induction over the list. -/
theorem closing_leaves (l : List (SessionId × ParticipantId)) (st : SfuShard S)
    (hok : System.Accepted (fun st e => CanLeave st e.1 e.2)
      (fun st e => (st.handleLeave e.1 e.2).1) st l) :
    Closing sid pid st (l.foldl (fun st e => (st.handleLeave e.1 e.2).1) st) := by
  induction l generalizing st with
  | nil => exact (Holding.refl st).closing
  | cons e l ih =>
    exact (closing_handleLeave hok.1).trans (ih _ hok.2) (signals_handleLeave st e.1 e.2)
      (signals_leaves l _)

/-- **A command** leaves no line behind if what leaves at it can. -/
theorem closing_handleCommand {creds : IceCreds} {now : Instant} {cmd : SfuCommand} {fuel : ℕ}
    (hok : st.Closable (.command cmd creds now fuel))
    (hjoin : ¬ Input.Joins sid pid (.command cmd creds now fuel)) :
    Closing sid pid st (st.handleCommand creds now cmd).1 := by
  have hmoves := moves_handleCommand st cmd creds now fuel
  cases cmd with
  | join sid' pid' userId sdpOffer replyTx =>
    exact closing_handleJoin creds now userId sdpOffer replyTx hjoin hok
  | leave sid' pid' => exact closing_handleLeave hok
  | _ => exact (hmoves.holding (fun _ => id) fun _ => id).closing

/-- **A step** in which every offer of a leave is made, and that does not bring the participant
in: the mids that it takes from it have been set inactive in an offer. -/
theorem closing_step {i : Input} (hstep : Step st i st') (hok : st.Closable i)
    (hjoin : ¬ Input.Joins sid pid i) : Closing sid pid st st' := by
  have hmoves := moves_of_step hstep
  cases hstep with
  | rehash hr => exact (hmoves.holding (fun _ => id) fun _ => id).closing
  | next =>
    have hpolls := moves_polls (S := S)
      (E := fun e => e = .framed ∨ ∃ sid pid, e = .announced sid pid)
      (.inl rfl) fun sid pid => .inr ⟨sid, pid, rfl⟩
    cases i with
    | command cmd creds now fuel =>
      have hpoll := hpolls.pollTarget now fuel (st.handleCommand creds now cmd).1
        (st.handleCommand creds now cmd).2
      exact (closing_handleCommand hok hjoin).trans
        (hpoll.holding (by simp) (by simp)).closing (signals_handleCommand st creds now cmd)
        (stays_polls.pollTarget now fuel _ _).signals
    | tick now fuel =>
      have hstart : Holding sid pid st (st.timeouts now) :=
        (Move.framed (frame_timeouts st now)).holding nofun nofun
      have hpoll := hpolls.pollAll now fuel (st.tick now)
      have hleaves : Closing sid pid (st.timeouts now) (st.tick now) := closing_leaves _ _ hok
      exact (hstart.closing.trans hleaves (.of_eq rfl) (signals_leaves _ _)).trans
        (hpoll.holding (by simp) (by simp)).closing (signals_tick st now)
        (stays_polls.pollAll now fuel _).signals
    | _ => exact (hmoves.holding (fun _ => id) fun _ => id).closing

end SfuShard

/-! ### Runs -/

/-- A shard, with the mids that its participants have lost, and with those that have been set
inactive in an offer sent to them. -/
structure Lines (S : Str0m) where
  shard : SfuShard S
  dead : SessionId → ParticipantId → Mid → Prop
  closed : SessionId → ParticipantId → Mid → Prop

/-- A participant that is there before and after a step has lost a mid in it. -/
def SfuShard.Loses (st st' : SfuShard S) (sid : SessionId) (pid : ParticipantId) (mid : Mid) :
    Prop :=
  ∃ p p', st.participant? sid pid = some p ∧ st'.participant? sid pid = some p' ∧
    mid ∈ p.mids ∧ mid ∉ p'.mids

/-- The steps of the shard, with the mids that are lost and closed in them. -/
def lining (S : Str0m) : System (Lines S) SfuShard.Input where
  init s := (SfuShard.system S).init s.shard ∧ ∀ sid pid mid,
    ¬ s.dead sid pid mid ∧ ¬ s.closed sid pid mid
  step s i t := SfuShard.Step s.shard i t.shard ∧ ∀ sid pid mid,
    (t.dead sid pid mid ↔ ¬ SfuShard.Input.Joins sid pid i ∧
      (s.dead sid pid mid ∨ s.shard.Loses t.shard sid pid mid)) ∧
    (t.closed sid pid mid ↔ ¬ SfuShard.Input.Joins sid pid i ∧ (s.closed sid pid mid ∨
      ∃ p, s.shard.participant? sid pid = some p ∧ s.shard.Deactivated t.shard p mid))

/-- **No line stays open towards a publisher that is gone**: of a participant for which nothing is
pending, queued or to be negotiated, every mid that it has lost has been set inactive in an
offer. -/
def Lines.Settled (s : Lines S) : Prop :=
  ∀ sid pid p mid, s.shard.participant? sid pid = some p → p.pendingOffer = none →
    p.queuedClientOffer = none → (sid, pid) ∉ s.shard.pendingNegotiation →
    s.dead sid pid mid → s.closed sid pid mid

/-- **Dead lines are closed**, in a run in which every offer of a leave is made. -/
theorem lines_closed {s : Lines S} (hs : (lining S).Reach (fun s i => s.shard.Closable i) s) :
    s.Settled := by
  have hclosed : ∀ sid pid mid, s.dead sid pid mid → s.closed sid pid mid := by
    refine hs.invariant (I := fun s => ∀ sid pid mid, s.dead sid pid mid → s.closed sid pid mid)
      (fun s hinit sid pid mid hdead => absurd hdead (hinit.2 sid pid mid).1) ?_
    rintro s i t hinv hok ⟨hstep, hnext⟩ sid pid mid hdead
    obtain ⟨hdeads, hcloses⟩ := hnext sid pid mid
    obtain ⟨hjoin, hdead⟩ := hdeads.mp hdead
    refine hcloses.mpr ⟨hjoin, ?_⟩
    rcases hdead with hdead | ⟨p, p', hp, hp', hmid, hlost⟩
    · exact .inl (hinv sid pid mid hdead)
    · obtain ⟨q, hq, -, -, hmids⟩ := SfuShard.closing_step hstep hok hjoin p' hp'
      obtain rfl := Option.some.inj (hp.symm.trans hq)
      exact .inr ⟨p, hp, (hmids mid hmid).resolve_left hlost⟩
  exact fun sid pid _ mid _ _ _ _ hdead => hclosed sid pid mid hdead

/-! ### A line that is closed, and one that is not -/

open Scripted in
/-- The scripted transport, whose offers say whether they set something inactive. -/
def Scripted.outlined : Str0m :=
  { scripted with
    offerText := fun
      | .inl _ => "offer of a client"
      | .inr mids => if mids.isEmpty then "sendonly" else "inactive"
    apply := fun api => ((apply api).1, (apply api).2.map fun r => (.inr api.inactive, r.2)) }

namespace Lines

open Scripted (outlined)

/-- The state after a step that the shard computes. -/
def next (s : Lines S) (i : SfuShard.Input) : Lines S where
  shard := s.shard.next i
  dead := fun sid pid mid => ¬ SfuShard.Input.Joins sid pid i ∧
    (s.dead sid pid mid ∨ s.shard.Loses (s.shard.next i) sid pid mid)
  closed := fun sid pid mid => ¬ SfuShard.Input.Joins sid pid i ∧ (s.closed sid pid mid ∨
    ∃ p, s.shard.participant? sid pid = some p ∧ s.shard.Deactivated (s.shard.next i) p mid)

/-- What `next` makes is a step. -/
theorem step_next (s : Lines S) (i : SfuShard.Input) : (lining S).step s i (s.next i) :=
  ⟨.next s.shard i, fun _ _ _ => ⟨Iff.rfl, Iff.rfl⟩⟩

/-- No session. -/
def fresh : Lines outlined := ⟨.new 0 [(1, 2)] 12000, fun _ _ _ => False, fun _ _ _ => False⟩

/-- The shard in which nothing has happened is a start. -/
theorem init_fresh : (lining outlined).init fresh :=
  ⟨⟨0, [(1, 2)], 12000, rfl⟩, fun _ _ _ => ⟨id, id⟩⟩

/-- Participant 2 joins participant 1, with a microphone that participant 1 is offered. -/
def offered : List SfuShard.Input :=
  [.command (.join 7 1 "alice" "" 11) ⟨"ua", "pa"⟩ 0 9,
    .command (.join 7 2 "bob" "a" 12) ⟨"ub", "pb"⟩ 0 9, .negotiate]

/-- Participant 1 answers. -/
def answer : SfuShard.Input := .command (.answer 7 1 "ok") ⟨"", ""⟩ 0 9

/-- Participant 2 leaves. -/
def leave : SfuShard.Input := .command (.leave 7 2) ⟨"", ""⟩ 0 9

/-- Whether a message sets something inactive. -/
def inactivates : ServerMessage → Bool
  | .offer text _ => text == "inactive"
  | _ => false

/-- A step in which participant 1 is sent nothing that sets something inactive. -/
def Plain (s : Lines outlined) (i : SfuShard.Input) : Prop :=
  ∀ p ∈ s.shard.participant? 7 1, ∀ msg ∈ s.shard.placed (s.shard.next i) p.wsTx,
    inactivates msg = false

instance (s : Lines outlined) (i : SfuShard.Input) : Decidable (s.Plain i) :=
  inferInstanceAs (Decidable (∀ p ∈ s.shard.participant? 7 1,
    ∀ msg ∈ s.shard.placed (s.shard.next i) p.wsTx, inactivates msg = false))

/-- A line that the changes make inactive is in their list. -/
theorem mem_inactive {api : outlined.SdpApi} {mid : Mid} (h : outlined.Deactivates api mid) :
    mid ∈ Scripted.SdpApi.inactive api := by
  induction h with
  | setDirection api mid => exact List.mem_append_right _ (List.mem_singleton_self mid)
  | setDirection_of dir _ _ ih => exact List.mem_append_left _ ih
  | addMedia_of kind dir streamId _ ih => exact ih

/-- A change that sets a mid inactive makes an offer that says so. -/
theorem inactivates_of_apply {api : outlined.SdpApi} {mid : Mid} {rtc : outlined.Rtc}
    {offer : outlined.SdpOffer} {pending : outlined.SdpPendingOffer}
    (h : outlined.Deactivates api mid) (happly : outlined.apply api = (rtc, some (offer, pending)))
    (tracks : Option (List TrackMapping)) :
    inactivates (.offer (outlined.offerText offer) tracks) = true := by
  have hne : (Scripted.SdpApi.inactive api).isEmpty = false :=
    List.isEmpty_eq_false_iff.mpr (List.ne_nil_of_mem (mem_inactive h))
  have hoffer := congrArg Prod.snd happly
  have hoffer : (Scripted.apply api).2.map
      (fun r => (Sum.inr (Scripted.SdpApi.inactive api), r.2)) = some (offer, pending) := hoffer
  obtain ⟨r, -, hr⟩ := Option.map_eq_some_iff.mp hoffer
  obtain rfl := (Prod.mk.inj hr).1
  change ((if (Scripted.SdpApi.inactive api).isEmpty then "sendonly" else "inactive") == _) = true
  rw [hne]
  decide

/-- A line that no message closes stays open, by induction over the run. -/
theorem not_closed_of_plain {mid : Mid} {is : List SfuShard.Input} {s : Lines outlined}
    (hs : ¬ s.closed 7 1 mid) (hplain : System.Accepted Plain next s is) :
    ¬ (is.foldl next s).closed 7 1 mid := by
  induction is generalizing s with
  | nil => exact hs
  | cons i is ih =>
    refine ih ?_ hplain.2
    rintro ⟨-, hclosed | ⟨p, hp, hdeactivated⟩⟩
    · exact hs hclosed
    · obtain ⟨_, _, _, _, _, tracks, -, -, hdeactivates, happly, hmem⟩ := hdeactivated
      have hnot := hplain.1 p hp _ hmem
      rw [inactivates_of_apply hdeactivates happly tracks] at hnot
      cases hnot

/-- Participant 2 leaves before participant 1 answers. -/
def leftOpen : Lines outlined := (offered ++ [leave, answer]).foldl next fresh

/-- Participant 2 leaves after participant 1 has answered. -/
def closedInTime : Lines outlined := (offered ++ [answer, leave, answer]).foldl next fresh

/-- No message of this run closes a line. -/
theorem plain_leftOpen : System.Accepted Plain next fresh (offered ++ [leave, answer]) := by
  decide

/-- The line of who has left is dead. -/
theorem dead_leftOpen : leftOpen.dead 7 1 1000 := by
  have hp := Option.some_get (show ((offered.foldl next fresh).shard.participant? 7 1).isSome from
    by decide)
  have hp' := Option.some_get (show (((offered ++ [leave]).foldl next fresh).shard.participant? 7
    1).isSome from by decide)
  exact ⟨id, .inl ⟨id, .inr ⟨_, _, hp.symm, hp'.symm, by decide, by decide⟩⟩⟩

/-- Participant 1 is there, and nothing is pending, queued or to be negotiated for it. -/
def Idle (s : Lines outlined) : Prop :=
  ∃ p, s.shard.participant? 7 1 = some p ∧ p.pendingOffer = none ∧ p.queuedClientOffer = none ∧
    ((7 : SessionId), (1 : ParticipantId)) ∉ s.shard.pendingNegotiation

/-- In the run whose leave waits the line is dead, too. -/
theorem dead_closedInTime : closedInTime.dead 7 1 1000 := by
  have hp := Option.some_get (show (((offered ++ [answer]).foldl next fresh).shard.participant? 7
    1).isSome from by decide)
  have hp' := Option.some_get (show (((offered ++ [answer, leave]).foldl next
    fresh).shard.participant? 7 1).isSome from by decide)
  exact ⟨id, .inl ⟨id, .inr ⟨_, _, hp.symm, hp'.symm, by decide, by decide⟩⟩⟩

/-- No offer is outstanding in the end. -/
theorem idle_leftOpen : leftOpen.Idle := by
  have hp := Option.some_get (show (leftOpen.shard.participant? 7 1).isSome from by decide)
  exact ⟨_, hp.symm, by decide, by decide, by decide⟩

/-- No offer is outstanding in the end of the other run. -/
theorem idle_closedInTime : closedInTime.Idle := by
  have hp := Option.some_get (show (closedInTime.shard.participant? 7 1).isSome from by decide)
  exact ⟨_, hp.symm, by decide, by decide, by decide⟩

/-- The run whose leave waits meets the condition. -/
theorem reach_closedInTime :
    (lining outlined).Reach (fun s i => s.shard.Closable i) closedInTime := by
  refine System.Reach.foldl step_next (.start init_fresh)
    ⟨?_, ?_, trivial, trivial, ?_, trivial, trivial⟩
  · intro p hp
    cases hp
  · have hnone : (fresh.next (.command (.join 7 1 "alice" "" 11) ⟨"ua", "pa"⟩ 0
      9)).shard.participant? 7 2 = none := by decide
    intro p hp
    rw [hnone] at hp
    cases hp
  · have hcan : ((offered ++ [answer]).foldl next fresh).shard.CanLeave 7 2 := by decide
    exact hcan

end Lines

open Lines in
/-- What participant 1 had of participant 2 is closed when the latter leaves in time. -/
theorem lines_closed_inTime : closedInTime.closed 7 1 1000 := by
  obtain ⟨p, hp, hpend, hqueued, hnegotiation⟩ := idle_closedInTime
  exact lines_closed reach_closedInTime 7 1 p 1000 hp hpend hqueued hnegotiation dead_closedInTime

open Lines in
/-- **A line is left open**: participant 2 leaves while the first offer of participant 1 awaits its
answer, and participant 1 is never sent an offer that sets the mid inactive. -/
theorem lines_left_open : (lining Scripted.outlined).Reachable leftOpen ∧ ¬ leftOpen.Settled := by
  refine ⟨System.reachable_foldl init_fresh step_next _, fun hsettled => ?_⟩
  obtain ⟨p, hp, hpend, hqueued, hnegotiation⟩ := idle_leftOpen
  exact not_closed_of_plain id plain_leftOpen
    (hsettled 7 1 p 1000 hp hpend hqueued hnegotiation dead_leftOpen)

end Video

end MateHub
