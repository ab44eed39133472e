import MateHub.Video.Sfu.Negotiation
import MateHub.Video.Sfu.Publisher
import MateHub.Video.Sfu.Signals

/-!
# How the shard labels tracks

The handlers of the shard do to the queues of hints and to the list of tracks of a
participant what `MateHub.Video.Publisher` does to them: `shows_handlePublishTrack`,
`shows_mediaAdded`, `shows_handleClientOffer`, `shows_handleAnswer`, `shows_handleJoin` and
`shows_handleLeave`. The SFU makes an offer of its own in a pass of the negotiation
(`shows_negotiatePendingTracks`), or when somebody else leaves (`shows_handleLeave_of_ne`).

`MateHub.Video.sources_of_reach` says for which runs every track is labelled with the
hint that was declared for it, and `MateHub.Video.camera_as_screen` is a run in which a
camera becomes a screen.
-/

namespace MateHub

namespace Video

/-- A track as the list of its publisher shows it. -/
def LabelledTrack.track (t : LabelledTrack) : Room.Track Mid (MediaKind × Source) :=
  ⟨t.line.mid, (t.line.kind, t.source)⟩

namespace Publisher

variable {S : Str0m} {st : SfuShard S} {sid : SessionId} {pid : ParticipantId} {p : Publisher}
  {lines : ℕ → List MediaLine}

/-- The same queues and tracks. -/
structure HasLabels (p : Publisher) (q : SfuParticipant S) : Prop where
  hints : ∀ kind, (q.pendingSourceHints.lookup kind).getD [] =
    (p.pendingSourceHints kind).map SourceHint.source
  tracksIn : q.tracksIn.map TrackIn.track = p.tracksIn.map LabelledTrack.track

/-- The publisher shows the state of the participant of an id, which may be none. -/
structure Shows (p : Publisher) (st : SfuShard S) (sid : SessionId) (pid : ParticipantId) :
    Prop where
  negotiator : p.negotiator.Tracks st sid pid
  labels : ∀ q, st.participant? sid pid = some q → p.HasLabels q

/-- A participant whose queues and tracks are left alone. -/
structure SameLabels (q q' : SfuParticipant S) : Prop where
  pendingSourceHints : q'.pendingSourceHints = q.pendingSourceHints
  tracksIn : q'.tracksIn.map TrackIn.track = q.tracksIn.map TrackIn.track

theorem SameLabels.refl (q : SfuParticipant S) : SameLabels q q := ⟨rfl, rfl⟩

theorem SameLabels.trans {q q' q'' : SfuParticipant S} (h : SameLabels q q')
    (h' : SameLabels q' q'') : SameLabels q q'' :=
  ⟨h'.pendingSourceHints.trans h.pendingSourceHints, h'.tracksIn.trans h.tracksIn⟩

theorem HasLabels.same {q q' : SfuParticipant S} (h : p.HasLabels q) (hs : SameLabels q q') :
    p.HasLabels q' :=
  ⟨fun kind => by rw [hs.pendingSourceHints]; exact h.hints kind, hs.tracksIn.trans h.tracksIn⟩

theorem participant?_setParticipant_self {q q' : SfuParticipant S}
    (hq : st.participant? sid pid = some q) :
    (st.setParticipant sid pid q').participant? sid pid = some q' := by
  rw [SfuShard.participant?_setParticipant hq, if_pos ⟨rfl, rfl⟩]

/-! ### A hint arrives, and a track -/

/-- `handle_publish_track`. -/
theorem shows_handlePublishTrack (h : p.Shows st sid pid) (hint : SourceHint) :
    (p.handlePublishTrack hint).Shows (st.handlePublishTrack sid pid hint.source hint.kind).1
      sid pid := by
  rcases hq : st.participant? sid pid with _ | q
  · have hnot := (Negotiator.tracks_none hq).mp h.negotiator
    rw [SfuShard.handlePublishTrack, hq, handlePublishTrack, hnot]
    exact ⟨h.negotiator, fun q' hq' => ⟨(h.labels q' hq').hints, (h.labels q' hq').tracksIn⟩⟩
  · obtain ⟨hjoined, ht⟩ := (Negotiator.tracks_some hq).mp h.negotiator
    rw [SfuShard.handlePublishTrack, hq, handlePublishTrack, hjoined]
    refine ⟨Negotiator.tracks_setParticipant hq rfl hjoined ⟨ht.1, ht.2⟩, fun q' hq' => ?_⟩
    rw [participant?_setParticipant_self hq] at hq'
    obtain rfl := Option.some_inj.mp hq'
    have hlabels := h.labels q hq
    refine ⟨fun kind => ?_, hlabels.tracksIn⟩
    have hhints := hlabels.hints kind
    dsimp only
    rw [Dict.lookup_insert_eq]
    by_cases hkind : kind = hint.kind
    · subst hkind
      rw [if_pos rfl, Option.getD_some, hhints, Bool.not_true, if_neg Bool.false_ne_true]
      simp
    · rw [if_neg hkind, hhints, Bool.not_true, if_neg Bool.false_ne_true]
      simp [Function.update_of_ne hkind]

/-- The oldest hint is taken off its queue. -/
theorem popSourceHint_hint (q : SfuParticipant S) (kind : MediaKind) :
    (SfuShard.popSourceHint q kind).2 = ((q.pendingSourceHints.lookup kind).getD []).head? := by
  unfold SfuShard.popSourceHint
  rcases q.pendingSourceHints.lookup kind with _ | _ | ⟨source, rest⟩ <;> rfl

theorem popSourceHint_queues (q : SfuParticipant S) (kind kind' : MediaKind) :
    ((SfuShard.popSourceHint q kind).1.pendingSourceHints.lookup kind').getD [] =
      if kind' = kind then ((q.pendingSourceHints.lookup kind).getD []).tail
      else (q.pendingSourceHints.lookup kind').getD [] := by
  unfold SfuShard.popSourceHint
  rcases hl : q.pendingSourceHints.lookup kind with _ | _ | ⟨source, rest⟩
  · split_ifs with hk
    · rw [hk, hl]
      rfl
    · rfl
  · split_ifs with hk
    · rw [hk, hl]
      rfl
    · rfl
  · dsimp only
    rw [Dict.lookup_insert_eq]
    split_ifs <;> rfl

/-- Everything else is left alone. -/
theorem popSourceHint_rest (q : SfuParticipant S) (kind : MediaKind) :
    (SfuShard.popSourceHint q kind).1 =
      { q with pendingSourceHints := (SfuShard.popSourceHint q kind).1.pendingSourceHints } := by
  unfold SfuShard.popSourceHint
  split <;> rfl

/-- The participant after a track was announced. -/
theorem participant?_mediaAdded_self {q : SfuParticipant S}
    (hq : st.participant? sid pid = some q) (mid : Mid) (kind : MediaKind) :
    (st.mediaAdded sid pid mid kind).participant? sid pid = some
      { (SfuShard.popSourceHint q kind).1 with
        tracksIn := (SfuShard.popSourceHint q kind).1.tracksIn ++
          [⟨mid, kind, (SfuShard.popSourceHint q kind).2.getD .camera, 64⟩] } := by
  obtain ⟨s, hs, hlook⟩ := SfuShard.participant?_eq_some.mp hq
  simp only [SfuShard.mediaAdded, hs, hlook]
  rw [SfuShard.participant?_recordTrack, if_pos rfl, Dict.lookup_modify, if_pos rfl, hlook]
  simp

/-- `Event::MediaAdded`, for the line that is reported. -/
theorem shows_mediaAdded (h : p.Shows st sid pid) {l : MediaLine} {rest : List MediaLine}
    (hl : p.added = l :: rest) :
    p.mediaAdded.Shows (st.mediaAdded sid pid l.mid l.kind) sid pid := by
  rw [mediaAdded_eq hl]
  rcases hq : st.participant? sid pid with _ | q
  · have hgone : (st.mediaAdded sid pid l.mid l.kind).participant? sid pid = none := by
      have hrel := SfuShard.participant?_mediaAdded st sid pid l.mid l.kind sid pid
      rw [hq] at hrel
      exact hrel.none_left
    have hnot := (Negotiator.tracks_none hq).mp h.negotiator
    exact ⟨(Negotiator.tracks_none hgone).mpr hnot, fun q hq' => by rw [hgone] at hq'; cases hq'⟩
  · obtain ⟨hjoined, ht⟩ := (Negotiator.tracks_some hq).mp h.negotiator
    have hlabels := h.labels q hq
    have hq' := participant?_mediaAdded_self hq l.mid l.kind
    rw [popSourceHint_rest] at hq'
    refine ⟨(Negotiator.tracks_some hq').mpr ⟨hjoined, ht.1, ht.2⟩, fun q' hq'' => ?_⟩
    obtain rfl := Option.some_inj.mp (hq'.symm.trans hq'')
    refine ⟨fun kind => ?_, ?_⟩
    · dsimp only
      rw [popSourceHint_queues, hlabels.hints, hlabels.hints]
      split_ifs with hk
      · rw [hk, Function.update_self, List.map_tail]
      · rw [Function.update_of_ne hk]
    · dsimp only
      rw [List.map_append, List.map_append, hlabels.tracksIn, popSourceHint_hint, hlabels.hints,
        List.head?_map]
      rfl

/-! ### Offers and answers -/

/-- A participant is written back with the queues and tracks it had. -/
theorem sameLabels_setParticipant {q q' : SfuParticipant S}
    (hq : st.participant? sid pid = some q) (hs : SameLabels q q') :
    Option.Rel SameLabels (st.participant? sid pid)
      ((st.setParticipant sid pid q').participant? sid pid) := by
  rw [participant?_setParticipant_self hq, hq]
  exact .some hs

theorem sameLabels_handleClientOffer (st : SfuShard S) (sid : SessionId) (pid : ParticipantId)
    (sdpOffer : String) : Option.Rel SameLabels (st.participant? sid pid)
      ((st.handleClientOffer sid pid sdpOffer).1.participant? sid pid) :=
  SfuShard.handleClientOffer_cases
    (P := fun st' => Option.Rel SameLabels (st.participant? sid pid) (st'.participant? sid pid))
    (Option.Rel.refl .refl _) (fun hq => sameLabels_setParticipant hq ⟨rfl, rfl⟩)
    (fun hq _ => sameLabels_setParticipant hq ⟨rfl, rfl⟩)
    fun hq _ => sameLabels_setParticipant hq ⟨rfl, rfl⟩

theorem sameLabels_drainQueuedOffer (st : SfuShard S) (sid : SessionId) (pid : ParticipantId) :
    Option.Rel SameLabels (st.participant? sid pid)
      ((st.drainQueuedOffer sid pid).participant? sid pid) := by
  unfold SfuShard.drainQueuedOffer
  rcases hq : st.participant? sid pid with _ | q
  · rw [hq]
    exact .none
  · dsimp only
    split
    · rw [hq]
      exact .some (.refl q)
    · have hset : SameLabels q { q with queuedClientOffer := none } := ⟨rfl, rfl⟩
      rw [← hq]
      exact Option.Rel.trans (R := SameLabels) SameLabels.trans
        (sameLabels_setParticipant hq hset) (sameLabels_handleClientOffer _ sid pid _)

/-- An answer opens subscriptions and asks publishers for keyframes. -/
theorem sameLabels_takeAnswer {s : SfuSession S} {q : SfuParticipant S} (now : Instant)
    (answer : S.SdpAnswer) (hq : st.participant? sid pid = some q) :
    Option.Rel SameLabels (st.participant? sid pid)
      ((Negotiator.takeAnswer st now sid pid s q answer).participant? sid pid) := by
  unfold Negotiator.takeAnswer
  split
  · exact Option.Rel.refl .refl _
  · split
    · exact sameLabels_setParticipant hq ⟨rfl, rfl⟩
    · rename_i rtc _
      rw [hq, SfuShard.participant?_setSession, if_pos rfl]
      have hrel := Negotiator.rel_foldl_requestKeyframe (R := SameLabels) .refl
        (fun _ _ => ⟨rfl, rfl⟩) SameLabels.trans now pid (SfuShard.newlyOpened q)
        (SfuShard.registerTracks s pid q rtc)
      rw [SfuShard.lookup_registerTracks, if_pos rfl] at hrel
      have hanswered : SameLabels q (SfuShard.answeredParticipant q rtc) := ⟨rfl, rfl⟩
      exact Option.Rel.trans (R := SameLabels) SameLabels.trans (.some hanswered) hrel

theorem sameLabels_handleAnswer (st : SfuShard S) (now : Instant) (sid : SessionId)
    (pid : ParticipantId) (sdpAnswer : String) : Option.Rel SameLabels (st.participant? sid pid)
      ((st.handleAnswer now sid pid sdpAnswer).1.participant? sid pid) := by
  unfold SfuShard.handleAnswer
  split
  · exact Option.Rel.refl .refl _
  · rename_i s hs
    split
    · exact Option.Rel.refl .refl _
    · rename_i q hlook
      split
      · exact Option.Rel.refl .refl _
      · rename_i answer _
        have hq : st.participant? sid pid = some q :=
          SfuShard.participant?_eq_some.mpr ⟨s, hs, hlook⟩
        exact Option.Rel.trans (R := SameLabels) SameLabels.trans
          (sameLabels_takeAnswer (s := s) now answer hq) (sameLabels_drainQueuedOffer _ sid pid)

/-- Where the queues and tracks of the participant are left alone, only the negotiation
counts. -/
theorem shows_exchange {st' : SfuShard S} {r : Negotiator × List SfuMessage}
    (h : p.Shows st sid pid) (hr : r.1.Tracks st' sid pid)
    (hsame : Option.Rel SameLabels (st.participant? sid pid) (st'.participant? sid pid)) :
    (p.exchange lines r).Shows st' sid pid := by
  have hlabels : ∀ q', st'.participant? sid pid = some q' → p.HasLabels q' := by
    intro q' hq'
    rw [hq'] at hsame
    obtain ⟨q, hq, hs⟩ := hsame.some_right
    exact (h.labels q hq).same hs
  unfold exchange
  split <;> exact ⟨hr, fun q' hq' => ⟨(hlabels q' hq').hints, (hlabels q' hq').tracksIn⟩⟩

/-- `handle_client_offer`, for an offer that can be read. -/
theorem shows_handleClientOffer (h : p.Shows st sid pid) {sdpOffer : String} {sdp : S.SdpOffer}
    (hread : S.readOffer sdpOffer = .ok sdp) (offer : ℕ) : ∃ accepts,
    (p.handleClientOffer lines accepts offer).Shows (st.handleClientOffer sid pid sdpOffer).1
      sid pid := by
  obtain ⟨accepts, ht, -⟩ := Negotiator.tracks_handleClientOffer h.negotiator hread offer
  exact ⟨accepts, shows_exchange h ht (sameLabels_handleClientOffer st sid pid sdpOffer)⟩

/-- `handle_answer`, for an answer that can be read. -/
theorem shows_handleAnswer (h : p.Shows st sid pid) (now : Instant) {sdpAnswer : String}
    {answer : S.SdpAnswer} (hread : S.readAnswer sdpAnswer = .ok answer) : ∃ accepts,
    (p.handleAnswer lines accepts).Shows (st.handleAnswer now sid pid sdpAnswer).1 sid pid := by
  obtain ⟨accepts, ht, -⟩ := Negotiator.tracks_handleAnswer h.negotiator now hread
  exact ⟨accepts, shows_exchange h ht (sameLabels_handleAnswer st now sid pid sdpAnswer)⟩

/-- Whoever has joined anew has no hint and no track. -/
theorem labels_handleJoin (st : SfuShard S) (creds : IceCreds) (now : Instant) (userId : String)
    (sdpOffer : String) (replyTx : WsTx) {q : SfuParticipant S} {sdp : S.SdpOffer}
    (hread : S.readOffer sdpOffer = .ok sdp)
    (hq : (st.handleJoin creds now sid pid userId sdpOffer replyTx).1.participant? sid pid =
      some q) : q.pendingSourceHints = ∅ ∧ q.tracksIn = [] := by
  have hnone := SfuShard.participant?_kickPrior st sid pid
  unfold SfuShard.handleJoin at hq
  generalize st.kickPrior sid pid = st₁ at hnone hq
  rcases hacc : S.acceptOffer (S.sdpApi (st₁.buildRtc creds now)) sdp with ⟨rtc, e | answer⟩
  · simp only [hread, hacc] at hq
    exact absurd (hnone.symm.trans hq) nofun
  · simp only [hread, hacc] at hq
    rw [SfuShard.participant?_addParticipant, if_pos ⟨rfl, rfl⟩] at hq
    obtain rfl := Option.some_inj.mp hq
    exact ⟨rfl, rfl⟩

/-- `handle_join`, for an offer that can be read. -/
theorem shows_handleJoin (p : Publisher) (st : SfuShard S) (creds : IceCreds) (now : Instant)
    (userId : String) {sdpOffer : String} (replyTx : WsTx) {sdp : S.SdpOffer}
    (hread : S.readOffer sdpOffer = .ok sdp) (offer : ℕ) : ∃ accepts,
    (p.handleJoin lines accepts offer).Shows
      (st.handleJoin creds now sid pid userId sdpOffer replyTx).1 sid pid := by
  obtain ⟨accepts, ht⟩ : ∃ accepts, (p.negotiator.handleJoin accepts offer).1.Tracks
      (st.handleJoin creds now sid pid userId sdpOffer replyTx).1 sid pid :=
    (Negotiator.tracks_handleJoin _ st creds now userId replyTx hread offer).imp fun _ h => h.1
  refine ⟨accepts, ?_⟩
  have hlabels : ∀ q, (st.handleJoin creds now sid pid userId sdpOffer replyTx).1.participant? sid
      pid = some q → p.gone.HasLabels q := by
    intro q hq
    obtain ⟨hhints, htracks⟩ := labels_handleJoin st creds now userId sdpOffer replyTx hread hq
    exact ⟨fun kind => by rw [hhints]; rfl, by rw [htracks]; rfl⟩
  unfold handleJoin exchange
  split <;> exact ⟨ht, fun q hq => ⟨(hlabels q hq).hints, (hlabels q hq).tracksIn⟩⟩

/-! ### Leaves, and the offers of the SFU -/

/-- `handle_leave`. -/
theorem shows_handleLeave (p : Publisher) (st : SfuShard S) (sid : SessionId)
    (pid : ParticipantId) : p.handleLeave.Shows (st.handleLeave sid pid).1 sid pid := by
  have hgone := SfuShard.participant?_handleLeave st sid pid
  refine ⟨(Negotiator.tracks_none hgone).mpr rfl, fun q hq => ?_⟩
  rw [hgone] at hq
  cases hq

theorem Shows.congr {st' : SfuShard S} (h : p.Shows st sid pid)
    (heq : st'.participant? sid pid = st.participant? sid pid) : p.Shows st' sid pid := by
  refine ⟨?_, fun q hq => h.labels q (heq ▸ hq)⟩
  rw [Negotiator.Tracks, heq]
  exact h.negotiator

/-- Only the negotiation of the participant has gone on. -/
theorem Shows.negotiated {st' : SfuShard S} {n : Negotiator} (h : p.Shows st sid pid)
    (hn : n.Tracks st' sid pid)
    (hsame : Option.Rel SameLabels (st.participant? sid pid) (st'.participant? sid pid)) :
    Shows { p with negotiator := n } st' sid pid := by
  refine ⟨hn, fun q' hq' => ?_⟩
  rw [hq'] at hsame
  obtain ⟨q, hq, hs⟩ := hsame.some_right
  have hlabels := (h.labels q hq).same hs
  exact ⟨hlabels.hints, hlabels.tracksIn⟩

/-- The publisher shows the state, perhaps with an offer that the SFU has made meanwhile. -/
def ShowsOffered (p : Publisher) (st : SfuShard S) (sid : SessionId) (pid : ParticipantId) : Prop :=
  p.Shows st sid pid ∨ p.makeOffer.Shows st sid pid

/-- While an offer awaits its answer, no other is made. -/
theorem makeOffer_makeOffer (p : Publisher) : p.makeOffer.makeOffer = p.makeOffer := by
  rcases p with ⟨⟨_ | _, _ | pending, queued, offers⟩, _⟩ <;> rfl

theorem ShowsOffered.congr {st' : SfuShard S} (h : p.ShowsOffered st sid pid)
    (heq : st'.participant? sid pid = st.participant? sid pid) : p.ShowsOffered st' sid pid :=
  h.imp (fun hshows => hshows.congr heq) fun hshows => hshows.congr heq

/-- **Turns of a loop** each of which makes at most one offer make at most one together. -/
theorem ShowsOffered.foldl {ε : Type} {turn : SfuShard S → ε → SfuShard S}
    (hturn : ∀ (p : Publisher) (st : SfuShard S) (e : ε), p.Shows st sid pid →
      p.ShowsOffered (turn st e) sid pid) (es : List ε) (h : p.ShowsOffered st sid pid) :
    p.ShowsOffered (es.foldl turn st) sid pid := by
  induction es generalizing st with
  | nil => exact h
  | cons e es ih =>
    refine ih ?_
    rcases h with h | h
    · exact hturn p st e h
    · refine .inr ?_
      rcases hturn _ st e h with h | h
      · exact h
      · rwa [makeOffer_makeOffer] at h

theorem sameLabels_negotiateOne : Option.Rel SameLabels (st.participant? sid pid)
    ((SfuShard.negotiateOne st (sid, pid)).participant? sid pid) :=
  SfuShard.negotiateOne_cases
    (P := fun st' => Option.Rel SameLabels (st.participant? sid pid) (st'.participant? sid pid))
    (Option.Rel.refl .refl _) (fun _ => Option.Rel.refl .refl _)
    (fun hq => sameLabels_setParticipant hq ⟨rfl, rfl⟩)
    (fun hq _ _ _ => sameLabels_setParticipant hq ⟨rfl, rfl⟩)
    fun hq _ _ _ => sameLabels_setParticipant hq ⟨rfl, rfl⟩

theorem shows_negotiateOne (h : p.Shows st sid pid) (e : SessionId × ParticipantId) :
    p.ShowsOffered (SfuShard.negotiateOne st e) sid pid := by
  by_cases he : (sid, pid) = e
  · subst he
    rcases hq : st.participant? sid pid with _ | q
    · have hstays : SfuShard.negotiateOne st (sid, pid) = st := by
        rw [SfuShard.negotiateOne]
        split
        · rfl
        · rename_i s hs
          rw [SfuShard.participant?, hs] at hq
          have hlook : s.participants.lookup pid = none := hq
          simp only [hlook]
      exact .inl (h.congr (by rw [hstays]))
    · exact (Negotiator.tracks_negotiateOne h.negotiator hq).imp
        (fun ht => h.negotiated ht.1 sameLabels_negotiateOne)
        fun ht => h.negotiated ht.1 sameLabels_negotiateOne
  · exact .inl (h.congr (SfuShard.participant?_negotiateOne st he))

/-- `negotiate_pending_tracks`. -/
theorem shows_negotiatePendingTracks (h : p.Shows st sid pid) :
    p.ShowsOffered st.negotiatePendingTracks sid pid := by
  have hstart : p.Shows { st with pendingNegotiation := ∅ } sid pid := h.congr rfl
  exact ShowsOffered.foldl (fun p st e hshows => shows_negotiateOne hshows e) _ (.inl hstart)

theorem sameLabels_deactivate (mids : List Mid) : Option.Rel SameLabels
    (st.participant? sid pid)
    ((SfuShard.deactivate sid st (pid, mids)).participant? sid pid) :=
  SfuShard.deactivate_cases
    (P := fun st' => Option.Rel SameLabels (st.participant? sid pid) (st'.participant? sid pid))
    (Option.Rel.refl .refl _) (fun hq => sameLabels_setParticipant hq ⟨rfl, rfl⟩)
    (fun hq _ => sameLabels_setParticipant hq ⟨rfl, rfl⟩)
    fun hq _ _ _ => sameLabels_setParticipant hq ⟨rfl, rfl⟩

theorem participant?_deactivate_of_ne {sid' : SessionId} {e : ParticipantId × List Mid}
    (hne : ¬(sid = sid' ∧ pid = e.1)) :
    (SfuShard.deactivate sid' st e).participant? sid pid = st.participant? sid pid := by
  have hset {q : SfuParticipant S} (hq : st.participant? sid' e.1 = some q)
      (q' : SfuParticipant S) :
      (st.setParticipant sid' e.1 q').participant? sid pid = st.participant? sid pid := by
    rw [SfuShard.participant?_setParticipant hq, if_neg hne]
  exact SfuShard.deactivate_cases
    (P := fun st' => st'.participant? sid pid = st.participant? sid pid) rfl
    (fun hq => hset hq _) (fun hq _ => hset hq _) fun hq _ _ _ => hset hq _

theorem shows_deactivate (h : p.Shows st sid pid) (sid' : SessionId)
    (e : ParticipantId × List Mid) : p.ShowsOffered (SfuShard.deactivate sid' st e) sid pid := by
  obtain ⟨pid', mids⟩ := e
  by_cases he : sid = sid' ∧ pid = pid'
  · obtain ⟨rfl, rfl⟩ := he
    rcases hq : st.participant? sid pid with _ | q
    · have hstays : SfuShard.deactivate sid st (pid, mids) = st := by
        simp only [SfuShard.deactivate, hq]
      exact .inl (h.congr (by rw [hstays]))
    · exact (Negotiator.tracks_deactivate h.negotiator mids hq).imp
        (fun ht => h.negotiated ht.1 (sameLabels_deactivate mids))
        fun ht => h.negotiated ht.1 (sameLabels_deactivate mids)
  · exact .inl (h.congr (participant?_deactivate_of_ne he))

/-- Who goes takes the subscriptions to his tracks along, and no hint and no track of others. -/
theorem shows_leaveStart (h : p.Shows st sid pid) {sid' : SessionId} {pid' : ParticipantId}
    {s : SfuSession S} (hs : st.session? sid' = some s) (hne : (sid', pid') ≠ (sid, pid)) :
    p.Shows (st.leaveStart sid' pid' s) sid pid := by
  have hafter : (st.leaveStart sid' pid' s).participant? sid pid =
      if sid = sid' then (st.participant? sid pid).map fun q =>
        { q with tracksOut := q.tracksOut.filter fun t => t.origin ≠ pid' }
      else st.participant? sid pid := by
    rw [SfuShard.leaveStart, SfuShard.participant?_setSession]
    by_cases hsid : sid = sid'
    · subst hsid
      have hpid : pid ≠ pid' := fun heq => hne (by rw [heq])
      rw [if_pos rfl, if_pos rfl, SfuShard.lookup_dropParticipant, if_neg hpid,
        SfuShard.participant?, hs]
      rfl
    · rw [if_neg hsid, if_neg hsid]
      rfl
  split_ifs at hafter with hsid
  · rcases hq : st.participant? sid pid with _ | q
    · rw [hq] at hafter
      exact h.congr (hafter.trans hq.symm)
    · rw [hq, Option.map_some] at hafter
      obtain ⟨hjoined, ht⟩ := (Negotiator.tracks_some hq).mp h.negotiator
      refine ⟨(Negotiator.tracks_some hafter).mpr ⟨hjoined, ht.1, ht.2⟩, fun q' hq' => ?_⟩
      obtain rfl := Option.some.inj (hafter.symm.trans hq')
      exact ⟨(h.labels q hq).hints, (h.labels q hq).tracksIn⟩
  · exact h.congr hafter

/-- `handle_leave`, of somebody else. -/
theorem shows_handleLeave_of_ne (h : p.Shows st sid pid) {sid' : SessionId} {pid' : ParticipantId}
    (hne : (sid', pid') ≠ (sid, pid)) :
    p.ShowsOffered (st.handleLeave sid' pid').1 sid pid := by
  rcases SfuShard.handleLeave_cases st sid' pid' with ⟨-, heq⟩ | ⟨s, st₁, hs, hst₁, hend⟩
  · rw [heq]
    exact .inl (h.congr rfl)
  · have hloop : p.ShowsOffered st₁ sid pid := by
      rw [hst₁]
      exact ShowsOffered.foldl (fun p st e hshows => shows_deactivate hshows sid' e) _
        (.inl (shows_leaveStart h hs hne))
    rcases hend with ⟨s₁, hs₁, hempty, heq⟩ | ⟨heq, -⟩
    · -- an empty session that is removed has no participant
      rw [heq]
      refine hloop.congr ?_
      rw [SfuShard.participant?, SfuShard.session?, Dict.lookup_erase_eq]
      by_cases hsid : sid = sid'
      · subst hsid
        rw [if_pos rfl, SfuShard.participant?, hs₁]
        exact (Dict.isEmpty_iff.mp hempty pid).symm
      · rw [if_neg hsid]
        rfl
    · rwa [heq]

end Publisher

open Publisher

/-- **The sources of tracks.** In every run the hints label the new tracks of their kind in
the order in which they came, whatever becomes of the offers. In the runs whose lines meet
the hints every track is labelled with the hint that was declared for it, and the first
step at which they do not meet leads to a track that is not. -/
theorem sources_of_reach (lines : ℕ → List MediaLine) :
    (∀ p, (system lines).Reachable p → p.Fifo) ∧
      ∀ p, (system lines).Reach (Fits lines) p → (∀ t ∈ p.tracksIn, t.Right) ∧
        ∀ a, (∀ t ∈ (p.next lines a).settled.tracksIn, t.Right) ↔ Fits lines p a := by
  refine ⟨fun p h => fifo_of_reach h, fun p h => ?_⟩
  have hok := ok_of_reach h
  refine ⟨hok.right, fun a => ?_⟩
  rw [right_settled_iff (right_next hok.paired hok.right a)]
  exact paired_next_iff hok.paired hok.vacant a

namespace Publisher

/-- A screen is shared while the camera is switched on: the first offer sends the camera
only, the second both, and the third the screen only. -/
def sharing : ℕ → List MediaLine
  | 1 => [⟨0, .video, "camera"⟩]
  | 2 => [⟨0, .video, "camera"⟩, ⟨1, .video, "screen"⟩]
  | 3 => [⟨1, .video, "screen"⟩]
  | _ => []

/-- A hint that a screen is going to be shared. -/
def screenHint : SourceHint := ⟨.screen, .video, "screen"⟩

/-- The hint comes before the offer with the camera, which was made earlier. -/
def crossed : Publisher :=
  [Act.join true 0, .publishTrack screenHint, .clientOffer true 1, .mediaAdded,
    .clientOffer true 2, .mediaAdded].foldl (next sharing) {}

/-- The offer with the screen is rejected, and then the camera is switched on. -/
def leaked : Publisher :=
  [Act.join true 0, .publishTrack screenHint, .clientOffer false 3, .clientOffer true 1,
    .mediaAdded].foldl (next sharing) {}

/-- The screen alone. -/
def shared : Publisher :=
  [Act.join true 0, .publishTrack screenHint, .clientOffer true 3, .mediaAdded].foldl
    (next sharing) {}

theorem reach_shared : (system sharing).Reach (Fits sharing) shared := by
  have hjoin : Fits sharing {} (.join true 0) := fun _ => nofun
  have h₁ := (System.Reach.start (M := system sharing) rfl).step hjoin rfl
  have hhint : Fits sharing (next sharing {} (.join true 0)) (.publishTrack screenHint) :=
    Labels.allPaired_nil
  have h₂ := h₁.step hhint rfl
  have hoffer : Fits sharing (next sharing (next sharing {} (.join true 0))
      (.publishTrack screenHint)) (.clientOffer true 3) :=
    fun _ _ _ => Labels.allPaired_cons.mpr ⟨rfl, Labels.allPaired_nil⟩
  exact (h₂.step hoffer rfl).step (l := Act.mediaAdded) trivial rfl

end Publisher

/-- **A camera becomes a screen**: the hint for the screen labels the camera, whose offer
was under way, and the screen is a camera. And the hint of an offer that is rejected labels
the camera that comes later. -/
theorem camera_as_screen :
    ((system sharing).Reachable crossed ∧
      crossed.tracksIn.map (fun t => (t.line.track, t.source)) =
        [("camera", .screen), ("screen", .camera)] ∧ ¬ ∀ t ∈ crossed.tracksIn, t.Right) ∧
    (system sharing).Reachable leaked ∧
      leaked.tracksIn.map (fun t => (t.line.track, t.source)) = [("camera", .screen)] ∧
        ¬ ∀ t ∈ leaked.tracksIn, t.Right := by
  refine ⟨⟨System.reachable_foldl rfl (fun _ _ => rfl) _, rfl, fun h => ?_⟩,
    System.reachable_foldl rfl (fun _ _ => rfl) _, rfl, fun h => ?_⟩
  · exact absurd (h _ (List.mem_cons_self ..)).1 (by decide)
  · exact absurd (h _ (List.mem_cons_self ..)).1 (by decide)

/-- A screen that is shared in order. -/
theorem shared_as_screen :
    (∀ t ∈ shared.tracksIn, t.Right) ∧
      shared.tracksIn.map (fun t => (t.line.track, t.source)) = [("screen", .screen)] :=
  ⟨((sources_of_reach sharing).2 shared reach_shared).1, rfl⟩

end Video

end MateHub
