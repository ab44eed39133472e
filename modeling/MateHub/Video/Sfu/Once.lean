import MateHub.Video.Sfu.Numbering
import MateHub.Video.Sfu.Stages

/-!
# A packet is written once to each of its subscribers

The subscribers of a track stand once each on its list, so the loop that forwards a packet comes
to each of them once. What it does there depends on the subscriber alone
(`MateHub.Video.SfuParticipant.given`): the packet is written if the subscriber has negotiated its
codec and has a stream for it. Nobody else is written to, and the list is put back.
-/

namespace MateHub

namespace Video

variable {S : Str0m}

/-- The transport of a subscriber after a packet has come to it under a mid. -/
def SfuParticipant.given (p : SfuParticipant S) (mid : Mid) (pkt : RtpPacket) (kind : MediaKind)
    (pp : S.PayloadParams) : S.Rtc :=
  match S.matchParams p.rtc pp, p.tracksOut.find? fun t => t.openMid = some mid with
  | some params, some t => (S.writeRtp p.rtc mid
      (pkt.egress kind (S.pt params) (t.rewriteSeq pkt.ssrc pkt.seqNo).2)).getD p.rtc
  | _, _ => p.rtc

namespace SfuShard

variable {st st' : SfuShard S} {sid sid' : SessionId} {q : ParticipantId} {pkt : RtpPacket}
  {kind : MediaKind} {pp : S.PayloadParams}

/-! ### The loop -/

/-- A turn concerns its subscriber only. -/
theorem participant?_forwardTo_of_ne {target : TrackKey} (hne : ¬ (sid' = sid ∧ q = target.1)) :
    (forwardTo sid pkt kind pp st target).participant? sid' q = st.participant? sid' q := by
  unfold forwardTo
  split
  · rfl
  · rename_i p hp
    have hset (p' : SfuParticipant S) : (st.setParticipant sid target.1 p').participant? sid' q =
        st.participant? sid' q := by
      rw [participant?_setParticipant hp, if_neg hne]
    split
    · rfl
    · split
      · rfl
      · dsimp only
        split
        · exact hset _
        · exact hset _

variable (pkt kind pp) in
/-- What the turn of a subscriber does to it. -/
theorem rtc_forwardTo (target : TrackKey) {p : SfuParticipant S}
    (hp : st.participant? sid target.1 = some p) :
    ∃ p', (forwardTo sid pkt kind pp st target).participant? sid target.1 = some p' ∧
      p'.rtc = p.given target.2 pkt kind pp := by
  have hset (p' : SfuParticipant S) :
      (st.setParticipant sid target.1 p').participant? sid target.1 = some p' := by
    rw [participant?_setParticipant hp, if_pos ⟨rfl, rfl⟩]
  unfold forwardTo
  rw [hp]
  dsimp only
  rw [SfuParticipant.given]
  split
  · rename_i hparams
    exact ⟨p, hp, by simp [hparams]⟩
  · rename_i params hparams
    split
    · rename_i hfind
      exact ⟨p, hp, by simp [hparams, hfind]⟩
    · rename_i t hfind
      simp only [hparams, hfind]
      have hrtc : (advanceSeq p target.2 pkt).rtc = p.rtc := rfl
      rw [hrtc]
      split
      · rename_i hwrite
        exact ⟨_, hset _, by rw [hwrite]; rfl⟩
      · rename_i rtc hwrite
        exact ⟨_, hset _, by rw [hwrite]; rfl⟩

variable (pkt kind pp) in
theorem participant?_foldl_forwardTo_of_not_mem {targets : List TrackKey}
    (hne : ¬ (sid' = sid ∧ q ∈ targets.map Prod.fst)) (st : SfuShard S) :
    (targets.foldl (forwardTo sid pkt kind pp) st).participant? sid' q = st.participant? sid' q :=
  List.foldlRecOn targets _ (motive := fun st' : SfuShard S =>
    st'.participant? sid' q = st.participant? sid' q) rfl fun st' hst' target htarget => by
      rw [participant?_forwardTo_of_ne, hst']
      rintro ⟨rfl, rfl⟩
      exact hne ⟨rfl, List.mem_map_of_mem htarget⟩

variable (pkt kind pp) in
/-- **The loop comes once to each subscriber**, if each stands once on the list. -/
theorem rtc_foldl_forwardTo {targets : List TrackKey} (hnodup : (targets.map Prod.fst).Nodup)
    {m : Mid} (hmem : (q, m) ∈ targets) {p : SfuParticipant S}
    (hp : st.participant? sid q = some p) :
    ∃ p', (targets.foldl (forwardTo sid pkt kind pp) st).participant? sid q = some p' ∧
      p'.rtc = p.given m pkt kind pp := by
  obtain ⟨before, after, rfl⟩ := List.append_of_mem hmem
  rw [List.map_append, List.map_cons, List.nodup_append] at hnodup
  obtain ⟨-, hafter, hdisjoint⟩ := hnodup
  have hbefore : q ∉ before.map Prod.fst := fun hq => hdisjoint q hq q List.mem_cons_self rfl
  have hafter : q ∉ after.map Prod.fst := (List.nodup_cons.mp hafter).1
  rw [List.foldl_append, List.foldl_cons]
  have hsame := participant?_foldl_forwardTo_of_not_mem pkt kind pp
    (fun h => hbefore h.2 : ¬ (sid = sid ∧ q ∈ before.map Prod.fst)) st
  obtain ⟨p', hp', hrtc⟩ := rtc_forwardTo pkt kind pp (q, m) (hsame.trans hp)
  refine ⟨p', ?_, hrtc⟩
  rw [participant?_foldl_forwardTo_of_not_mem pkt kind pp fun h => hafter h.2]
  exact hp'

/-- The subscribers of a track. -/
def subscribers (st : SfuShard S) (sid : SessionId) (key : TrackKey) : List ParticipantId :=
  (st.targets sid key).map Prod.fst

/-- **A packet is written once to each subscriber of a track**, to nobody else, and the lists of
subscribers are left as they were. -/
structure ForwardsOnce (sid : SessionId) (key : TrackKey) (pkt : RtpPacket) (kind : MediaKind)
    (pp : S.PayloadParams) (st st' : SfuShard S) : Prop where
  listed : (st.subscribers sid key).Nodup
  written : ∀ q m p, (q, m) ∈ st.targets sid key → st.participant? sid q = some p →
    ∃ p', st'.participant? sid q = some p' ∧ p'.rtc = p.given m pkt kind pp
  others : ∀ sid' q, ¬ (sid' = sid ∧ q ∈ st.subscribers sid key) →
    Option.Rel (fun p p' => p'.rtc = p.rtc) (st.participant? sid' q) (st'.participant? sid' q)
  targets : ∀ sid' k, st'.targets sid' k = st.targets sid' k

variable (pkt kind pp) in
/-- The loop, with the list that it takes out and puts back. -/
theorem participant?_forwardToAll (st : SfuShard S) (sid : SessionId) (key : TrackKey) :
    ∃ st₁ : SfuShard S, (∀ sid' q, st₁.participant? sid' q = st.participant? sid' q) ∧
      ∀ sid' q, (st.forwardToAll sid key (forwardTo sid pkt kind pp)).participant? sid' q =
        ((st.targets sid key).foldl (forwardTo sid pkt kind pp) st₁).participant? sid' q := by
  rcases hkey : (st.session? sid).bind fun s => s.forwardingMap.lookup key with _ | targets
  · have hnil : st.targets sid key = [] := by
      rw [SfuShard.targets]
      rcases hs : st.session? sid with _ | s
      · rfl
      · rw [hs, Option.bind_some] at hkey
        rw [Option.map_some, Option.getD_some, SfuSession.targets, hkey, Option.getD_none]
    refine ⟨st, fun _ _ => rfl, fun sid' q => ?_⟩
    rw [forwardToAll, hkey, hnil]
    rfl
  · have hlist : st.targets sid key = targets := by
      obtain ⟨s, hs, hlookup⟩ := Option.bind_eq_some_iff.mp hkey
      rw [SfuShard.targets, hs, Option.map_some, Option.getD_some, SfuSession.targets, hlookup,
        Option.getD_some]
    rw [forwardToAll, hkey, hlist]
    rcases targets with _ | ⟨target, targets⟩
    · exact ⟨st, fun _ _ => rfl, participant?_modify st sid
        (f := fun s => { s with forwardingMap := s.forwardingMap.erase key }) fun _ => rfl⟩
    · exact ⟨st.setTargets sid key [], fun sid' q => participant?_setTargets st sid sid' key [] q,
        fun sid' q => participant?_setTargets _ sid sid' key _ q⟩

/-! ### The event -/

/-- A packet that is to be forwarded: its SSRC is known as that of a section of the publisher, of
the layer that is forwarded; its payload type is known, and not one of retransmissions; and the
filter lets the track through. -/
structure ToForward (st : SfuShard S) (sid : SessionId) (key : TrackKey) (pkt : RtpPacket)
    (kind : MediaKind) (pp : S.PayloadParams) : Prop where
  publisher : ∃ p rid track, st.participant? sid key.1 = some p ∧
    S.streamRx p.rtc pkt.ssrc = some (key.2, rid) ∧ rid.all (· = "h") = true ∧
    (p.tracksIn.find? fun t => t.mid = key.2) = some track ∧ track.kind = kind ∧
    S.findPayload p.rtc pkt.payloadType = some pp
  media : S.isRtx pp = false
  letsThrough : st.letsThrough sid key = true

/-- The packet is heard, and the subscribers are gone through. -/
theorem ToForward.handleEvent_eq {key : TrackKey} (h : st.ToForward sid key pkt kind pp)
    (now : Instant) : ∃ p, st.participant? sid key.1 = some p ∧
      st.handleEvent now sid key.1 (.rtpPacket pkt) =
        (st.setParticipant sid key.1 (hearPacket p key.2 pkt)).forwardToAll sid key
          (forwardTo sid pkt kind pp) := by
  obtain ⟨p, rid, track, hp, hstream, hlayer, htrack, rfl, hfind⟩ := h.publisher
  refine ⟨p, hp, ?_⟩
  obtain ⟨s, hs, hlookup⟩ := participant?_eq_some.mp hp
  have hlets := h.letsThrough
  rw [SfuShard.letsThrough, hs] at hlets
  dsimp only at hlets
  rw [hlookup, Option.bind_some, htrack] at hlets
  have hfilter : ¬ (track.kind = .audio ∧ (s.topAudioPublishers.lookup key).isNone = true) := by
    rintro ⟨haudio, hnone⟩
    dsimp only at hlets
    rw [Option.isNone_iff_eq_none.mp hnone, haudio] at hlets
    cases hlets
  rw [handleEvent, hp, Option.bind_some, hstream]
  dsimp only
  rw [if_pos hlayer, forwardRtp, hs]
  dsimp only
  rw [hlookup]
  dsimp only
  rw [htrack]
  dsimp only
  rw [hfind]
  dsimp only
  rw [if_neg (by rw [h.media]; exact Bool.false_ne_true), if_neg hfilter]

theorem targets_setParticipant (st : SfuShard S) (sid sid' : SessionId) (pid : ParticipantId)
    (p : SfuParticipant S) (k : TrackKey) :
    (st.setParticipant sid pid p).targets sid' k = st.targets sid' k := by
  rw [SfuShard.targets, SfuShard.targets, session?_setParticipant]
  split
  · rw [Option.map_map]
    rfl
  · rfl

/-- What leaves the frame alone leaves the lists of subscribers alone. -/
theorem Frame.targets_eq (h : st.Frame st') (sid : SessionId) (k : TrackKey) :
    st'.targets sid k = st.targets sid k := by
  have hrel := h.sessions sid
  rw [SfuShard.targets, SfuShard.targets]
  rcases hs : st.session? sid with _ | s
  · rw [hs] at hrel
    rw [hrel.none_left]
  · rw [hs] at hrel
    obtain ⟨s', hs', hframe⟩ := hrel.some_left
    rw [hs', Option.map_some, Option.map_some, Option.getD_some, Option.getD_some, hframe.targets]

/-- **A packet is handled**: it is written once to each subscriber. -/
theorem ToForward.forwardsOnce {key : TrackKey} (h : st.ToForward sid key pkt kind pp)
    (hlisted : (st.subscribers sid key).Nodup) (now : Instant) :
    ForwardsOnce sid key pkt kind pp st (st.handleEvent now sid key.1 (.rtpPacket pkt)) := by
  obtain ⟨p, hp, heq⟩ := h.handleEvent_eq now
  have hheard (sid' : SessionId) (q : ParticipantId) : Option.Rel
      (fun p p' : SfuParticipant S => p'.rtc = p.rtc ∧ p'.tracksOut = p.tracksOut)
      (st.participant? sid' q)
      ((st.setParticipant sid key.1 (hearPacket p key.2 pkt)).participant? sid' q) := by
    rw [participant?_setParticipant hp]
    by_cases hself : sid' = sid ∧ q = key.1
    · obtain ⟨rfl, rfl⟩ := hself
      rw [if_pos ⟨rfl, rfl⟩, hp]
      exact .some ⟨rfl, rfl⟩
    · rw [if_neg hself]
      exact Option.Rel.refl (fun _ => ⟨rfl, rfl⟩) _
  obtain ⟨st₁, hst₁, hloop⟩ := participant?_forwardToAll pkt kind pp
    (st.setParticipant sid key.1 (hearPacket p key.2 pkt)) sid key
  rw [targets_setParticipant] at hloop
  rw [heq]
  refine ⟨hlisted, fun q m r hmem hr => ?_, fun sid' q hne => ?_, fun sid' k => ?_⟩
  · have hrel := hheard sid q
    rw [hr] at hrel
    obtain ⟨r₁, hr₁, hrtc, htracks⟩ := hrel.some_left
    obtain ⟨r', hr', hgiven⟩ := rtc_foldl_forwardTo pkt kind pp hlisted hmem
      ((hst₁ sid q).trans hr₁)
    refine ⟨r', (hloop sid q).trans hr', hgiven.trans ?_⟩
    rw [SfuParticipant.given, SfuParticipant.given, hrtc, htracks]
  · rw [hloop, participant?_foldl_forwardTo_of_not_mem pkt kind pp hne, hst₁]
    exact (hheard sid' q).imp And.left
  · rw [← heq]
    exact (frame_handleEvent st now sid key.1 (e := .rtpPacket pkt) rfl).targets_eq sid' k

/-! ### The subscribers of a track -/

/-- In a shard that is in order each subscriber of a track stands once on its list. -/
theorem Sound.nodup_subscribers {R : S.MediaRecord} (h : st.Sound R) (sid : SessionId)
    (key : TrackKey) : (st.subscribers sid key).Nodup := by
  rw [subscribers, SfuShard.targets]
  rcases hs : st.session? sid with _ | s
  · exact List.nodup_nil
  · exact (h sid s hs).room.nodup_subscribers key.1 key.2

/-- A program keeps the shard in order, and handles every event in a shard in order. -/
def Vouches (R : S.MediaRecord) : Logged (SfuShard S) (HandledEvent S) := fun st log st' =>
  st.Sound R → st'.Sound R ∧ ∀ h ∈ log, h.before.Sound R

theorem composes_vouches (R : S.MediaRecord) : Logged.Composes (Vouches R) where
  refl := fun _ hst => ⟨hst, fun _ h => absurd h List.not_mem_nil⟩
  trans := by
    intro st log st' log' st'' h h' hst
    obtain ⟨hst', hlog⟩ := h hst
    obtain ⟨hst'', hlog'⟩ := h' hst'
    exact ⟨hst'', fun e he => (List.mem_append.mp he).elim (hlog e) (hlog' e)⟩

section Vouches

variable {R : S.MediaRecord} {now : Instant} {pid : ParticipantId} {log : List (HandledEvent S)}

theorem Sound.frame (h : st.Sound R) (hf : st.Frame st') : st'.Sound R :=
  h.moves (Moves.frame (E := fun _ => True) trivial hf)

theorem PollTurn.vouches (h : PollTurn now sid pid st log st') : Vouches R st log st' := by
  intro hst
  cases h with
  | @transmit _ p rtc _ _ hp halive hpoll =>
    have hcall := Str0m.Call.pollOutput p.rtc
    rw [hpoll] at hcall
    exact ⟨hst.frame (.setParticipant hp (.call hcall)), fun _ h => absurd h List.not_mem_nil⟩
  | @event _ p rtc e hp halive hpoll =>
    have hcall := Str0m.Call.pollOutput p.rtc
    rw [hpoll] at hcall
    have hturn := hst.turn now sid pid 1
    simp only [pollParticipant, hp, halive, hpoll, Bool.not_true, Bool.false_eq_true, if_false]
      at hturn
    refine ⟨hturn, fun h hmem => ?_⟩
    rw [List.mem_singleton.mp hmem]
    exact hst.frame (.setParticipant hp (.call hcall))

theorem PollEnd.vouches (h : PollEnd sid pid st log st') : Vouches R st log st' := by
  intro hst
  cases h with
  | gone => exact ⟨hst, fun _ h => absurd h List.not_mem_nil⟩
  | dead => exact ⟨hst, fun _ h => absurd h List.not_mem_nil⟩
  | @timeout _ p rtc _ hp halive hpoll =>
    have hcall := Str0m.Call.pollOutput p.rtc
    rw [hpoll] at hcall
    exact ⟨hst.frame (.setParticipant hp (.call hcall)), fun _ h => absurd h List.not_mem_nil⟩
  | @error _ p rtc _ hp halive hpoll =>
    have hcall := Str0m.Call.pollOutput p.rtc
    rw [hpoll] at hcall
    exact ⟨hst.frame (.setParticipant hp ⟨rfl, rfl, rfl, rfl, rfl,
      .tail (.single hcall) (.disconnect rtc)⟩), fun _ h => absurd h List.not_mem_nil⟩

theorem Exhausts.vouches (h : Exhausts now sid pid st log st') : Vouches R st log st' :=
  h.rel (composes_vouches R) (fun _ _ _ => PollTurn.vouches) fun _ _ _ => PollEnd.vouches

theorem ExhaustsSession.vouches (h : ExhaustsSession now sid st log st') : Vouches R st log st' :=
  Logged.ForEach.rel h (composes_vouches R) fun _ _ _ _ => Exhausts.vouches

theorem Flushes.vouches (h : Flushes now st log st') : Vouches R st log st' := by
  refine h.rel (composes_vouches R) (fun st log st' hturn => ?_) fun st log st' hend => ?_
  · obtain ⟨sid, pid, rest, -, hpolls⟩ := hturn
    have hvouches : Vouches R _ log st' := hpolls.vouches
    exact hvouches
  · obtain ⟨-, rfl, rfl⟩ := hend
    exact (composes_vouches R).refl st'

/-- **Every event of a stage is handled in a shard that is in order.** -/
theorem Performs.vouches {a : Stage} (h : Performs a st log st') (hst : st.Sound R) :
    ∀ h ∈ log, h.before.Sound R := by
  cases h with
  | @command cmd creds now _ _ _ h =>
    have hhandled := hst.moves (moves_handleCommand st cmd creds now 0)
    generalize (st.handleCommand creds now cmd).2 = target at h
    rcases target with _ | ⟨sid, pid⟩ | sid
    · obtain ⟨rfl, -⟩ := h
      exact fun _ h => absurd h List.not_mem_nil
    · exact (Exhausts.vouches h hhandled).2
    · exact (ExhaustsSession.vouches h hhandled).2
  | @tick now _ _ _ h =>
    have hhandled := hst.moves (moves_tick (E := fun _ => True) trivial (fun _ _ => trivial)
      (fun _ => trivial) st now fun _ _ => trivial)
    have hvouches : Vouches R (st.tick now) log st' :=
      Logged.ForEach.rel h (composes_vouches R) fun _ _ _ _ => ExhaustsSession.vouches
    exact (hvouches hhandled).2
  | flush h => exact (h.vouches hst).2
  | negotiate => exact fun _ h => absurd h List.not_mem_nil
  | drain => exact fun _ h => absurd h List.not_mem_nil
  | close => exact fun _ h => absurd h List.not_mem_nil
  | rehash => exact fun _ h => absurd h List.not_mem_nil

end Vouches

end SfuShard

end Video

end MateHub
