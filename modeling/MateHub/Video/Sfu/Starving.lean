import MateHub.Video.Sfu.Louder

/-!
# A speaker and those who have stopped

The loudness of a track changes when a packet of it is heard, and at no other time: a track that
is sent no more keeps its value, and its place. Whoever speaks at one level comes as near to
that level as it likes (`MateHub.Video.SfuShard.Speaking.exists_trackIn?`) – to the level as
`forward_rtp` counts it, the negated one, which is low for those who are loud. So a speaker gets
in as soon as fewer than `AUDIO_TOP_K` others are above some value short of that, and stays out
as long as that many are above it and above its own beginning (`MateHub.Video.speaker_enters`).
-/

namespace MateHub

namespace Video

namespace Books

variable {b : Books} {key : TrackKey} {t : TrackIn}

/-- A track, as packets of it find it. -/
def trackIn? (b : Books) (key : TrackKey) : Option TrackIn :=
  (b.tracksIn key.1).bind fun tracks => tracks.find? fun t => t.mid = key.2

theorem trackIn?_update (b : Books) (pid : ParticipantId) (o : Option (List TrackIn))
    (key : TrackKey) : trackIn? { b with tracksIn := Function.update b.tracksIn pid o } key =
      if key.1 = pid then o.bind fun tracks => tracks.find? fun t => t.mid = key.2
      else b.trackIn? key := by
  dsimp only [trackIn?]
  rw [Function.update_apply]
  split_ifs <;> rfl

theorem find?_hearTrack (mid mid' : Mid) (ext : ExtensionValues) (tracks : List TrackIn) :
    ((hearTrack mid ext tracks).find? fun t => t.mid = mid') =
      if mid' = mid then (tracks.find? fun t => t.mid = mid').map fun t => t.hear ext
      else tracks.find? fun t => t.mid = mid' :=
  SfuShard.find?_replaceF TrackIn.mid mid mid' fun t => SfuShard.hear_mid t ext

/-- **What an act does to a track**: it takes it away, or leaves it alone, or it is a packet. -/
theorem trackIn?_act (h : b.trackIn? key = some t) (a : Act) :
    (b.act a).trackIn? key = none ∨
    (b.act a).trackIn? key = some t ∧ (∀ ext, a ≠ .heard key.1 key.2 ext) ∨
    ∃ ext, a = .heard key.1 key.2 ext ∧ (b.act a).trackIn? key = some (t.hear ext) := by
  cases a with
  | joined pid =>
    rw [act, trackIn?_update]
    split_ifs
    · exact .inl rfl
    · exact .inr (.inl ⟨h, by simp⟩)
  | left pid =>
    have hleft : (b.act (.left pid)).trackIn? key =
        if key.1 = pid then none else b.trackIn? key := by
      refine (trackIn?_update b pid none key).trans ?_
      rfl
    rw [hleft]
    split_ifs
    · exact .inl rfl
    · exact .inr (.inl ⟨h, by simp⟩)
  | added pid mid kind source =>
    refine .inr (.inl ⟨?_, by simp⟩)
    rw [act, trackIn?_update]
    split_ifs with hpid
    · obtain ⟨tracks, htracks, hfind⟩ := Option.bind_eq_some_iff.mp h
      rw [← hpid, htracks, Option.map_some, Option.bind_some, List.find?_append, hfind]
      rfl
    · exact h
  | heard pid mid ext =>
    rw [act, trackIn?_update]
    split_ifs with hpid
    · obtain ⟨tracks, htracks, hfind⟩ := Option.bind_eq_some_iff.mp h
      rw [← hpid, htracks, Option.map_some, Option.bind_some, find?_hearTrack, hfind]
      split_ifs with hmid
      · exact .inr (.inr ⟨ext, by rw [hmid], rfl⟩)
      · refine .inr (.inl ⟨rfl, fun ext' heq => hmid ?_⟩)
        exact ((Act.heard.inj heq).2.1).symm
    · exact .inr (.inl ⟨h, fun ext' heq => hpid (Act.heard.inj heq).1.symm⟩)
  | asked key' now => exact .inr (.inl ⟨h, by simp⟩)

/-- A track that is not there does not come by an act that adds none. -/
theorem trackIn?_act_of_none (h : b.trackIn? key = none) {a : Act} (ha : a.sparesTracks = true) :
    (b.act a).trackIn? key = none := by
  cases a with
  | joined pid =>
    rw [act, trackIn?_update, h]
    split_ifs <;> rfl
  | left pid =>
    refine (trackIn?_update b pid none key).trans ?_
    rw [h]
    split_ifs <;> rfl
  | asked key' now => exact h
  | added _ _ _ _ => cases ha
  | heard _ _ _ => cases ha

end Books

namespace SfuShard

variable {S : Str0m} {leaves : S.Rtc → S.Rtc → Prop} {st st' st'' : SfuShard S} {sid : SessionId}
  {key : TrackKey} {t : TrackIn} {level : ℤ} {n : ℕ}

/-! ### The packets of a track -/

/-- The packet of a track that a step brings to `forward_rtp`. -/
def arriving (st : SfuShard S) (sid : SessionId) (key : TrackKey) (i : Piece S) :
    Option ExtensionValues :=
  if i.turn? = some (sid, key.1) then
    (st.nextPacket sid key.1).bind fun x =>
      if x.2.1 = key.2 then some x.2.2.extVals else none
  else none

/-- How many packets of it a step brings; one that a panic interrupts is not counted. -/
def brought (st : SfuShard S) (sid : SessionId) (key : TrackKey) : Piece S → ℕ
  | .turn sid' pid now => if (st.arriving sid key (.turn sid' pid now)).isSome then 1 else 0
  | _ => 0

/-- What a turn hears is the packet it brings. -/
theorem turnAct_eq_heard_iff {now : Instant} {pid : ParticipantId} {ext : ExtensionValues} :
    st.turnAct now sid pid = some (.heard pid key.2 ext) ↔
      ∃ x, st.nextPacket sid pid = some x ∧ x.2.1 = key.2 ∧ x.2.2.extVals = ext := by
  unfold turnAct nextPacket
  rcases hp : st.participant? sid pid with _ | p
  · simp
  · dsimp only
    split_ifs
    · simp
    · rcases S.pollOutput p.rtc with ⟨rtc, e | out⟩
      · simp
      · cases out with
        | transmit _ _ => simp
        | timeout _ => simp
        | event e =>
          cases e with
          | rtpPacket pkt =>
            have hp' : (st.setParticipant sid pid { p with rtc := rtc }).participant? sid pid =
                some { p with rtc := rtc } := by
              rw [participant?_setParticipant hp, if_pos ⟨rfl, rfl⟩]
            dsimp only [eventAct]
            rw [hp', Option.bind_some]
            rcases S.streamRx rtc pkt.ssrc with _ | ⟨mid, rid⟩
            · simp
            · dsimp only
              split_ifs
              · simp
              · simp
          | keyframeRequest mid =>
            dsimp only [eventAct]
            split
            · simp
            · split
              · simp
              · split_ifs <;> simp
          | mediaAdded mid kind => simp [eventAct]
          | iceConnectionStateChange state => simp [eventAct]
          | egressBitrateEstimate kind => simp [eventAct]
          | other => simp [eventAct]

theorem arriving_eq_some_iff {i : Piece S} {ext : ExtensionValues} :
    st.arriving sid key i = some ext ↔ i.turn? = some (sid, key.1) ∧
      ∃ x, st.nextPacket sid key.1 = some x ∧ x.2.1 = key.2 ∧ x.2.2.extVals = ext := by
  rw [arriving]
  split_ifs with hturn
  · rw [Option.bind_eq_some_iff, and_iff_right hturn]
    refine exists_congr fun x => and_congr_right fun _ => ?_
    split_ifs with hmid
    · rw [Option.some_inj, and_iff_right hmid]
    · exact iff_of_false nofun fun h => hmid h.1
  · exact iff_of_false nofun fun h => hturn h.1

theorem brought_eq_zero {i : Piece S} (h : st.arriving sid key i = none) :
    st.brought sid key i = 0 := by
  cases i with
  | turn sid' pid now =>
    rw [brought, h]
    rfl
  | _ => rfl

theorem brought_le_one (st : SfuShard S) (sid : SessionId) (key : TrackKey) (i : Piece S) :
    st.brought sid key i ≤ 1 := by
  cases i with
  | turn sid' pid now =>
    rw [brought]
    split_ifs <;> omega
  | _ => exact Nat.zero_le 1

/-! ### Somebody speaks -/

/-- **Somebody speaks at one level**: a stretch of a run in which a track stays where it is, and
every packet of it has that level and voice activity. The number counts these packets. -/
inductive Speaking (leaves : S.Rtc → S.Rtc → Prop) (sid : SessionId) (key : TrackKey) (level : ℤ)
    (st : SfuShard S) : ℕ → SfuShard S → Prop
  | start : Speaking leaves sid key level st 0 st
  | step {n : ℕ} {st' st'' : SfuShard S} {i : Piece S} : Speaking leaves sid key level st n st' →
      PieceStep leaves st' i st'' → ((st''.books sid).trackIn? key).isSome = true →
      (∀ ext ∈ st'.arriving sid key i,
        ext.audioLevel = some level ∧ ext.voiceActivity = some true) →
      Speaking leaves sid key level st (n + st'.brought sid key i) st''

theorem Speaking.reachable (h : Speaking leaves sid key level st n st')
    (hst : (pieces leaves).Reachable st) : (pieces leaves).Reachable st' := by
  induction h with
  | start => exact hst
  | step _ hstep _ _ ih => exact .step ih trivial hstep

/-- Acts that add no track, and hear none, leave a track alone or take it away. -/
theorem trackIn?_foldl_spares {b : SessionId → Books} {acts : List (SessionId × Books.Act)}
    (hacts : ∀ e ∈ acts, e.2.sparesTracks = true)
    (hstays : (((acts.foldl enter b) sid).trackIn? key).isSome = true) :
    ((acts.foldl enter b) sid).trackIn? key = (b sid).trackIn? key := by
  induction acts generalizing b with
  | nil => rfl
  | cons e acts ih =>
    have hrest := ih (b := enter b e) (fun e' he' => hacts e' (.tail _ he')) hstays
    rw [List.foldl_cons, hrest] at hstays
    refine hrest.trans ?_
    have hspares := hacts e (.head _)
    rw [enter, Function.update_apply] at hstays ⊢
    split_ifs at hstays ⊢ with hsid
    · rw [hsid]
      rcases ht : (b e.1).trackIn? key with _ | t
      · rw [Books.trackIn?_act_of_none ht hspares] at hstays
        cases hstays
      · rcases Books.trackIn?_act ht e.2 with hnone | ⟨hsame, -⟩ | ⟨ext, hheard, -⟩
        · rw [hnone] at hstays
          cases hstays
        · exact hsame
        · rw [hheard] at hspares
          cases hspares
    · rfl

/-- **The step lemma**: the track is as it was and no packet of it was brought, or the packet
that was brought has been heard. -/
theorem trackIn?_pieceStep {i : Piece S} (hsound : st.BooksSound)
    (hstep : PieceStep leaves st i st') (ht : (st.books sid).trackIn? key = some t)
    (hstays : ((st'.books sid).trackIn? key).isSome = true) :
    (st'.books sid).trackIn? key = some t ∧ st.brought sid key i = 0 ∨
    ∃ ext, st.arriving sid key i = some ext ∧
      (st'.books sid).trackIn? key = some (t.hear ext) := by
  obtain ⟨acts, hdoes, -, hbooks⟩ := books_pieceStep hsound hstep
  rw [hbooks] at hstays ⊢
  rcases does_cases hdoes with ⟨sid', pid, now, a, hturn, hact, rfl⟩ | ⟨hnone, hspares⟩
  · change ((enter st.books (sid', a) sid).trackIn? key).isSome = true at hstays
    change (enter st.books (sid', a) sid).trackIn? key = some t ∧ _ ∨
      ∃ ext, _ ∧ (enter st.books (sid', a) sid).trackIn? key = _
    rw [enter, Function.update_apply] at hstays ⊢
    by_cases hsid : sid = sid'
    · subst hsid
      rw [if_pos rfl] at hstays ⊢
      rcases Books.trackIn?_act ht a with hgone | ⟨hsame, hother⟩ | ⟨ext, rfl, hheard⟩
      · rw [hgone] at hstays
        cases hstays
      · refine .inl ⟨hsame, brought_eq_zero (Option.eq_none_iff_forall_ne_some.mpr ?_)⟩
        intro ext harrives
        obtain ⟨hkey, hpacket⟩ := arriving_eq_some_iff.mp harrives
        obtain ⟨-, rfl⟩ := Prod.mk.inj (Option.some.inj (hturn.symm.trans hkey))
        have hheard : st.turnAct now sid key.1 = some (.heard key.1 key.2 ext) :=
          turnAct_eq_heard_iff.mpr hpacket
        exact hother ext (Option.some.inj (hact.symm.trans hheard))
      · obtain ⟨rfl, -⟩ := exists_packet_of_turnAct hact
        exact .inr ⟨ext, arriving_eq_some_iff.mpr ⟨hturn, turnAct_eq_heard_iff.mp hact⟩, hheard⟩
    · rw [if_neg hsid]
      refine .inl ⟨ht, brought_eq_zero (if_neg fun hkey => hsid ?_)⟩
      exact (Prod.mk.inj (Option.some.inj (hturn.symm.trans hkey))).1.symm
  · refine .inl ⟨(trackIn?_foldl_spares hspares hstays).trans ht, ?_⟩
    cases i with
    | turn sid' pid now =>
      refine brought_eq_zero (Option.eq_none_iff_forall_ne_some.mpr fun ext harrives => ?_)
      obtain ⟨hkey, hpacket⟩ := arriving_eq_some_iff.mp harrives
      obtain ⟨rfl, rfl⟩ := Prod.mk.inj (Option.some.inj hkey)
      exact absurd ((hnone _ _ now rfl).symm.trans (turnAct_eq_heard_iff.mpr hpacket)) (by simp)
    | _ => rfl

/-- **The run lemma**: the value has followed the level, at every packet. -/
theorem Speaking.exists_trackIn? (h : Speaking leaves sid key level st n st')
    (hst : (pieces leaves).Reachable st) (ht : (st.books sid).trackIn? key = some t)
    (haudio : t.kind = .audio) : ∃ t' j, (st'.books sid).trackIn? key = some t' ∧ n ≤ j ∧
      t'.kind = .audio ∧ t'.audioLoudnessEma =
        smoothed (7 / 10) t.audioLoudnessEma (List.replicate j (loud level)) := by
  induction h with
  | start => exact ⟨t, 0, ht, le_rfl, haudio, rfl⟩
  | step hspeaks hstep hstays hpackets ih =>
    rename_i i
    obtain ⟨t', j, ht', hle, haudio', hvalue⟩ := ih
    have hsound := booksSound_of_reachable (hspeaks.reachable hst)
    rcases trackIn?_pieceStep hsound hstep ht' hstays with ⟨hsame, hzero⟩ | ⟨ext, harrives, hheard⟩
    · exact ⟨t', j, hsame, by omega, haudio', hvalue⟩
    · obtain ⟨hlevel, hactive⟩ := hpackets ext harrives
      refine ⟨t'.hear ext, j + 1, hheard, ?_, (hear_kind t' ext).trans haudio', ?_⟩
      · exact Nat.add_le_add hle (brought_le_one _ _ _ _)
      · rw [TrackIn.ema_hear_active haudio' hlevel hactive, hvalue, List.replicate_succ',
          smoothed, smoothed, List.foldl_append]
        rfl

/-- A track is counted by a tick with its value. -/
theorem mem_audioTracks {s : SfuSession S} (hs : st.session? sid = some s)
    (ht : (st.books sid).trackIn? key = some t) (haudio : t.kind = .audio) :
    (t.audioLoudnessEma, key) ∈ s.audioTracks := by
  obtain ⟨tracks, htracks, hfind⟩ := Option.bind_eq_some_iff.mp ht
  rw [books_of_session? hs, tracksIn_eq] at htracks
  obtain ⟨p, hp, rfl⟩ := Option.map_eq_some_iff.mp htracks
  refine List.mem_flatMap.mpr ⟨(key.1, p), Dict.mem_pairs.mpr hp, List.mem_map.mpr ⟨t, ?_, ?_⟩⟩
  · exact List.mem_filter.mpr ⟨List.mem_of_find?_eq_some hfind, decide_eq_true haudio⟩
  · have hmid : t.mid = key.2 := by simpa using List.find?_some hfind
    rw [hmid]

/-- What a tick chooses, if the session is there afterwards. -/
theorem top_of_tick {s : SfuSession S} (hs : st.session? sid = some s) {now : Instant}
    {top : KeySet TrackKey} (htop : (st.tick now).tops sid = some top) :
    top = pickTopAudio s.audioTracks := by
  rcases tops_tick st now sid with hcomputed | hnone
  · rw [hs] at hcomputed
    exact Option.some.inj (htop.symm.trans hcomputed)
  · exact absurd (hnone.symm.trans htop) nofun

end SfuShard

namespace SfuShard

/-- A piece that is cut short by a panic. -/
def Piece.panics {S : Str0m} : Piece S → Bool
  | .panic _ _ _ _ _ => true
  | _ => false

/-- Steps in which no call panics can always be taken. -/
theorem reachable_performs {S : Str0m} {leaves : S.Rtc → S.Rtc → Prop} {st : SfuShard S}
    (hst : (pieces leaves).Reachable st) {is : List (Piece S)}
    (his : ∀ i ∈ is, i.panics = false) : (pieces leaves).Reachable (is.foldl perform st) := by
  induction is generalizing st with
  | nil => exact hst
  | cons i is ih =>
    refine ih (.step hst trivial (.perform st (i := i) ?_)) fun i' hi' => his i' (.tail _ hi')
    have hi := his i (.head _)
    cases i with
    | panic sid pid now calls poison => cases hi
    | _ => trivial

/-- A turn that brings a packet of a track without simulcast. -/
theorem nextPacket_eq {S : Str0m} {st : SfuShard S} {sid : SessionId} {pid : ParticipantId}
    {p : SfuParticipant S} (hp : st.participant? sid pid = some p)
    (halive : S.isAlive p.rtc = true) {rtc : S.Rtc} {pkt : RtpPacket}
    (hout : S.pollOutput p.rtc = (rtc, .ok (.event (.rtpPacket pkt)))) {mid : Mid}
    (hrx : S.streamRx rtc pkt.ssrc = some (mid, none)) :
    st.nextPacket sid pid = some (st.setParticipant sid pid { p with rtc := rtc }, mid, pkt) := by
  unfold nextPacket
  simp only [hp, halive, hout, hrx]
  rfl

/-- **An audio packet that the filter drops** changes the value of its track, and nothing else. -/
theorem pollParticipant_filtered {S : Str0m} {st : SfuShard S} {sid : SessionId}
    {pid : ParticipantId} {now : Instant} {p : SfuParticipant S} {mid : Mid} {pkt : RtpPacket}
    (hnext : st.nextPacket sid pid = some (st.setParticipant sid pid p, mid, pkt))
    (hp : (st.setParticipant sid pid p).participant? sid pid = some p)
    (haudio : (st.setParticipant sid pid p).audioAtFilter sid pid mid pkt = true)
    (htop : ∀ top, st.tops sid = some top → (pid, mid) ∉ top) :
    pollParticipant now sid pid 1 st = st.setParticipant sid pid (hearPacket p mid pkt) := by
  obtain ⟨p', pp, hp', heq⟩ := forwardRtp_audio haudio
  obtain rfl := Option.some.inj (hp.symm.trans hp')
  have hfiltered : (st.setParticipant sid pid p).filtered sid pid mid pkt = true := by
    rw [filtered, haudio, tops_setParticipant, Bool.true_and]
    rcases htops : st.tops sid with _ | top
    · rfl
    · exact Option.isNone_iff_eq_none.mpr (AList.lookup_eq_none.mpr (htop top htops))
  rw [turn_of_nextPacket now hnext, heq, if_pos hfiltered, setParticipant_setParticipant]

end SfuShard

/-- Whoever has announced two sections speaks on the first of them, at -1 dBov. -/
def Scripted.talk (rtc : Rtc) : Rtc × Except String Output :=
  if rtc.waiting = [] ∧ rtc.announced = 2 then
    (rtc, .ok (.event (.rtpPacket ⟨1, 96, 0, false, spoken (-1), 1, 0, []⟩)))
  else scripted.pollOutput rtc

/-- Transports whose participants talk. -/
def talking : Str0m :=
  Scripted.scriptedWith Scripted.talk (fun _ _ => some (0, none)) fun _ pt => some pt

deriving instance DecidableEq for TrackIn

namespace Starved

open SfuShard (Piece)

/-- A participant whose microphone has this value. -/
def valued (p : SfuParticipant talking) (e : ℚ) : SfuParticipant talking :=
  { p with tracksIn := [⟨0, .audio, .camera, e⟩, ⟨1, .video, .camera, 64⟩] }

theorem valued_self {p : SfuParticipant talking} {e : ℚ}
    (h : p.tracksIn = [⟨0, .audio, .camera, e⟩, ⟨1, .video, .camera, 64⟩]) : valued p e = p := by
  rw [valued, ← h]

/-- Its transport has announced both sections. -/
def Talks (p : SfuParticipant talking) : Prop :=
  Scripted.Rtc.alive p.rtc = true ∧ Scripted.Rtc.waiting p.rtc = [] ∧
    Scripted.Rtc.announced p.rtc = 2

theorem pollOutput_of_talks {p : SfuParticipant talking} (h : Talks p) :
    talking.pollOutput p.rtc =
      (p.rtc, .ok (.event (.rtpPacket ⟨1, 96, 0, false, spoken (-1), 1, 0, []⟩))) :=
  if_pos h.2

/-- **A turn of the speaker** moves the value of its microphone, and nothing else. -/
theorem turn_valued {st : SfuShard talking} {p : SfuParticipant talking} (h : Talks p) {e : ℚ}
    {now : Instant} (hp : st.participant? 7 1 = some (valued p e))
    (htop : ∀ top, st.tops 7 = some top → (1, 0) ∉ top) :
    st.arriving 7 (1, 0) (.turn 7 1 now) = some (spoken (-1)) ∧
      st.perform (.turn 7 1 now) = st.setParticipant 7 1 (valued p (smooth (7 / 10) e 1)) := by
  have hnext : st.nextPacket 7 1 = some (st.setParticipant 7 1 (valued p e), 0,
      ⟨1, 96, 0, false, spoken (-1), 1, 0, []⟩) :=
    SfuShard.nextPacket_eq hp h.1 (pollOutput_of_talks (p := valued p e) h) rfl
  have hp' : (st.setParticipant 7 1 (valued p e)).participant? 7 1 = some (valued p e) := by
    rw [SfuShard.participant?_setParticipant hp, if_pos ⟨rfl, rfl⟩]
  have haudio : (st.setParticipant 7 1 (valued p e)).audioAtFilter 7 1 0
      ⟨1, 96, 0, false, spoken (-1), 1, 0, []⟩ = true := by
    rw [SfuShard.audioAtFilter, hp']
    rfl
  refine ⟨SfuShard.arriving_eq_some_iff.mpr ⟨rfl, _, hnext, rfl, rfl⟩, ?_⟩
  refine (SfuShard.pollParticipant_filtered hnext hp' haudio htop).trans ?_
  have hheard : e * (7 / 10) + ((-(-1) : ℤ) : ℚ) * (3 / 10) = smooth (7 / 10) e 1 := by
    rw [smooth]
    norm_num
  rw [← hheard]
  rfl

/-- A shard in which participant 1 speaks and the filter drops it. -/
structure Dropped (st : SfuShard talking) (p : SfuParticipant talking) (e : ℚ) : Prop where
  talks : Talks p
  participant : st.participant? 7 1 = some (valued p e)
  top : ∀ top, st.tops 7 = some top → (1, 0) ∉ top

/-- The value after any number of packets. -/
def value (e : ℚ) (n : ℕ) : ℚ := smoothed (7 / 10) e (List.replicate n 1)

theorem value_succ (e : ℚ) (n : ℕ) : value e (n + 1) = smooth (7 / 10) (value e n) 1 := by
  rw [value, List.replicate_succ', smoothed, List.foldl_append]
  rfl

/-- The shard after any number of packets. -/
def spokenTimes (st : SfuShard talking) (p : SfuParticipant talking) (e : ℚ) : ℕ → SfuShard talking
  | 0 => st
  | n + 1 => st.setParticipant 7 1 (valued p (value e (n + 1)))

namespace Dropped

variable {st : SfuShard talking} {p : SfuParticipant talking} {e : ℚ}

theorem participant?_spokenTimes (h : Dropped st p e) (n : ℕ) :
    (spokenTimes st p e n).participant? 7 1 = some (valued p (value e n)) := by
  cases n with
  | zero => exact h.participant
  | succ n =>
    rw [spokenTimes, SfuShard.participant?_setParticipant h.participant, if_pos ⟨rfl, rfl⟩]

theorem participant?_spokenTimes_of_ne (h : Dropped st p e) (n : ℕ) {k : ParticipantId}
    (hk : k ≠ 1) : (spokenTimes st p e n).participant? 7 k = st.participant? 7 k := by
  cases n with
  | zero => rfl
  | succ n =>
    rw [spokenTimes, SfuShard.participant?_setParticipant h.participant,
      if_neg fun hboth => hk hboth.2]

theorem tops_spokenTimes (n : ℕ) : (spokenTimes st p e n).tops = st.tops := by
  cases n with
  | zero => rfl
  | succ n => exact SfuShard.tops_setParticipant _ _ _ _

/-- **The step.** -/
theorem turn_spokenTimes (h : Dropped st p e) (n : ℕ) :
    (spokenTimes st p e n).arriving 7 (1, 0) (.turn 7 1 20) = some (spoken (-1)) ∧
      (spokenTimes st p e n).perform (.turn 7 1 20) = spokenTimes st p e (n + 1) := by
  obtain ⟨harrives, hturn⟩ := @turn_valued _ p h.talks _ 20 (h.participant?_spokenTimes n)
    fun top htop => h.top top (by rwa [tops_spokenTimes] at htop)
  refine ⟨harrives, hturn.trans ?_⟩
  rw [← value_succ]
  cases n with
  | zero => rfl
  | succ n => exact SfuShard.setParticipant_setParticipant _ _ _ _ _

theorem trackIn?_spokenTimes (h : Dropped st p e) (n : ℕ) :
    ((spokenTimes st p e n).books 7).trackIn? (1, 0) = some ⟨0, .audio, .camera, value e n⟩ := by
  rw [Books.trackIn?, SfuShard.tracksIn_books, h.participant?_spokenTimes]
  rfl

/-- **The run.** -/
theorem speaking (h : Dropped st p e) (n : ℕ) :
    SfuShard.Speaking (S := talking) Eq 7 (1, 0) (-1) st n (spokenTimes st p e n) := by
  induction n with
  | zero => exact .start
  | succ n ih =>
    obtain ⟨harrives, hturn⟩ := h.turn_spokenTimes n
    have hbrought : (spokenTimes st p e n).brought 7 (1, 0) (.turn 7 1 20) = 1 := by
      rw [SfuShard.brought, harrives]
      rfl
    have hstep : SfuShard.PieceStep Eq (spokenTimes st p e n) (.turn 7 1 20)
        (spokenTimes st p e (n + 1)) := hturn ▸ .perform _ trivial
    have hnext := ih.step hstep (by rw [h.trackIn?_spokenTimes]; rfl) fun ext hext => by
      obtain rfl := Option.some.inj (harrives.symm.trans hext)
      exact ⟨rfl, rfl⟩
    rwa [hbrought] at hnext

end Dropped

/-- Participant 1, who has a camera too, comes first. -/
def beginning : List (Piece talking) :=
  [.command (.join 7 1 "alice" "av" 11) ⟨"ua", "pa"⟩ 0, .turn 7 1 0, .turn 7 1 0]

/-- A participant alone in its session. -/
def alone : SfuShard talking := beginning.foldl SfuShard.perform (.new 0 [(1, 2)] 12000)

/-- It speaks once, and the others come. -/
def others : List (Piece talking) :=
  [.turn 7 1 0, .command (.join 7 2 "bob" "a" 12) ⟨"ub", "pb"⟩ 0, .turn 7 2 0,
    .command (.join 7 3 "carol" "a" 13) ⟨"uc", "pc"⟩ 0, .turn 7 3 0,
    .command (.join 7 4 "dave" "a" 14) ⟨"ud", "pd"⟩ 0, .turn 7 4 0]

/-- The others have come. -/
def announced : SfuShard talking := others.foldl SfuShard.perform alone

/-- The others have been chosen. -/
def starved : SfuShard talking := announced.tick 20

theorem reachable_alone : (SfuShard.pieces (S := talking) Eq).Reachable alone :=
  SfuShard.reachable_performs (.start ⟨0, [(1, 2)], 12000, rfl⟩) (by decide)

theorem reachable_starved : (SfuShard.pieces (S := talking) Eq).Reachable starved := by
  have hannounced : (SfuShard.pieces (S := talking) Eq).Reachable announced :=
    SfuShard.reachable_performs reachable_alone (by decide)
  exact .step hannounced trivial (.perform _ (i := .tick 20) trivial)

/-- The speaker, before and after the others have come. -/
def speakerAlone : SfuParticipant talking := (alone.participant? 7 1).get (by decide +kernel)

/-- The participant whose packets are lost. -/
def speaker : SfuParticipant talking := (starved.participant? 7 1).get (by decide +kernel)

/-- Three others are above the speaker. -/
theorem not_chosen {audio : List (ℚ × TrackKey)} {e : ℚ} (he : e < 64)
    (h : audio.Perm [(e, (1, 0)), (64, (4, 0)), (64, (3, 0)), (64, (2, 0))]) :
    (1, 0) ∉ pickTopAudio audio := by
  refine not_mem_pickTopAudio fun a ha hkey => ?_
  have hvalue : a.1 = e := by
    have hmem := h.subset ha
    simp only [List.mem_cons, List.not_mem_nil, or_false] at hmem
    rcases hmem with rfl | rfl | rfl | rfl
    · rfl
    all_goals exact absurd hkey (by decide)
  rw [h.countP_eq, hvalue]
  simp [he, audioTopK]

theorem not_mem_top {st : SfuShard talking} {e : ℚ} (he : e < 64) {s : SfuSession talking}
    (hs : st.session? 7 = some s) (haudio : s.audioTracks.Perm
      [(e, (1, 0)), (64, (4, 0)), (64, (3, 0)), (64, (2, 0))]) {now : Instant}
    {top : KeySet TrackKey} (htop : (st.tick now).tops 7 = some top) : (1, 0) ∉ top := by
  rw [SfuShard.top_of_tick hs htop]
  exact not_chosen he haudio

theorem dropped_alone : Dropped alone speakerAlone 64 := by
  have htracks : speakerAlone.tracksIn =
      [⟨0, .audio, .camera, 64⟩, ⟨1, .video, .camera, 64⟩] := by decide
  refine ⟨⟨?_, ?_, ?_⟩, ?_, fun top htop => ?_⟩
  · decide
  · decide
  · decide
  · rw [valued_self htracks]
    exact (Option.some_get _).symm
  · have hnone : (alone.tops 7).map AList.keys = some [] := by decide
    rw [htop] at hnone
    have hkeys : top.keys = [] := Option.some.inj hnone
    intro hmem
    have hmem : (1, 0) ∈ top.keys := hmem
    rw [hkeys] at hmem
    exact List.not_mem_nil hmem

theorem dropped_starved : Dropped starved speaker (451 / 10) := by
  have htracks : speaker.tracksIn =
      [⟨0, .audio, .camera, 451 / 10⟩, ⟨1, .video, .camera, 64⟩] := by decide +kernel
  have hs := Option.some_get (show (announced.session? 7).isSome from by decide)
  refine ⟨⟨?_, ?_, ?_⟩, ?_, fun top htop => ?_⟩
  · decide
  · decide
  · decide
  · rw [valued_self htracks]
    exact (Option.some_get _).symm
  · exact not_mem_top (e := 451 / 10) (by norm_num) hs.symm (by decide +kernel) htop

theorem value_lt (n : ℕ) : value (451 / 10) n < 64 :=
  (Smoothing.smoothed_replicate_le_max (by norm_num) (by norm_num) _ _ n).trans_lt (by norm_num)

theorem audioTracks_starved (n : ℕ) : ∃ s,
    (spokenTimes starved speaker (451 / 10) n).session? 7 = some s ∧ s.audioTracks.Perm
      [(value (451 / 10) n, (1, 0)), (64, (4, 0)), (64, (3, 0)), (64, (2, 0))] := by
  cases n with
  | zero =>
    have hs := Option.some_get (show (starved.session? 7).isSome from by decide)
    exact ⟨_, hs.symm, by decide +kernel⟩
  | succ n => exact ⟨_, rfl, .refl _⟩

theorem isSome_tick_starved (n : ℕ) :
    (((spokenTimes starved speaker (451 / 10) n).tick 40).tops 7).isSome = true := by
  cases n with
  | zero => rfl
  | succ n => rfl

/-- Those who have been chosen are not heard. -/
theorem others_starved (n : ℕ) {k : ParticipantId} (hk : k = 2 ∨ k = 3 ∨ k = 4) :
    ((spokenTimes starved speaker (451 / 10) n).books 7).trackIn? (k, 0) =
      some ⟨0, .audio, .camera, 64⟩ := by
  have hstarved : (starved.participant? 7 k).map SfuParticipant.tracksIn =
      some [⟨0, .audio, .camera, 64⟩] := by
    rcases hk with rfl | rfl | rfl <;> decide
  have hother : k ≠ 1 := by rcases hk with rfl | rfl | rfl <;> decide
  rw [Books.trackIn?, SfuShard.tracksIn_books,
    dropped_starved.participant?_spokenTimes_of_ne n hother, hstarved]
  rfl

end Starved

end Video

end MateHub
