import MateHub.Lib.Largest
import MateHub.Lib.Smoothing
import MateHub.Video.Sfu.Books
import MateHub.Video.Sfu.Numbering
import MateHub.Video.Sfu.Speakers

/-!
# How loud a track is, and who is chosen

Every audio packet moves the loudness of its track (`TrackIn::audio_loudness_ema`), by one of
three rules: a level under voice activity is smoothed into it, a level without makes it decay,
and a packet without a level lifts it to the middle. Whatever is heard, the value stays on the
scale from 0 to 127 (`MateHub.Video.SfuShard.inRange_of_reachable`).

`pick_top_audio` compares these values. It chooses as many of the tracks as there is room for,
and none that is less loud than one it leaves out (`MateHub.Video.pickTopAudio_loudest`).
-/

namespace MateHub

namespace Video

/-! ### The selection -/

/-- The tracks that `pick_top_audio` goes through to collect their keys. -/
def picked (audio : List (ℚ × TrackKey)) : List (ℚ × TrackKey) :=
  if audio.length ≤ audioTopK then audio else largest Prod.fst audioTopK audio

theorem pickTopAudio_eq (audio : List (ℚ × TrackKey)) :
    pickTopAudio audio = (picked audio).foldl (fun out e => out.insert e.2 ()) ∅ := by
  rw [pickTopAudio, picked, audioFilterMinPublishers]
  by_cases hfew : audio.length ≤ audioTopK
  · rw [if_pos (Nat.lt_succ_of_le hfew), if_pos hfew]
  · rw [if_neg fun hlt => hfew (Nat.le_of_lt_succ hlt), if_neg hfew]
    rfl

theorem mem_pickTopAudio_iff {audio : List (ℚ × TrackKey)} {k : TrackKey} :
    k ∈ pickTopAudio audio ↔ ∃ e ∈ picked audio, e.2 = k := by
  rw [pickTopAudio_eq, Dict.mem_foldl_insert]
  exact or_iff_right (AList.notMem_empty k)

/-- **At `AUDIO_TOP_K` the two branches agree**, and one more is the first that is left out. -/
theorem length_picked (audio : List (ℚ × TrackKey)) :
    (picked audio).length = min audio.length audioTopK := by
  rw [picked]
  split_ifs with hfew
  · exact (Nat.min_eq_left hfew).symm
  · rw [Largest.length_largest, Nat.min_comm]

theorem mem_of_mem_picked {audio : List (ℚ × TrackKey)} {e : ℚ × TrackKey} (h : e ∈ picked audio) :
    e ∈ audio := by
  rw [picked] at h
  split_ifs at h
  · exact h
  · exact Largest.mem_of_mem h

theorem nodup_picked {audio : List (ℚ × TrackKey)} (h : (audio.map Prod.snd).Nodup) :
    ((picked audio).map Prod.snd).Nodup := by
  rw [picked]
  split_ifs
  · exact h
  · exact Largest.nodup_map h

/-- Nobody that is left is louder than somebody that is picked. -/
theorem le_of_not_mem_picked {audio : List (ℚ × TrackKey)} {a b : ℚ × TrackKey}
    (ha : a ∈ picked audio) (hb : b ∈ audio) (hleft : b ∉ picked audio) : b.1 ≤ a.1 := by
  rw [picked] at ha hleft
  split_ifs at ha hleft
  · exact absurd hb hleft
  · exact Largest.le_of_not_mem ha hb hleft

/-- Keys tell the tracks apart. -/
theorem mem_picked_of_key {audio : List (ℚ × TrackKey)} (h : (audio.map Prod.snd).Nodup)
    {a : ℚ × TrackKey} (ha : a ∈ audio) (hkey : a.2 ∈ pickTopAudio audio) : a ∈ picked audio := by
  obtain ⟨e, he, heq⟩ := mem_pickTopAudio_iff.mp hkey
  obtain rfl := List.inj_on_of_nodup_map h (mem_of_mem_picked he) ha heq
  exact he

/-- **The selection**: as many of the keys as there is room for, none of which has a lower value
than one that is left out. -/
theorem pickTopAudio_loudest {audio : List (ℚ × TrackKey)} (h : (audio.map Prod.snd).Nodup) :
    (pickTopAudio audio).keys.length = min audio.length audioTopK ∧
    (∀ k ∈ pickTopAudio audio, k ∈ audio.map Prod.snd) ∧
    ∀ a ∈ audio, ∀ b ∈ audio, a.2 ∈ pickTopAudio audio → b.2 ∉ pickTopAudio audio →
      b.1 ≤ a.1 := by
  refine ⟨?_, fun k hk => ?_, fun a ha b hb hin hout => ?_⟩
  · rw [pickTopAudio_eq, Dict.length_keys_foldl_insert _ _ (nodup_picked h), length_picked]
    · exact Nat.zero_add _
    · exact fun _ _ => AList.notMem_empty _
  · obtain ⟨e, he, rfl⟩ := mem_pickTopAudio_iff.mp hk
    exact List.mem_map_of_mem (mem_of_mem_picked he)
  · refine le_of_not_mem_picked (mem_picked_of_key h ha hin) hb fun hmem => hout ?_
    exact mem_pickTopAudio_iff.mpr ⟨b, hmem, rfl⟩

/-- Fewer than `AUDIO_TOP_K` others that are as loud let a track in. -/
theorem mem_pickTopAudio_of_countP_lt {audio : List (ℚ × TrackKey)} {e : ℚ × TrackKey} {v : ℚ}
    (he : e ∈ audio) (hv : v ≤ e.1)
    (h : (audio.countP fun a => decide (a.2 ≠ e.2 ∧ v ≤ a.1)) < audioTopK) :
    e.2 ∈ pickTopAudio audio := by
  rw [mem_pickTopAudio_iff, picked]
  split_ifs
  · exact ⟨e, he, rfl⟩
  · exact Largest.mem_of_countP_lt he hv h

theorem countP_lt_of_mem_picked {audio : List (ℚ × TrackKey)} {e : ℚ × TrackKey}
    (he : e ∈ picked audio) : (audio.countP fun a => decide (e.1 < a.1)) < audioTopK := by
  have hmem := mem_of_mem_picked he
  rw [picked] at he
  split_ifs at he with hfew
  · refine lt_of_lt_of_le (lt_of_le_of_ne List.countP_le_length fun hall => ?_) hfew
    exact lt_irrefl e.1 (of_decide_eq_true (List.countP_eq_length.mp hall e hmem))
  · exact Largest.countP_lt he

/-- `AUDIO_TOP_K` others that are louder keep a track out. -/
theorem countP_lt_of_mem_pickTopAudio {audio : List (ℚ × TrackKey)}
    (h : (audio.map Prod.snd).Nodup) {e : ℚ × TrackKey} (he : e ∈ audio)
    (hin : e.2 ∈ pickTopAudio audio) :
    (audio.countP fun a => decide (e.1 < a.1)) < audioTopK :=
  countP_lt_of_mem_picked (mem_picked_of_key h he hin)

theorem not_mem_pickTopAudio {audio : List (ℚ × TrackKey)} {k : TrackKey}
    (h : ∀ e ∈ audio, e.2 = k → audioTopK ≤ audio.countP fun a => decide (e.1 < a.1)) :
    k ∉ pickTopAudio audio := by
  intro hin
  obtain ⟨e, he, hkey⟩ := mem_pickTopAudio_iff.mp hin
  exact absurd (countP_lt_of_mem_picked he) (Nat.not_lt.mpr (h e (mem_of_mem_picked he) hkey))

/-! ### One packet -/

namespace TrackIn

variable {t : TrackIn} {ext : ExtensionValues} {level : ℤ}

/-- On the scale of a level. -/
def InRange (t : TrackIn) : Prop := 0 ≤ t.audioLoudnessEma ∧ t.audioLoudnessEma ≤ 127

/-- A level under voice activity is smoothed into the value – the **negated** level. -/
theorem ema_hear_active (ht : t.kind = .audio) (hlevel : ext.audioLevel = some level)
    (hactive : ext.voiceActivity = some true) :
    (t.hear ext).audioLoudnessEma = smooth (7 / 10) t.audioLoudnessEma (-level) := by
  rw [hear, if_pos ht, hlevel]
  dsimp only
  rw [if_pos hactive, smooth]
  push_cast
  ring

/-- Without, the value decays. -/
theorem ema_hear_inactive (ht : t.kind = .audio) (hlevel : ext.audioLevel = some level)
    (hactive : ext.voiceActivity ≠ some true) :
    (t.hear ext).audioLoudnessEma = smooth (7 / 10) t.audioLoudnessEma 0 := by
  rw [hear, if_pos ht, hlevel]
  dsimp only
  rw [if_neg hactive, smooth]
  ring

theorem ema_hear_unknown (ht : t.kind = .audio) (hlevel : ext.audioLevel = none) :
    (t.hear ext).audioLoudnessEma = max t.audioLoudnessEma 64 := by
  rw [hear, if_pos ht, hlevel]

theorem hear_of_not_audio (ht : t.kind ≠ .audio) : t.hear ext = t := if_neg ht

/-- **A packet keeps the value on the scale**, by each of the three rules. -/
theorem InRange.hear (h : t.InRange) (hext : ∀ level ∈ ext.audioLevel, -127 ≤ level ∧ level ≤ 0) :
    (t.hear ext).InRange := by
  by_cases ht : t.kind = .audio
  · rw [InRange]
    rcases hlevel : ext.audioLevel with _ | level
    · rw [ema_hear_unknown ht hlevel]
      exact ⟨le_max_of_le_left h.1, max_le h.2 (by norm_num)⟩
    · obtain ⟨hlow, hhigh⟩ := hext level hlevel
      by_cases hactive : ext.voiceActivity = some true
      · rw [ema_hear_active ht hlevel hactive]
        refine Smoothing.smooth_mem_Icc (by norm_num) (by norm_num) h ?_
        have hlow : (-127 : ℚ) ≤ level := by exact_mod_cast hlow
        have hhigh : (level : ℚ) ≤ 0 := by exact_mod_cast hhigh
        constructor <;> linarith
      · rw [ema_hear_inactive ht hlevel hactive]
        exact Smoothing.smooth_mem_Icc (by norm_num) (by norm_num) h (by norm_num)
  · rw [hear_of_not_audio ht]
    exact h

end TrackIn

/-! ### Runs -/

/-- The levels that are delivered are from silence, -127 dBov, to full scale, 0. -/
def Str0m.LevelsInRange (S : Str0m) : Prop :=
  ∀ rtc rtc' pkt, S.pollOutput rtc = (rtc', .ok (.event (.rtpPacket pkt))) →
    ∀ level ∈ pkt.extVals.audioLevel, -127 ≤ level ∧ level ≤ 0

namespace Books

/-- All tracks of a session are on the scale. -/
def InRange (b : Books) : Prop :=
  ∀ pid tracks, b.tracksIn pid = some tracks → ∀ t ∈ tracks, t.InRange

/-- A level that an act brings is one that can be delivered. -/
def Act.LevelInRange : Act → Prop
  | .heard _ _ ext => ∀ level ∈ ext.audioLevel, -127 ≤ level ∧ level ≤ 0
  | _ => True

theorem hearTrack_cons (mid : Mid) (ext : ExtensionValues) (t : TrackIn) (tracks : List TrackIn) :
    hearTrack mid ext (t :: tracks) =
      if t.mid = mid then t.hear ext :: tracks else t :: hearTrack mid ext tracks := by
  rw [hearTrack, List.replaceF_cons]
  split_ifs <;> rfl

theorem mem_hearTrack {mid : Mid} {ext : ExtensionValues} {tracks : List TrackIn} {t : TrackIn}
    (h : t ∈ hearTrack mid ext tracks) : t ∈ tracks ∨ ∃ t₀ ∈ tracks, t = t₀.hear ext := by
  induction tracks with
  | nil => exact absurd h List.not_mem_nil
  | cons t₀ tracks ih =>
    rw [hearTrack_cons] at h
    split_ifs at h
    · rcases List.mem_cons.mp h with rfl | hold
      · exact .inr ⟨t₀, .head _, rfl⟩
      · exact .inl (.tail _ hold)
    · rcases List.mem_cons.mp h with rfl | hmem
      · exact .inl (.head _)
      · exact (ih hmem).imp (.tail _) fun ⟨t₁, ht₁, heq⟩ => ⟨t₁, .tail _ ht₁, heq⟩

/-- **What an act does to the scale**: nothing. -/
theorem InRange.act {b : Books} (h : b.InRange) {a : Act} (ha : a.LevelInRange) :
    (b.act a).InRange := by
  intro pid' tracks htracks t ht
  have hupdate {pid : ParticipantId} {o : Option (List TrackIn)}
      (hlook : Function.update b.tracksIn pid o pid' = some tracks) :
      o = some tracks ∨ b.tracksIn pid' = some tracks := by
    rw [Function.update_apply] at hlook
    split_ifs at hlook
    · exact .inl hlook
    · exact .inr hlook
  cases a with
  | joined pid =>
    rcases hupdate htracks with hnew | hold
    · obtain rfl := Option.some.inj hnew
      exact absurd ht List.not_mem_nil
    · exact h pid' tracks hold t ht
  | left pid =>
    rcases hupdate htracks with hnew | hold
    · cases hnew
    · exact h pid' tracks hold t ht
  | added pid mid kind source =>
    rcases hupdate htracks with hnew | hold
    · obtain ⟨tracks₀, htracks₀, rfl⟩ := Option.map_eq_some_iff.mp hnew
      rcases List.mem_append.mp ht with hmem | hmem
      · exact h pid tracks₀ htracks₀ t hmem
      · obtain rfl := List.mem_singleton.mp hmem
        exact ⟨by norm_num, by norm_num⟩
    · exact h pid' tracks hold t ht
  | heard pid mid ext =>
    rcases hupdate htracks with hnew | hold
    · obtain ⟨tracks₀, htracks₀, rfl⟩ := Option.map_eq_some_iff.mp hnew
      rcases mem_hearTrack ht with hmem | ⟨t₀, hmem, rfl⟩
      · exact h pid tracks₀ htracks₀ t hmem
      · exact (h pid tracks₀ htracks₀ t₀ hmem).hear ha
    · exact h pid' tracks hold t ht
  | asked key now => exact h pid' tracks htracks t ht

end Books

namespace SfuShard

variable {S : Str0m} {leaves : S.Rtc → S.Rtc → Prop} {st st' : SfuShard S} {sid : SessionId}
  {pid : ParticipantId}

/-- A packet that a turn hears has been delivered. -/
theorem exists_packet_of_turnAct {now : Instant} {pid' : ParticipantId} {mid : Mid}
    {ext : ExtensionValues} (h : st.turnAct now sid pid = some (.heard pid' mid ext)) :
    pid' = pid ∧ ∃ rtc rtc' pkt, S.pollOutput rtc = (rtc', .ok (.event (.rtpPacket pkt))) ∧
      pkt.extVals = ext := by
  obtain ⟨p, rtc, e, -, hout, -, hevent⟩ := exists_event_of_turnAct h
  cases e with
  | rtpPacket pkt =>
    dsimp only [eventAct] at hevent
    split at hevent
    · cases hevent
    · split_ifs at hevent
      obtain ⟨rfl, -, rfl⟩ := Books.Act.heard.inj (Option.some.inj hevent)
      exact ⟨rfl, p.rtc, rtc, pkt, hout, rfl⟩
  | keyframeRequest mid =>
    dsimp only [eventAct] at hevent
    split at hevent
    · cases hevent
    · split at hevent
      · cases hevent
      · split_ifs at hevent
        cases hevent
  | mediaAdded mid kind => cases hevent
  | iceConnectionStateChange state => cases hevent
  | egressBitrateEstimate kind => cases hevent
  | other => cases hevent

theorem levelInRange_of_does (hS : S.LevelsInRange) {i : Piece S}
    {acts : List (SessionId × Books.Act)} (h : st.Does i acts) : ∀ e ∈ acts, e.2.LevelInRange := by
  rcases does_cases h with ⟨sid, pid, now, a, -, hact, rfl⟩ | ⟨-, hspares⟩
  · intro e he
    obtain rfl := List.mem_singleton.mp he
    cases a with
    | heard pid' mid ext =>
      obtain ⟨-, rtc, rtc', pkt, hout, rfl⟩ := exists_packet_of_turnAct hact
      exact hS rtc rtc' pkt hout
    | _ => trivial
  · intro e he
    have hspared := hspares e he
    generalize e.2 = a at hspared
    cases a with
    | heard pid mid ext => cases hspared
    | _ => trivial

theorem inRange_foldl {b : SessionId → Books} (h : ∀ sid, (b sid).InRange)
    {acts : List (SessionId × Books.Act)} (hacts : ∀ e ∈ acts, e.2.LevelInRange) (sid : SessionId) :
    (acts.foldl enter b sid).InRange := by
  induction acts generalizing b with
  | nil => exact h sid
  | cons e acts ih =>
    refine ih (fun sid' => ?_) fun e' he' => hacts e' (.tail _ he')
    rw [enter, Function.update_apply]
    split_ifs
    · exact (h e.1).act (hacts e (.head _))
    · exact h sid'

/-- **The run lemma**: the scale is never left. -/
theorem inRange_of_reachable (hS : S.LevelsInRange) (h : (pieces leaves).Reachable st) :
    ∀ sid, (st.books sid).InRange := by
  have hkept : st.BooksSound ∧ ∀ sid, (st.books sid).InRange := by
    refine h.invariant (I := fun st => st.BooksSound ∧ ∀ sid, (st.books sid).InRange) ?_
      fun st i st' hkept _ hstep => ?_
    · rintro st ⟨_, _, _, rfl⟩
      exact ⟨booksSound_new _ _ _, fun _ _ _ h => by cases h⟩
    · obtain ⟨hsound, hrange⟩ := hkept
      obtain ⟨acts, hdoes, hallowed, heq⟩ := books_pieceStep hsound hstep
      refine ⟨hsound.foldl hallowed heq, fun sid => ?_⟩
      rw [heq]
      exact inRange_foldl hrange (levelInRange_of_does hS hdoes) sid
  exact hkept.2

/-- What a tick compares is on the scale. -/
theorem inRange_audioTracks {s : SfuSession S} (hs : st.session? sid = some s)
    (h : (st.books sid).InRange) : ∀ e ∈ s.audioTracks, 0 ≤ e.1 ∧ e.1 ≤ 127 := by
  intro e he
  obtain ⟨⟨pid, p⟩, hp, he⟩ := List.mem_flatMap.mp he
  obtain ⟨t, ht, rfl⟩ := List.mem_map.mp he
  have htracks : (st.books sid).tracksIn pid = some p.tracksIn := by
    rw [books_of_session? hs, tracksIn_eq, Dict.mem_pairs.mp hp]
    rfl
  exact h pid p.tracksIn htracks t (List.mem_of_mem_filter ht)

end SfuShard

open SfuShard in
/-- **Active speakers are selected.** Of tracks with different keys `pick_top_audio` returns as
many as there is room for, and leaves out none that is louder than one it returns. What it is
given in a run of the shard is on the scale from 0 to 127, whatever packets have been heard: any
two of the values can be compared. -/
theorem speakers_selected {S : Str0m} {leaves : S.Rtc → S.Rtc → Prop} :
    (∀ audio : List (ℚ × TrackKey), (audio.map Prod.snd).Nodup →
      (pickTopAudio audio).keys.length = min audio.length audioTopK ∧
      (∀ k ∈ pickTopAudio audio, k ∈ audio.map Prod.snd) ∧
      ∀ a ∈ audio, ∀ b ∈ audio, a.2 ∈ pickTopAudio audio → b.2 ∉ pickTopAudio audio →
        b.1 ≤ a.1) ∧
    (S.LevelsInRange → ∀ st, (pieces leaves).Reachable st →
      (∀ sid pid p, st.participant? sid pid = some p →
        ∀ t ∈ p.tracksIn, 0 ≤ t.audioLoudnessEma ∧ t.audioLoudnessEma ≤ 127) ∧
      ∀ sid s, st.session? sid = some s →
        s.recomputeTopAudio.topAudioPublishers = pickTopAudio s.audioTracks ∧
        (∀ e ∈ s.audioTracks, 0 ≤ e.1 ∧ e.1 ≤ 127) ∧
        ∀ a ∈ s.audioTracks, ∀ b ∈ s.audioTracks, a.1 ≤ b.1 ∨ b.1 ≤ a.1) := by
  refine ⟨fun audio h => pickTopAudio_loudest h, fun hS st hst => ⟨fun sid pid p hp t ht => ?_,
    fun sid s hs => ⟨rfl, ?_, fun a _ b _ => le_total a.1 b.1⟩⟩⟩
  · have htracks : (st.books sid).tracksIn pid = some p.tracksIn := by
      rw [tracksIn_books, hp]
      rfl
    exact inRange_of_reachable hS hst sid pid p.tracksIn htracks t ht
  · exact inRange_audioTracks hs (inRange_of_reachable hS hst sid)

theorem levelsInRange_delivering : delivering.LevelsInRange := by
  intro (rtc : Scripted.Rtc) rtc' pkt hout
  by_cases hw : rtc.waiting = []
  · have hpacket : delivering.pollOutput rtc = (rtc, .ok (.event (.rtpPacket
        ⟨1, 96, 0, false, {}, 1, 0, []⟩))) := if_pos hw
    rw [hpacket] at hout
    cases hout
    nofun
  · have hidle : delivering.pollOutput rtc = scripted.pollOutput rtc := if_neg hw
    obtain ⟨kind, rest, hcons⟩ := List.exists_cons_of_ne_nil hw
    rw [hidle] at hout
    simp only [scripted, Scripted.pollOutput, hcons] at hout
    cases hout

open Counting in
/-- Four who are heard, and one who has just come. -/
theorem speakers_selected_newcomer :
    (pickTopAudio [(10, (1, 0)), (64, (2, 0)), (3, (3, 0)), (127, (4, 0))]).keys.length = 3 ∧
    ∃ p, newcomer.shard.participant? 7 1 = some p ∧ p.tracksIn.length = 1 ∧
      ∀ t ∈ p.tracksIn, 0 ≤ t.audioLoudnessEma ∧ t.audioLoudnessEma ≤ 127 := by
  have hp := Option.some_get
    (show (newcomer.shard.participant? 7 1).isSome from by decide +kernel)
  have hreach : (SfuShard.pieces (S := delivering) Eq).Reachable newcomer.shard :=
    .step (.step (.start ⟨0, [(1, 2)], 12000, rfl⟩) trivial
      (.perform _ (i := .command (.join 7 1 "alice" "a" 11) ⟨"ua", "pa"⟩ 0) trivial)) trivial
      (.perform _ (i := .turn 7 1 0) trivial)
  have hselected := (@speakers_selected delivering Eq).1
    [(10, (1, 0)), (64, (2, 0)), (3, (3, 0)), (127, (4, 0))] (by decide)
  have hrange := ((@speakers_selected delivering Eq).2
    levelsInRange_delivering newcomer.shard hreach).1 7 1 _ hp.symm
  exact ⟨hselected.1, _, hp.symm, by decide +kernel, hrange⟩

end Video

end MateHub
