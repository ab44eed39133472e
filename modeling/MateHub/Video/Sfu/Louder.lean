import MateHub.Video.Sfu.Loudness

/-!
# Louder is not louder

The level of a packet is in dBov: 0 is the loudest, and -127 is silence. `forward_rtp` smooths
the negated level into a value of which the comment says that higher is louder, so the scale is
upside down: a louder speaker has the lower value after every packet, and silence raises it.

So two speakers are ordered as they should be only if there is nothing to order
(`MateHub.Video.louder_iff`), and of more than `AUDIO_TOP_K` the loudest are left out.
-/

namespace MateHub

namespace Video

/-- Packets in which somebody speaks, at these levels. -/
def Speaks (exts : List ExtensionValues) (levels : List ℤ) : Prop :=
  List.Forall₂ (fun ext level => ext.audioLevel = some level ∧ ext.voiceActivity = some true)
    exts levels

/-- At every packet the second is at least as loud as the first. -/
def NoLouder (levels levels' : List ℤ) : Prop := List.Forall₂ (· ≤ ·) levels levels'

theorem NoLouder.refl (levels : List ℤ) : NoLouder levels levels :=
  List.forall₂_refl levels

theorem NoLouder.antisymm {levels levels' : List ℤ} (h : NoLouder levels levels')
    (h' : NoLouder levels' levels) : levels = levels' := by
  induction h with
  | nil => rfl
  | cons hle _ ih =>
    obtain ⟨hge, htail⟩ := List.forall₂_cons.mp h'
    rw [le_antisymm hle hge, ih htail]

/-- What is smoothed into the value under voice activity. -/
def loud (level : ℤ) : ℚ := -level

theorem loud_injective : Function.Injective loud := neg_injective.comp Int.cast_injective

theorem NoLouder.forall₂_loud {levels levels' : List ℤ} (h : NoLouder levels levels') :
    List.Forall₂ (· ≤ ·) (levels'.map loud) (levels.map loud) := by
  rw [List.forall₂_map_left_iff, List.forall₂_map_right_iff]
  exact h.flip.imp fun level' level hle => neg_le_neg (Int.cast_le.mpr hle)

namespace TrackIn

variable {t t' : TrackIn} {exts exts' : List ExtensionValues} {levels levels' : List ℤ}

/-- A track when these packets of it have been heard. -/
def hears (t : TrackIn) (exts : List ExtensionValues) : TrackIn := exts.foldl hear t

theorem ema_hears (ht : t.kind = .audio) (h : Speaks exts levels) :
    (t.hears exts).audioLoudnessEma =
      smoothed (7 / 10) t.audioLoudnessEma (levels.map loud) := by
  induction h generalizing t with
  | nil => rfl
  | @cons ext level exts levels hpkt _ ih =>
    have hstep := ih ((SfuShard.hear_kind t ext).trans ht)
    rw [ema_hear_active ht hpkt.1 hpkt.2] at hstep
    exact hstep

/-- **Who speaks up falls behind.** -/
theorem ema_lt_of_louder (ht : t.kind = .audio) (ht' : t'.kind = .audio)
    (heq : t.audioLoudnessEma = t'.audioLoudnessEma) (h : Speaks exts levels)
    (h' : Speaks exts' levels') (hle : NoLouder levels levels') (hne : levels ≠ levels') :
    (t'.hears exts').audioLoudnessEma < (t.hears exts).audioLoudnessEma := by
  rw [ema_hears ht h, ema_hears ht' h']
  exact Smoothing.smoothed_lt_smoothed (by norm_num) (by norm_num) heq.ge hle.forall₂_loud
    (.inr fun hmap => hne (loud_injective.list_map hmap).symm)

/-- Silence raises the value wherever it can be raised. -/
theorem ema_hear_silence_le_iff {ext : ExtensionValues} (ht : t.kind = .audio) (hr : t.InRange)
    (hext : ext.audioLevel = some (-127)) :
    (t.hear ext).audioLoudnessEma ≤ t.audioLoudnessEma ↔
      ext.voiceActivity ≠ some true ∨ t.audioLoudnessEma = 127 := by
  obtain ⟨hlow, hhigh⟩ := hr
  by_cases hactive : ext.voiceActivity = some true
  · rw [ema_hear_active ht hext hactive, smooth, or_iff_right (not_not_intro hactive)]
    push_cast
    constructor
    · intro hle
      linarith
    · intro heq
      rw [heq]
      norm_num
  · rw [ema_hear_inactive ht hext hactive, smooth]
    refine iff_of_true ?_ (.inl hactive)
    linarith

end TrackIn

/-! ### Speakers -/

/-- A track on which somebody speaks all the time, and the packets of it. -/
structure Speaker where
  key : TrackKey
  track : TrackIn
  exts : List ExtensionValues
  levels : List ℤ
  audio : track.kind = .audio
  speaks : Speaks exts levels

namespace Speaker

/-- What `recompute_top_audio` collects of the track. -/
def counted (s : Speaker) : ℚ × TrackKey := ((s.track.hears s.exts).audioLoudnessEma, s.key)

/-- Speakers who have begun alike, and of whom one is louder than the other all the time. -/
structure Compared (speakers : List Speaker) : Prop where
  keys : (speakers.map Speaker.key).Nodup
  start : ∀ a ∈ speakers, ∀ b ∈ speakers, a.track.audioLoudnessEma = b.track.audioLoudnessEma
  total : ∀ a ∈ speakers, ∀ b ∈ speakers, NoLouder a.levels b.levels ∨ NoLouder b.levels a.levels

variable {speakers : List Speaker} {a b : Speaker}

theorem Compared.nodup (h : Compared speakers) :
    ((speakers.map counted).map Prod.snd).Nodup := by
  rw [List.map_map]
  exact h.keys

/-- Whoever is left out is louder than whoever is chosen, or as loud. -/
theorem Compared.noLouder (h : Compared speakers) (ha : a ∈ speakers) (hb : b ∈ speakers)
    (hin : a.key ∈ pickTopAudio (speakers.map counted))
    (hout : b.key ∉ pickTopAudio (speakers.map counted)) : NoLouder a.levels b.levels := by
  rcases h.total a ha b hb with hle | hge
  · exact hle
  by_cases heq : b.levels = a.levels
  · rwa [heq] at hge ⊢
  have hlt := TrackIn.ema_lt_of_louder b.audio a.audio (h.start b hb a ha) b.speaks a.speaks hge heq
  have hle := (pickTopAudio_loudest h.nodup).2.2 a.counted (List.mem_map_of_mem ha) b.counted
    (List.mem_map_of_mem hb) hin hout
  exact absurd hle (not_le.mpr hlt)

/-- Of too many somebody is chosen and somebody left out. -/
theorem Compared.exists_mem (h : Compared speakers) (hmany : audioTopK < speakers.length) :
    (∃ a ∈ speakers, a.key ∈ pickTopAudio (speakers.map counted)) ∧
      ∃ b ∈ speakers, b.key ∉ pickTopAudio (speakers.map counted) := by
  obtain ⟨hlen, hsub, -⟩ := pickTopAudio_loudest h.nodup
  rw [List.length_map, Nat.min_eq_right hmany.le] at hlen
  constructor
  · have hpos : 0 < (pickTopAudio (speakers.map counted)).keys.length := hlen ▸ by decide
    obtain ⟨k, hk⟩ := List.exists_mem_of_length_pos hpos
    obtain ⟨e, he, rfl⟩ := List.mem_map.mp (hsub k hk)
    obtain ⟨a, ha, rfl⟩ := List.mem_map.mp he
    exact ⟨a, ha, hk⟩
  · by_contra hall
    have hsubset : speakers.map key ⊆ (pickTopAudio (speakers.map counted)).keys := by
      intro k hk
      obtain ⟨b, hb, rfl⟩ := List.mem_map.mp hk
      by_contra hout
      exact hall ⟨b, hb, hout⟩
    have hle := (List.subperm_of_subset h.keys hsubset).length_le
    rw [List.length_map, hlen] at hle
    omega

/-- **The loudest are not the chosen ones**, unless there is no choice or all are as loud. -/
theorem Compared.chosen_iff (h : Compared speakers) :
    (∀ a ∈ speakers, ∀ b ∈ speakers, a.key ∈ pickTopAudio (speakers.map counted) →
      b.key ∉ pickTopAudio (speakers.map counted) → NoLouder b.levels a.levels) ↔
    speakers.length ≤ audioTopK ∨ ∀ a ∈ speakers, ∀ b ∈ speakers, a.levels = b.levels := by
  constructor
  · intro hchosen
    refine or_iff_not_imp_left.mpr fun hmany => ?_
    obtain ⟨⟨a, ha, hin⟩, ⟨b, hb, hout⟩⟩ := h.exists_mem (not_le.mp hmany)
    have hsame {a b : Speaker} (ha : a ∈ speakers) (hb : b ∈ speakers)
        (hin : a.key ∈ pickTopAudio (speakers.map counted))
        (hout : b.key ∉ pickTopAudio (speakers.map counted)) : a.levels = b.levels :=
      (h.noLouder ha hb hin hout).antisymm (hchosen a ha b hb hin hout)
    -- everybody is as loud as somebody who is left out
    have hall (c : Speaker) (hc : c ∈ speakers) : c.levels = b.levels := by
      by_cases hcin : c.key ∈ pickTopAudio (speakers.map counted)
      · exact hsame hc hb hcin hout
      · exact (hsame ha hc hin hcin).symm.trans (hsame ha hb hin hout)
    exact fun c hc d hd => (hall c hc).trans (hall d hd).symm
  · rintro (hfew | hsame) a ha b hb hin hout
    · refine absurd (mem_pickTopAudio_iff.mpr ⟨b.counted, ?_, rfl⟩) hout
      rw [picked, List.length_map, if_pos hfew]
      exact List.mem_map_of_mem hb
    · rw [hsame a ha b hb]
      exact .refl _

end Speaker

/-- A packet in which somebody speaks at a level. -/
def spoken (level : ℤ) : ExtensionValues where
  audioLevel := some level
  voiceActivity := some true

/-- A microphone that has not been heard yet. -/
def unheard : TrackIn := ⟨0, .audio, .camera, 64⟩

/-- Four participants speak for the first time, and the first one shouts. -/
def shouting : List Speaker :=
  [(1, 0), (2, -50), (3, -60), (4, -70)].map fun e : ℕ × ℤ =>
    ⟨(e.1, 0), unheard, [spoken e.2], [e.2], rfl, .cons ⟨rfl, rfl⟩ .nil⟩

end Video

end MateHub
