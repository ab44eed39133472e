import MateHub.Video.Scripted
import MateHub.Video.Sfu.Numbering

/-!
# How far an egress sequence number jumps

A receiver sees the low 16 bits of a sequence number, and takes it for the nearest number to
the highest one it has. So a number must exceed the one before by less than `2 ^ 15`. The
packets of an ingress stream in order, of which nothing is lost, have their numbers moved by
one offset, and the filter of the loudest publishers takes packets out of the stream: the
number after a pause exceeds the last one by as much as was withheld. So the jump is short
as long as fewer than `2 ^ 15 - 1` packets are withheld in a row
(`MateHub.Video.egress_within`).
-/

namespace MateHub

namespace Video

deriving instance DecidableEq for TrackOut

/-! ### The receiver -/

/-- The index that a receiver infers from the low 16 bits, for the highest index so far. -/
def srtpIndex (high wire : ℕ) : ℕ :=
  let roc := high / 2 ^ 16
  let seq := high % 2 ^ 16
  let v :=
    if seq < 2 ^ 15 then if seq + 2 ^ 15 < wire then roc - 1 else roc
    else if wire + 2 ^ 15 < seq then roc + 1
    else roc
  v * 2 ^ 16 + wire

/-- **A short jump is inferred.** -/
theorem srtpIndex_eq {high index : ℕ} (hlt : high < index) (hjump : index < high + 2 ^ 15) :
    srtpIndex high (index % 2 ^ 16) = index := by
  simp only [srtpIndex]
  split_ifs <;> omega

/-- The highest of the numbers written on a subscription. -/
def highest (written : List ℕ) : ℕ := written.foldr max 0

@[simp] theorem highest_cons (e : ℕ) (older : List ℕ) :
    highest (e :: older) = max e (highest older) := rfl

/-! ### Packets and recomputations -/

/-- A shard, with what its publishers have sent and what one subscription has been given. -/
structure AudioRun (S : Str0m) where
  shard : SfuShard S
  /-- The number of the last packet of each ingress stream. -/
  last : TrackKey → Ssrc → Option ℕ
  /-- How many packets of the stream that was given a number last have gone without since. -/
  withheld : ℕ
  /-- The numbers written, the newest first. -/
  written : List ℕ

/-- What happens to the loudness of publishers. -/
inductive AudioEvent
  /-- A packet of a publisher reaches the shard. -/
  | packet (k : TrackKey) (pkt : RtpPacket)
  /-- The loudest publishers are determined. -/
  | recompute

namespace AudioRun

variable {S : Str0m}

/-- **No loss and no reordering** between the publisher and the SFU: a stream is numbered
without gaps. -/
def InOrder (s : AudioRun S) (k : TrackKey) (pkt : RtpPacket) : Prop :=
  ∀ n, s.last k pkt.ssrc = some n → pkt.seqNo = n + 1

/-- The last packet of a stream. -/
def sent (s : AudioRun S) (k : TrackKey) (pkt : RtpPacket) : TrackKey → Ssrc → Option ℕ :=
  fun k' ssrc => if k' = k ∧ ssrc = pkt.ssrc then some pkt.seqNo else s.last k' ssrc

variable (sid : SessionId) (key view : TrackKey)

/-- The stream that the subscription was given a number for last. -/
def anchored (s : AudioRun S) : Option Ssrc :=
  (s.shard.track? sid view).bind fun t => t.egressSeqAnchor.map Prod.fst

/-- The packet is given no number. -/
def pass (s : AudioRun S) (k : TrackKey) (pkt : RtpPacket) : AudioRun S where
  shard := s.shard.forwardRtp sid k.1 k.2 pkt
  last := s.sent k pkt
  withheld :=
    if k = key ∧ s.anchored sid view = some pkt.ssrc then s.withheld + 1 else s.withheld
  written := s.written

/-- The packet is given a number on the subscription. -/
def give (s : AudioRun S) (k : TrackKey) (pkt : RtpPacket) (t : TrackOut) : AudioRun S where
  shard := s.shard.forwardRtp sid k.1 k.2 pkt
  last := s.sent k pkt
  withheld := 0
  written := (t.rewriteSeq pkt.ssrc pkt.seqNo).2 :: s.written

/-- What a packet, or a recomputation, does to the shard and to the subscription `view` to
the track `key`. A packet is given a number only if the subscription is on the list of its
track, and the filter lets the track through. -/
inductive Step : AudioRun S → AudioEvent → AudioRun S → Prop
  | withheld {s : AudioRun S} {k : TrackKey} {pkt : RtpPacket} : s.InOrder k pkt →
      (s.shard.forwardRtp sid k.1 k.2 pkt).track? sid view = s.shard.track? sid view →
      Step s (.packet k pkt) (s.pass sid key view k pkt)
  | given {s : AudioRun S} {k : TrackKey} {pkt : RtpPacket} {t : TrackOut} : s.InOrder k pkt →
      view ∈ s.shard.targets sid k → s.shard.letsThrough sid k = true →
      s.shard.track? sid view = some t →
      (s.shard.forwardRtp sid k.1 k.2 pkt).track? sid view =
        some (t.rewriteSeq pkt.ssrc pkt.seqNo).1 →
      Step s (.packet k pkt) (s.give sid k pkt t)
  | recompute {s : AudioRun S} :
      Step s .recompute { s with shard := s.shard.recompute sid }

/-- A packet that is in order can always come. -/
theorem exists_step {s : AudioRun S} {k : TrackKey} {pkt : RtpPacket} (h : s.InOrder k pkt) :
    ∃ s', Step sid key view s (.packet k pkt) s' := by
  rcases s.shard.track?_forwardRtp sid k.1 k.2 pkt view with hsame | ⟨hmem, hlets, t, ht, ht'⟩
  · exact ⟨_, .withheld h hsame⟩
  · exact ⟨_, .given h hmem hlets ht ht'⟩

/-- **Not too much is withheld**: before a packet of the stream that was given a number last,
when the filter lets it through, fewer than `2 ^ 15 - 1` have gone without. The numbers do not
get out of the range of an `i64`. -/
def Near (s : AudioRun S) : AudioEvent → Prop
  | .packet k pkt => pkt.seqNo < 2 ^ 63 ∧ ∀ t, s.shard.track? sid view = some t →
      t.egressSeqHigh + 2 ^ 15 < 2 ^ 63 ∧
      (k = key → s.shard.letsThrough sid k = true → s.anchored sid view = some pkt.ssrc →
        s.withheld + 1 < 2 ^ 15)
  | .recompute => True

end AudioRun

/-- The runs of a subscription, from any state of the shard in which it has no number yet. -/
def audio (S : Str0m) (sid : SessionId) (key view : TrackKey) :
    System (AudioRun S) AudioEvent where
  init s := (SfuShard.system S).Reachable s.shard ∧
    (∀ k, view ∈ s.shard.targets sid k → k = key) ∧
    (∀ t, s.shard.track? sid view = some t → t.egressSeqAnchor = none ∧ t.egressSeqHigh = 0) ∧
    (∀ k ssrc, s.last k ssrc = none) ∧ s.withheld = 0 ∧ s.written = []
  step := AudioRun.Step sid key view

namespace AudioRun

variable {S : Str0m} (sid : SessionId) (key view : TrackKey)

/-- The invariant: the number of the last packet, moved by the offset, is the highest number
written and what was withheld since. -/
structure Good (s : AudioRun S) : Prop where
  only : ∀ k, view ∈ s.shard.targets sid k → k = key
  fresh : ∀ t, s.shard.track? sid view = some t → t.egressSeqAnchor = none → t.egressSeqHigh = 0
  current : ∀ t ssrc offset, s.shard.track? sid view = some t →
    t.egressSeqAnchor = some (ssrc, offset) →
    ∃ n, s.last key ssrc = some n ∧ (n : ℤ) + offset = t.egressSeqHigh + s.withheld
  highest : ∀ t, s.shard.track? sid view = some t → highest s.written = t.egressSeqHigh
  within : ∀ e older, e :: older <:+ s.written →
    Video.highest older < e ∧ e < Video.highest older + 2 ^ 15

variable {sid key view} {s s' : AudioRun S}

/-- **The number that a packet is given.** -/
theorem Good.number (hs : s.Good sid key view) {pkt : RtpPacket} {t : TrackOut}
    (hok : Near sid key view s (.packet key pkt)) (horder : s.InOrder key pkt)
    (hlets : s.shard.letsThrough sid key = true) (ht : s.shard.track? sid view = some t) :
    ∃ offset : ℤ, ∃ e : ℕ, t.rewriteSeq pkt.ssrc pkt.seqNo =
        ({ t with
            egressSeqAnchor := some (pkt.ssrc, offset)
            egressSeqHigh := e }, e) ∧
      pkt.seqNo + offset = e ∧ t.egressSeqHigh < e ∧ e < t.egressSeqHigh + 2 ^ 15 := by
  obtain ⟨hn, hok⟩ := hok
  obtain ⟨hrange, hnear⟩ := hok t ht
  rcases hanchor : t.egressSeqAnchor with _ | ⟨ssrc, offset⟩
  · have hzero := hs.fresh t ht hanchor
    refine ⟨egressSeqStart - pkt.seqNo, egressSeqStart, ?_, by omega, ?_, ?_⟩
    · rw [TrackOut.rewriteSeq_first hanchor hn, hzero, Nat.zero_max]
    · rw [hzero]
      decide
    · rw [hzero]
      decide
  · by_cases hssrc : ssrc = pkt.ssrc
    · subst hssrc
      obtain ⟨n, hlast, hnum⟩ := hs.current t _ _ ht hanchor
      have hnext := horder n hlast
      have hshort := hnear rfl hlets (by rw [anchored, ht, Option.bind_some, hanchor]; rfl)
      have he : (pkt.seqNo : ℤ) + offset = (t.egressSeqHigh + s.withheld + 1 : ℕ) := by omega
      refine ⟨offset, t.egressSeqHigh + s.withheld + 1, ?_, he, by omega, by omega⟩
      rw [TrackOut.rewriteSeq_anchored hanchor hn (by omega) (by omega), he, Int.toNat_natCast,
        max_eq_right (by omega)]
    · refine ⟨t.egressSeqHigh + 1 - pkt.seqNo, t.egressSeqHigh + 1, ?_, by omega, by omega,
        by omega⟩
      rw [TrackOut.rewriteSeq_again hanchor hssrc hn (by omega)]

theorem targets_forwardRtp (st : SfuShard S) (sid : SessionId) (pid : ParticipantId) (mid : Mid)
    (pkt : RtpPacket) (k : TrackKey) :
    (st.forwardRtp sid pid mid pkt).targets sid k = st.targets sid k := by
  have hrel := (st.frame_forwardRtp sid pid mid pkt).sessions sid
  rw [SfuShard.targets, SfuShard.targets]
  rcases hs : st.session? sid with _ | s
  · rw [hs] at hrel
    rw [hrel.none_left]
  · rw [hs] at hrel
    obtain ⟨s', hs', hf⟩ := hrel.some_left
    rw [hs', Option.map_some, Option.map_some, hf.targets]

theorem targets_recompute (st : SfuShard S) (sid : SessionId) (k : TrackKey) :
    (st.recompute sid).targets sid k = st.targets sid k := by
  have hsession : (st.recompute sid).session? sid =
      (st.session? sid).map SfuSession.recomputeTopAudio :=
    (Dict.lookup_modify st.sessions sid sid _).trans (if_pos rfl)
  rw [SfuShard.targets, SfuShard.targets, hsession, Option.map_map]
  rfl

/-- **One step** under the condition. -/
theorem Good.step {e : AudioEvent} (hs : s.Good sid key view) (hok : s.Near sid key view e)
    (hstep : Step sid key view s e s') : s'.Good sid key view := by
  cases hstep with
  | recompute =>
    have htrack := s.shard.track?_modify sid (f := SfuSession.recomputeTopAudio) (fun _ => rfl) view
    refine ⟨fun k hk => ?_, fun t ht => ?_, fun t ssrc offset ht => ?_, fun t ht => ?_, hs.within⟩
    · rw [targets_recompute] at hk
      exact hs.only k hk
    · exact hs.fresh t (htrack ▸ ht)
    · exact hs.current t ssrc offset (htrack ▸ ht)
    · exact hs.highest t (htrack ▸ ht)
  | @withheld k pkt horder hsame =>
    refine ⟨fun k' hk' => ?_, fun t ht => ?_, fun t ssrc offset ht hanchor => ?_, fun t ht => ?_,
      hs.within⟩
    · dsimp only [pass] at hk'
      rw [targets_forwardRtp] at hk'
      exact hs.only k' hk'
    · exact hs.fresh t (hsame ▸ ht)
    · have ht : s.shard.track? sid view = some t := hsame ▸ ht
      obtain ⟨n, hlast, hnum⟩ := hs.current t ssrc offset ht hanchor
      have hanchored : s.anchored sid view = some ssrc := by
        rw [anchored, ht, Option.bind_some, hanchor]
        rfl
      dsimp only [pass, sent]
      by_cases hk : k = key ∧ ssrc = pkt.ssrc
      · -- one more packet of the stream has gone without
        obtain ⟨rfl, rfl⟩ := hk
        rw [if_pos ⟨rfl, rfl⟩, if_pos ⟨rfl, hanchored⟩]
        have hnext := horder n hlast
        exact ⟨_, rfl, by omega⟩
      · have hk' : ¬ (key = k ∧ ssrc = pkt.ssrc) := fun h => hk ⟨h.1.symm, h.2⟩
        have hw : ¬ (k = key ∧ s.anchored sid view = some pkt.ssrc) := fun h =>
          hk ⟨h.1, Option.some.inj (hanchored.symm.trans h.2)⟩
        rw [if_neg hk', if_neg hw]
        exact ⟨n, hlast, hnum⟩
    · exact hs.highest t (hsame ▸ ht)
  | @given k pkt t horder hmem hlets ht ht' =>
    obtain rfl := hs.only k hmem
    obtain ⟨offset, e, hrewrite, hnum, hlt, hlt'⟩ := hs.number hok horder hlets ht
    have hhigh := hs.highest t ht
    rw [hrewrite] at ht'
    rw [give, hrewrite]
    refine ⟨fun k' hk' => ?_, fun t₁ ht₁ hnone => ?_, fun t₁ ssrc₁ offset₁ ht₁ hanchor => ?_,
      fun t₁ ht₁ => ?_, fun e' older hsuffix => ?_⟩
    · rw [targets_forwardRtp] at hk'
      exact hs.only k' hk'
    · obtain rfl := Option.some.inj (ht'.symm.trans ht₁)
      cases hnone
    · obtain rfl := Option.some.inj (ht'.symm.trans ht₁)
      obtain ⟨rfl, rfl⟩ := Prod.mk.inj (Option.some.inj hanchor)
      exact ⟨pkt.seqNo, if_pos ⟨rfl, rfl⟩, by simpa using hnum⟩
    · obtain rfl := Option.some.inj (ht'.symm.trans ht₁)
      rw [highest_cons, hhigh]
      exact max_eq_left hlt.le
    · rcases List.suffix_cons_iff.mp hsuffix with heq | hsuffix
      · obtain ⟨rfl, rfl⟩ := List.cons.inj heq
        rw [hhigh]
        exact ⟨hlt, hlt'⟩
      · exact hs.within e' older hsuffix

theorem good_init (hinit : (audio S sid key view).init s) : s.Good sid key view := by
  obtain ⟨-, honly, hfresh, -, -, hwritten⟩ := hinit
  refine ⟨honly, fun t ht _ => (hfresh t ht).2, fun t ssrc offset ht hanchor => ?_, fun t ht => ?_,
    fun e older hsuffix => ?_⟩
  · rw [(hfresh t ht).1] at hanchor
    cases hanchor
  · rw [hwritten, (hfresh t ht).2]
    rfl
  · rw [hwritten] at hsuffix
    exact absurd hsuffix (by simp)

end AudioRun

/-! ### The result -/

variable {S : Str0m}

/-- **The receiver infers every number**: in a run in which not too much is withheld, every
number written exceeds the highest one written before by less than `2 ^ 15`. -/
theorem egress_within {sid : SessionId} {key view : TrackKey} {s : AudioRun S}
    (hs : (audio S sid key view).Reach (AudioRun.Near sid key view) s) :
    ∀ e older, e :: older <:+ s.written →
      highest older < e ∧ e < highest older + 2 ^ 15 ∧
        srtpIndex (highest older) (e % 2 ^ 16) = e := by
  have hgood : s.Good sid key view :=
    hs.invariant (fun _ => AudioRun.good_init) fun _ _ _ h hok hstep => h.step hok hstep
  intro e older hsuffix
  obtain ⟨hlt, hlt'⟩ := hgood.within e older hsuffix
  exact ⟨hlt, hlt', srtpIndex_eq hlt hlt'⟩

/-! ### A publisher that is quiet for a while

Four participants publish audio, and the first subscribes to the fourth. -/

/-- A transport that negotiates as the scripted one, and has one codec. -/
def relaying : Str0m :=
  { scripted with
    findPayload := fun _ pt => some pt
    matchParams := fun _ pp => some pp }

/-- A session with four participants that publish audio. -/
def fourParty : SfuShard relaying := .run [(1, 2)] 12000
  [.command (.join 7 1 "alice" "a" 11) ⟨"ua", "pa"⟩ 0 9,
    .command (.join 7 2 "bob" "a" 12) ⟨"ub", "pb"⟩ 0 9,
    .command (.join 7 3 "carol" "a" 13) ⟨"uc", "pc"⟩ 0 9,
    .command (.join 7 4 "dave" "a" 14) ⟨"ud", "pd"⟩ 0 9,
    .negotiate,
    .command (.answer 7 1 "accept") ⟨"", ""⟩ 40 9]

/-- A packet with a level, under voice activity or not. -/
def voice (ssrc : Ssrc) (n : ℕ) (level : Option ℤ) (active : Bool) : RtpPacket where
  ssrc := ssrc
  payloadType := 111
  headerTimestamp := 0
  marker := false
  extVals := { audioLevel := level, voiceActivity := some active }
  seqNo := n
  timestamp := 0
  payload := []

/-- A packet of the fourth participant, whose client sends no levels. -/
def steady (n : ℕ) : RtpPacket := voice 4 n none false

/-- The subscription of the first participant to the fourth. -/
def toFourth : TrackOut := { SfuShard.queuedTrack 4 0 .audio .camera with state := .opened 1002 }

namespace AudioRun

theorem inOrder_of_none {S : Str0m} {s : AudioRun S} {k : TrackKey} {pkt : RtpPacket}
    (h : s.last k pkt.ssrc = none) : s.InOrder k pkt := fun n hn => by
  rw [h] at hn
  cases hn

theorem inOrder_of_some {S : Str0m} {s : AudioRun S} {k : TrackKey} {pkt : RtpPacket} {n : ℕ}
    (h : s.last k pkt.ssrc = some n) (hnext : pkt.seqNo = n + 1) : s.InOrder k pkt :=
  fun n' hn' => by
    obtain rfl := Option.some.inj (h.symm.trans hn')
    exact hnext

/-- A packet that is not given a number, in the call of four. -/
abbrev passBy (s : AudioRun relaying) (k : TrackKey) (pkt : RtpPacket) : AudioRun relaying :=
  s.pass 7 (4, 0) (1, 1002) k pkt

/-- The first participant says nothing, the second and the third speak. -/
def talk : AudioRun relaying :=
  (((⟨fourParty, fun _ _ => none, 0, []⟩ : AudioRun relaying).passBy (1, 0)
    (voice 1 0 (some 0) false)).passBy (2, 0) (voice 2 0 (some (-110)) true)).passBy (3, 0)
      (voice 3 0 (some (-100)) true)

/-- The loudest then. -/
def loudest : List (ℚ × TrackKey) := [(389 / 5, (2, 0)), (374 / 5, (3, 0)), (64, (4, 0))]

/-- The fourth participant is heard, and the first speaks. -/
def firstSpeaks : AudioRun relaying :=
  (give 7 { talk with shard := talk.shard.setLoudest 7 loudest } (4, 0) (steady 0)
    toFourth).passBy (1, 0) (voice 1 1 (some (-127)) true)

/-- The loudest then. -/
def loudest' : List (ℚ × TrackKey) := [(389 / 5, (2, 0)), (374 / 5, (3, 0)), (3473 / 50, (1, 0))]

/-- The fourth participant is not heard any more. -/
def muted : AudioRun relaying :=
  { firstSpeaks with shard := firstSpeaks.shard.setLoudest 7 loudest' }

/-- The state after so many of its packets, one at least. -/
def paused (n : ℕ) : AudioRun relaying where
  shard := muted.shard.forwardRtp 7 4 0 (steady 1)
  last := fun k ssrc => if k = (4, 0) ∧ ssrc = 4 then some n else muted.last k ssrc
  withheld := n
  written := [10000]

/-- The first participant says nothing again. -/
def firstSilent (n : ℕ) : AudioRun relaying := (paused n).passBy (1, 0) (voice 1 2 (some 0) false)

/-- The fourth participant is heard again. -/
def heardAgain (n : ℕ) : AudioRun relaying :=
  { firstSilent n with shard := (firstSilent n).shard.setLoudest 7 loudest }

/-- Its first packet after the pause. -/
def resumed (n : ℕ) : AudioRun relaying :=
  (heardAgain n).give 7 (4, 0) (steady (n + 1)) (toFourth.rewriteSeq 4 0).1

theorem recompute_of_loudest {st : SfuShard relaying} (top : List (ℚ × TrackKey))
    (quietest : ℚ × TrackKey) (hs : (st.session? 7).isSome)
    (hperm : (SfuShard.loudness ((st.session? 7).get hs)).Perm (top ++ [quietest]))
    (hsorted : (top ++ [quietest]).Pairwise fun a b => b.1 < a.1) (htop : top.length = 3) :
    st.recompute 7 = st.setLoudest 7 top :=
  SfuShard.recompute_eq (Option.some_get hs).symm hperm hsorted htop (List.cons_ne_nil _ _)

theorem mem_targets {S : Str0m} {st : SfuShard S} {sid : SessionId} {k view : TrackKey}
    {s : SfuSession S} (hs : st.session? sid = some s) (h : view ∈ st.targets sid k) :
    ∃ list, (k, list) ∈ s.forwardingMap.pairs ∧ view ∈ list := by
  rw [SfuShard.targets, hs, Option.map_some, Option.getD_some, SfuSession.targets] at h
  rcases hk : s.forwardingMap.lookup k with _ | list
  · rw [hk] at h
    exact absurd h List.not_mem_nil
  · rw [hk] at h
    exact ⟨list, Dict.mem_pairs.mpr hk, h⟩

/-- The runs of the call of four in which not too much is withheld. -/
abbrev NearReach : AudioRun relaying → Prop :=
  (audio relaying 7 (4, 0) (1, 1002)).Reach (Near 7 (4, 0) (1, 1002))

theorem NearReach.passBy {s : AudioRun relaying} (hs : NearReach s) (k : TrackKey) (pkt : RtpPacket)
    (t : TrackOut) (hn : pkt.seqNo < 2 ^ 63) (ht : s.shard.track? 7 (1, 1002) = some t)
    (hhigh : t.egressSeqHigh + 2 ^ 15 < 2 ^ 63)
    (hlets : k = (4, 0) → s.shard.letsThrough 7 k = false) (horder : s.InOrder k pkt)
    (hsame : (s.shard.forwardRtp 7 k.1 k.2 pkt).track? 7 (1, 1002) = some t) :
    NearReach (s.passBy k pkt) := by
  have hok : Near 7 (4, 0) (1, 1002) s (.packet k pkt) := by
    refine ⟨hn, fun t' ht' => ?_⟩
    obtain rfl := Option.some.inj (ht.symm.trans ht')
    exact ⟨hhigh, fun hk h => by rw [hlets hk] at h; cases h⟩
  exact hs.step hok (Step.withheld horder (hsame.trans ht.symm))

theorem NearReach.recompute {s : AudioRun relaying} (hs : NearReach s) {top : List (ℚ × TrackKey)}
    (h : s.shard.recompute 7 = s.shard.setLoudest 7 top) :
    NearReach { s with shard := s.shard.setLoudest 7 top } := by
  have hok : Near 7 (4, 0) (1, 1002) s .recompute := trivial
  exact hs.step hok (h ▸ Step.recompute)

theorem NearReach.give {s : AudioRun relaying} (hs : NearReach s) (pkt : RtpPacket)
    (t : TrackOut) (hn : pkt.seqNo < 2 ^ 63) (ht : s.shard.track? 7 (1, 1002) = some t)
    (hhigh : t.egressSeqHigh + 2 ^ 15 < 2 ^ 63) (hw : s.withheld + 1 < 2 ^ 15)
    (hstep : Step 7 (4, 0) (1, 1002) s (.packet (4, 0) pkt) (s.give 7 (4, 0) pkt t)) :
    NearReach (s.give 7 (4, 0) pkt t) := by
  have hok : Near 7 (4, 0) (1, 1002) s (.packet (4, 0) pkt) := by
    refine ⟨hn, fun t' ht' => ?_⟩
    obtain rfl := Option.some.inj (ht.symm.trans ht')
    exact ⟨hhigh, fun _ _ _ => hw⟩
  exact hs.step hok hstep

/-- Their session. -/
def fourPartySession : SfuSession relaying := (fourParty.session? 7).get (by decide)

theorem init_fourParty :
    (audio relaying 7 (4, 0) (1, 1002)).init ⟨fourParty, fun _ _ => none, 0, []⟩ := by
  refine ⟨SfuShard.reachable_run _ _ _, fun k hk => ?_, fun t ht => ?_, fun _ _ => rfl, rfl, rfl⟩
  · obtain ⟨list, hmem, hview⟩ := mem_targets (Option.some_get (by decide)).symm hk
    have honly : ∀ e ∈ fourPartySession.forwardingMap.pairs, (1, 1002) ∈ e.2 → e.1 = (4, 0) := by
      decide
    exact honly _ hmem hview
  · have ht' : fourParty.track? 7 (1, 1002) = some toFourth := by decide
    obtain rfl := Option.some.inj (ht'.symm.trans ht)
    exact ⟨rfl, rfl⟩

theorem reach_talk : NearReach talk := by
  have h₁ := NearReach.passBy (.start init_fourParty) (1, 0) (voice 1 0 (some 0) false) toFourth
    (by decide) (by decide) (by decide) (fun h => by cases h) (inOrder_of_none rfl) (by decide)
  have h₂ := h₁.passBy (2, 0) (voice 2 0 (some (-110)) true) toFourth (by decide)
    (by decide) (by decide) (fun h => by cases h) (inOrder_of_none rfl) (by decide)
  exact h₂.passBy (3, 0) (voice 3 0 (some (-100)) true) toFourth (by decide)
    (by decide) (by decide) (fun h => by cases h) (inOrder_of_none rfl) (by decide)

/-- The subscription when it has been given one number. -/
def numbered : TrackOut := (toFourth.rewriteSeq 4 0).1

theorem egressSeqHigh_numbered : numbered.egressSeqHigh + 2 ^ 15 < 2 ^ 63 := by decide

theorem reach_muted : NearReach muted := by
  have h₁ := reach_talk.recompute (recompute_of_loudest loudest (224 / 5, (1, 0)) (by decide)
    (by decide +kernel) (by decide +kernel) rfl)
  have h₂ := h₁.give (steady 0) toFourth (by decide) (by decide) (by decide) (by decide)
    (Step.given (inOrder_of_none rfl) (by decide) (by decide) (by decide) (by decide))
  have h₃ : NearReach firstSpeaks := h₂.passBy (1, 0) (voice 1 1 (some (-127)) true)
    numbered (by decide) (by decide) egressSeqHigh_numbered (fun h => by cases h)
    (inOrder_of_some (n := 0) (by decide) rfl) (by decide)
  exact h₃.recompute (recompute_of_loudest loudest' (64, (4, 0)) (by decide) (by decide +kernel)
    (by decide +kernel) rfl)

/-- The shard during the pause. -/
def pausedShard : SfuShard relaying := muted.shard.forwardRtp 7 4 0 (steady 1)

theorem track?_pausedShard : pausedShard.track? 7 (1, 1002) = some numbered := by decide

/-- The session, and the fourth participant in it, when it is muted. -/
def mutedSession : SfuSession relaying := (muted.shard.session? 7).get (by decide +kernel)

/-- The fourth of them, muted. -/
def mutedFourth : SfuParticipant relaying :=
  (mutedSession.participants.lookup 4).get (by decide +kernel)

/-- Its audio track. -/
def mutedTrack : TrackIn :=
  (mutedFourth.tracksIn.find? fun t => t.mid = 0).get (by decide +kernel)

theorem forwardRtp_pausedShard (n : ℕ) :
    pausedShard.forwardRtp 7 4 0 (steady n) = pausedShard := by
  have hs : muted.shard.session? 7 = some mutedSession := (Option.some_get _).symm
  have hp : mutedSession.participants.lookup 4 = some mutedFourth := (Option.some_get _).symm
  have htrack : (mutedFourth.tracksIn.find? fun t => t.mid = 0) = some mutedTrack :=
    (Option.some_get _).symm
  exact SfuShard.forwardRtp_silence hs hp htrack (by decide) (by decide) rfl rfl

theorem anchored_paused (n : ℕ) : (paused n).anchored 7 (1, 1002) = some 4 := by
  have ht : (paused n).shard.track? 7 (1, 1002) = some numbered := track?_pausedShard
  rw [anchored, ht]
  rfl

theorem letsThrough_pausedShard : pausedShard.letsThrough 7 (4, 0) = false := by decide

theorem passBy_muted : muted.passBy (4, 0) (steady 1) = paused 1 := by
  have hanchored : muted.anchored 7 (1, 1002) = some 4 := by decide
  have hwritten : muted.written = [10000] := by decide
  rw [passBy, pass, if_pos ⟨rfl, hanchored⟩, hwritten]
  rfl

theorem passBy_paused (n : ℕ) : (paused n).passBy (4, 0) (steady (n + 1)) = paused (n + 1) := by
  have hlast : (paused n).sent (4, 0) (steady (n + 1)) = (paused (n + 1)).last := by
    funext k ssrc
    by_cases hk : k = (4, 0) ∧ ssrc = 4
    · exact (if_pos hk).trans (if_pos hk).symm
    · exact (if_neg hk).trans ((if_neg hk).trans (if_neg hk).symm)
  have hshard : (paused n).shard.forwardRtp 7 4 0 (steady (n + 1)) = pausedShard :=
    forwardRtp_pausedShard (n + 1)
  rw [passBy, pass, hlast, hshard, if_pos ⟨rfl, anchored_paused n⟩]
  rfl

/-- Any number of packets is withheld. -/
theorem reach_paused {n : ℕ} (hpos : 0 < n) (hn : n < 2 ^ 63) : NearReach (paused n) := by
  induction n with
  | zero => exact absurd hpos (lt_irrefl 0)
  | succ n ih =>
    rcases Nat.eq_zero_or_pos n with rfl | hpos
    · rw [← passBy_muted]
      exact reach_muted.passBy (4, 0) (steady 1) numbered (by decide) (by decide)
        egressSeqHigh_numbered (fun _ => by decide)
        (inOrder_of_some (n := 0) (by decide) rfl) track?_pausedShard
    · have hshard : (paused n).shard.forwardRtp 7 4 0 (steady (n + 1)) = pausedShard :=
        forwardRtp_pausedShard (n + 1)
      have hlast : (paused n).last (4, 0) (steady (n + 1)).ssrc = some n := by
        dsimp only [paused]
        exact if_pos ⟨rfl, rfl⟩
      rw [← passBy_paused]
      refine (ih hpos (by omega)).passBy (4, 0) (steady (n + 1)) numbered hn track?_pausedShard
        egressSeqHigh_numbered (fun _ => letsThrough_pausedShard) (inOrder_of_some hlast rfl) ?_
      rw [hshard]
      exact track?_pausedShard

theorem reach_heardAgain {n : ℕ} (hpos : 0 < n) (hn : n < 2 ^ 63) : NearReach (heardAgain n) := by
  have hlast : (paused n).last (1, 0) 1 = some 1 := by
    have hmuted : muted.last (1, 0) 1 = some 1 := by decide
    dsimp only [paused]
    rw [if_neg (by decide), hmuted]
  have hsilent : NearReach (firstSilent n) :=
    (reach_paused hpos hn).passBy (1, 0) (voice 1 2 (some 0) false) numbered (by decide)
      track?_pausedShard egressSeqHigh_numbered (fun h => by cases h) (inOrder_of_some hlast rfl)
      (show (pausedShard.forwardRtp 7 1 0 (voice 1 2 (some 0) false)).track? 7 (1, 1002) = _ by
        decide)
  have hloudest : (pausedShard.forwardRtp 7 1 0 (voice 1 2 (some 0) false)).recompute 7 =
      (pausedShard.forwardRtp 7 1 0 (voice 1 2 (some 0) false)).setLoudest 7 loudest :=
    recompute_of_loudest loudest (24311 / 500, (1, 0)) (by decide) (by decide +kernel)
      (by decide +kernel) rfl
  exact hsilent.recompute hloudest

/-- The shard after the pause. -/
def heardShard : SfuShard relaying :=
  (pausedShard.forwardRtp 7 1 0 (voice 1 2 (some 0) false)).setLoudest 7 loudest

theorem track?_heardShard : heardShard.track? 7 (1, 1002) = some numbered := by decide

theorem last_heardAgain (n : ℕ) : (heardAgain n).last (4, 0) 4 = some n := by
  dsimp only [heardAgain, firstSilent, passBy, pass, sent, paused]
  rw [if_neg (by decide), if_pos ⟨rfl, rfl⟩]

theorem withheld_heardAgain (n : ℕ) : (heardAgain n).withheld = n := by
  dsimp only [heardAgain, firstSilent, passBy, pass]
  rw [if_neg (by simp)]
  rfl

theorem written_resumed {n : ℕ} (hn : n + 10001 < 2 ^ 63) :
    (resumed n).written = [n + 10001, 10000] := by
  have hanchor : numbered.egressSeqAnchor = some (4, 10000) := by decide
  have hwritten : (heardAgain n).written = [10000] := rfl
  have he : (numbered.rewriteSeq 4 (n + 1)).2 = n + 10001 := by
    rw [TrackOut.rewriteSeq_anchored hanchor (by omega) (by omega) (by omega)]
    dsimp only
    omega
  dsimp only [resumed, give]
  rw [hwritten]
  exact congrArg (· :: [10000]) he

theorem step_resumed (n : ℕ) :
    Step 7 (4, 0) (1, 1002) (heardAgain n) (.packet (4, 0) (steady (n + 1))) (resumed n) := by
  have hmem : (1, 1002) ∈ heardShard.targets 7 (4, 0) := by decide
  have hlets : heardShard.letsThrough 7 (4, 0) = true := by decide
  have ht' : (heardShard.forwardRtp 7 4 0 (steady (n + 1))).track? 7 (1, 1002) =
      some (numbered.rewriteSeq 4 (n + 1)).1 := by rfl
  exact .given (inOrder_of_some (last_heardAgain n) rfl) hmem hlets track?_heardShard ht'

/-- A pause of two packets. -/
theorem reach_resumed : NearReach (resumed 2) :=
  (reach_heardAgain (n := 2) (by decide) (by decide)).give (steady 3) numbered (by decide)
    track?_heardShard egressSeqHigh_numbered
    (by rw [withheld_heardAgain]; decide) (step_resumed 2)

end AudioRun

theorem egress_within_resumed : (AudioRun.resumed 2).written = [10003, 10000] ∧
    ∀ e older, e :: older <:+ (AudioRun.resumed 2).written →
      highest older < e ∧ e < highest older + 2 ^ 15 ∧
        srtpIndex (highest older) (e % 2 ^ 16) = e :=
  ⟨AudioRun.written_resumed (by decide), egress_within AudioRun.reach_resumed⟩

/-- **A long pause**: the number exceeds the one before by `2 ^ 16`, and the receiver takes
it for the one before. -/
theorem egress_jumps : ∃ s, (audio relaying 7 (4, 0) (1, 1002)).Reachable s ∧
    s.written = [10000 + 2 ^ 16, 10000] ∧ srtpIndex 10000 ((10000 + 2 ^ 16) % 2 ^ 16) = 10000 := by
  have hnear := AudioRun.reach_heardAgain (n := 2 ^ 16 - 1) (by decide) (by decide)
  have hreach : (audio relaying 7 (4, 0) (1, 1002)).Reachable (AudioRun.heardAgain (2 ^ 16 - 1)) :=
    hnear.mono fun _ _ _ => trivial
  exact ⟨_, hreach.step trivial (AudioRun.step_resumed (2 ^ 16 - 1)),
    AudioRun.written_resumed (by decide), by decide⟩

end Video

end MateHub
