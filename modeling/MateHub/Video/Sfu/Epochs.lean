import MateHub.Video.Sfu.Egress

/-!
# Order and gaps of the egress numbers

The packets of a subscription come in epochs, between the changes of the publisher's SSRC. In
an epoch the ingress numbers are moved by one offset, so what has to be known of a packet is
the number that is due to it (`MateHub.Video.EpochRun.due`): in the epoch, as far from the
number of the first packet as its ingress number is from the first one; for a first packet, the
number after all that have been given. The code computes this number, cut off at 1, as long as
the numbers are those of an `i64` (`MateHub.Video.EpochRun.Good.rewriteSeq`).

So order and gaps are kept in an epoch, for packets that are not further below the first one
than there is room, each epoch starts above all numbers before, and no operation leaves its
range (`MateHub.Video.gaps_kept`). Out of the range of an `i64` this breaks
(`MateHub.Video.gaps_lost`).
-/

namespace MateHub

namespace Video

/-- The packets between two changes of SSRC: the ingress number of the first one, the number
that it was given, and all of them with both numbers, latest first. -/
structure Epoch where
  ssrc : Ssrc
  first : ℕ
  start : ℕ
  written : List (ℕ × ℕ)
  deriving DecidableEq

/-- A subscription and its epochs, latest first. -/
structure EpochRun where
  track : TrackOut
  epochs : List Epoch

namespace EpochRun

/-- The epochs after a packet with its number. -/
def record (q : Numbered) (egress : ℕ) : List Epoch → List Epoch
  | [] => [⟨q.1, q.2, egress, [(q.2, egress)]⟩]
  | ep :: eps =>
    if ep.ssrc = q.1 then { ep with written := (q.2, egress) :: ep.written } :: eps
    else ⟨q.1, q.2, egress, [(q.2, egress)]⟩ :: ep :: eps

/-- A packet is forwarded. -/
def next (s : EpochRun) (q : Numbered) : EpochRun where
  track := (s.track.rewriteSeq q.1 q.2).1
  epochs := record q (s.track.rewriteSeq q.1 q.2).2 s.epochs

/-- **The number that is due to a packet.** -/
def due (s : EpochRun) (q : Numbered) : ℤ :=
  match s.epochs with
  | [] => egressSeqStart
  | ep :: _ =>
    if ep.ssrc = q.1 then ep.start + (q.2 - ep.first) else s.track.egressSeqHigh + 1

/-- **The condition on a packet**: its number and the one that is due to it are in the range of
an `i64`. -/
def InRange (s : EpochRun) (q : Numbered) : Prop := q.2 < 2 ^ 63 ∧ s.due q < 2 ^ 63

instance (s : EpochRun) (q : Numbered) : Decidable (s.InRange q) :=
  inferInstanceAs (Decidable (_ ∧ _))

/-- What an operation gives is in the range of its type. -/
def IsI64 (x : ℤ) : Prop := -2 ^ 63 ≤ x ∧ x < 2 ^ 63

/-- A number of 64 bits without a sign. -/
def IsU64 (x : ℤ) : Prop := 0 ≤ x ∧ x < 2 ^ 64

/-- **No operation of the rewrite leaves its range**, at the values that it has without any
cast. -/
def StaysInRange (t : TrackOut) (q : Numbered) : Prop :=
  IsI64 q.2 ∧
  match t.egressSeqAnchor with
  | none => IsI64 (egressSeqStart - q.2) ∧ IsI64 (q.2 + (egressSeqStart - q.2))
  | some (ssrc, offset) =>
    if ssrc = q.1 then IsI64 (q.2 + offset) ∧ IsU64 (max (q.2 + offset) 1)
    else IsU64 (t.egressSeqHigh + 1) ∧ IsI64 (t.egressSeqHigh + 1) ∧
      IsI64 (t.egressSeqHigh + 1 - q.2) ∧ IsI64 (q.2 + (t.egressSeqHigh + 1 - q.2))

/-- The invariant. -/
structure Good (s : EpochRun) : Prop where
  anchor : s.track.egressSeqAnchor =
    s.epochs.head?.map fun ep => (ep.ssrc, (ep.start : ℤ) - ep.first)
  fresh : s.epochs = [] → s.track.egressSeqHigh = 0
  bounded : ∀ ep ∈ s.epochs, 1 ≤ ep.start ∧ ep.start < 2 ^ 63 ∧ ep.first < 2 ^ 63
  moved : ∀ ep ∈ s.epochs, ∀ w ∈ ep.written,
    (w.2 : ℤ) = max ((ep.start : ℤ) + ((w.1 : ℤ) - ep.first)) 1
  le_high : ∀ ep ∈ s.epochs, ∀ w ∈ ep.written, w.2 ≤ s.track.egressSeqHigh
  high : s.track.egressSeqHigh < 2 ^ 63
  ordered : s.epochs.Pairwise fun later earlier => ∀ w ∈ earlier.written, w.2 < later.start
  starts : ∀ ep ∈ s.epochs, ep.written.getLast? = some (ep.first, ep.start)

end EpochRun

/-- A packet of the SSRC that the offset is for, also below the room that there is. -/
theorem TrackOut.rewriteSeq_cut {t : TrackOut} {ssrc : Ssrc} {n : ℕ} {offset : ℤ}
    (hanchor : t.egressSeqAnchor = some (ssrc, offset)) (hn : n < 2 ^ 63)
    (hlow : -2 ^ 63 ≤ n + offset) (hhigh : n + offset < 2 ^ 63) :
    t.rewriteSeq ssrc n = ({ t with
      egressSeqAnchor := some (ssrc, offset)
      egressSeqHigh := max t.egressSeqHigh (max (n + offset) 1).toNat },
        (max (n + offset) 1).toNat) := by
  have hegress : asI64 (asI64 n + offset) = n + offset := by
    rw [asI64_eq (x := n) (by omega) (by omega), asI64_eq hlow hhigh]
  simp only [rewriteSeq, hanchor, if_pos, hegress]

namespace EpochRun

variable {s : EpochRun} {q : Numbered}

/-- **What the rewrite does**: it gives the number that is due, cut off at 1, and keeps the
offset of the epoch. -/
theorem Good.rewriteSeq (h : s.Good) (hq : s.InRange q) :
    s.track.rewriteSeq q.1 q.2 = ({ s.track with
      egressSeqAnchor := (record q (max (s.due q) 1).toNat s.epochs).head?.map fun ep =>
        (ep.ssrc, (ep.start : ℤ) - ep.first)
      egressSeqHigh := max s.track.egressSeqHigh (max (s.due q) 1).toNat },
        (max (s.due q) 1).toNat) := by
  obtain ⟨hn, hdue⟩ := hq
  have hanchor := h.anchor
  rw [due] at hdue ⊢
  rcases hepochs : s.epochs with _ | ⟨ep, eps⟩
  · rw [hepochs] at hanchor
    exact TrackOut.rewriteSeq_first hanchor hn
  · rw [hepochs] at hanchor hdue
    dsimp only at hdue ⊢
    obtain ⟨hstart, -, hfirst⟩ := h.bounded ep (hepochs ▸ List.mem_cons_self)
    by_cases hssrc : ep.ssrc = q.1
    · rw [if_pos hssrc] at hdue
      have hanchor' : s.track.egressSeqAnchor = some (q.1, (ep.start : ℤ) - ep.first) := by
        rw [hanchor, ← hssrc]
        rfl
      have hsame : (q.2 : ℤ) + ((ep.start : ℤ) - ep.first) = ep.start + (q.2 - ep.first) := by
        omega
      rw [TrackOut.rewriteSeq_cut hanchor' hn (by omega) (by omega), record, if_pos hssrc,
        if_pos hssrc, hsame, List.head?_cons, Option.map_some, hssrc]
    · rw [if_neg hssrc] at hdue
      have hnext : (max ((s.track.egressSeqHigh : ℤ) + 1) 1).toNat = s.track.egressSeqHigh + 1 := by
        omega
      rw [TrackOut.rewriteSeq_again hanchor hssrc hn (by omega), record, if_neg hssrc,
        if_neg hssrc, hnext, max_eq_right (Nat.le_succ _)]
      simp

/-- The operations of the rewrite, one by one. -/
theorem Good.staysInRange (h : s.Good) (hq : s.InRange q) : StaysInRange s.track q := by
  obtain ⟨hn, hdue⟩ := hq
  have hanchor := h.anchor
  have hstart : (egressSeqStart : ℤ) = 10000 := rfl
  rw [due] at hdue
  refine ⟨⟨by omega, by omega⟩, ?_⟩
  rcases hepochs : s.epochs with _ | ⟨ep, eps⟩
  · rw [hepochs] at hanchor
    rw [hanchor]
    exact ⟨⟨by omega, by omega⟩, by omega, by omega⟩
  · rw [hepochs] at hanchor hdue
    rw [hanchor]
    dsimp only [List.head?_cons, Option.map_some] at hdue ⊢
    obtain ⟨hstart, -, hfirst⟩ := h.bounded ep (hepochs ▸ List.mem_cons_self)
    have hhigh := h.high
    split_ifs at hdue ⊢
    · exact ⟨⟨by omega, by omega⟩, by omega, by omega⟩
    · exact ⟨⟨by omega, by omega⟩, ⟨by omega, by omega⟩, ⟨by omega, by omega⟩, by omega, by omega⟩

/-- A packet starts an epoch, above all numbers before, or it is one more of the latest. -/
theorem Good.record_cases (h : s.Good) (q : Numbered) :
    (record q (max (s.due q) 1).toNat s.epochs = ⟨q.1, q.2, (max (s.due q) 1).toNat,
        [(q.2, (max (s.due q) 1).toNat)]⟩ :: s.epochs ∧
      ∀ ep ∈ s.epochs, ∀ w ∈ ep.written, w.2 < (max (s.due q) 1).toNat) ∨
    ∃ ep eps, s.epochs = ep :: eps ∧ s.due q = ep.start + (q.2 - ep.first) ∧
      record q (max (s.due q) 1).toNat s.epochs =
        { ep with written := (q.2, (max (s.due q) 1).toNat) :: ep.written } :: eps := by
  have hle := h.le_high
  rcases hepochs : s.epochs with _ | ⟨ep, eps⟩
  · exact .inl ⟨rfl, by simp⟩
  · rw [hepochs] at hle
    by_cases hssrc : ep.ssrc = q.1
    · have hdue : s.due q = ep.start + (q.2 - ep.first) := by
        rw [due, hepochs]
        exact if_pos hssrc
      exact .inr ⟨ep, eps, rfl, hdue, if_pos hssrc⟩
    · have hdue : s.due q = s.track.egressSeqHigh + 1 := by
        rw [due, hepochs]
        exact if_neg hssrc
      refine .inl ⟨if_neg hssrc, fun ep' hep' w hw => ?_⟩
      have hw' := hle ep' hep' w hw
      omega

/-- **One packet** in range. -/
theorem Good.next (h : s.Good) (hq : s.InRange q) : (s.next q).Good := by
  have hrecord := h.record_cases q
  obtain ⟨hn, hdue⟩ := hq
  have hnext : (max (s.due q) 1).toNat < 2 ^ 63 ∧ 1 ≤ (max (s.due q) 1).toNat ∧
      (((max (s.due q) 1).toNat : ℕ) : ℤ) = max (s.due q) 1 := by omega
  rw [EpochRun.next, h.rewriteSeq ⟨hn, hdue⟩]
  dsimp only
  generalize hegress : (max (s.due q) 1).toNat = egress at *
  obtain ⟨hlt, hpos, hcast⟩ := hnext
  have hhigh : max s.track.egressSeqHigh egress < 2 ^ 63 := max_lt h.high hlt
  have hle := h.le_high
  rcases hrecord with ⟨hrecord, habove⟩ | ⟨ep, eps, hepochs, hdue', hrecord⟩
  · rw [hrecord]
    refine ⟨rfl, nofun, fun ep' hep' => ?_, fun ep' hep' w hw => ?_, fun ep' hep' w hw => ?_, hhigh,
      List.pairwise_cons.mpr ⟨habove, h.ordered⟩, fun ep' hep' => ?_⟩
    · rcases List.mem_cons.mp hep' with rfl | hep'
      · exact ⟨hpos, hlt, hn⟩
      · exact h.bounded ep' hep'
    · rcases List.mem_cons.mp hep' with rfl | hep'
      · obtain rfl := List.mem_singleton.mp hw
        dsimp only
        omega
      · exact h.moved ep' hep' w hw
    · rcases List.mem_cons.mp hep' with rfl | hep'
      · obtain rfl := List.mem_singleton.mp hw
        exact le_max_right _ _
      · exact (hle ep' hep' w hw).trans (le_max_left _ _)
    · rcases List.mem_cons.mp hep' with rfl | hep'
      · rfl
      · exact h.starts ep' hep'
  · have hep := hepochs ▸ List.mem_cons_self (a := ep) (l := eps)
    have heps : ∀ ep' ∈ eps, ep' ∈ s.epochs := fun ep' hep' =>
      hepochs ▸ List.mem_cons_of_mem ep hep'
    have hordered := List.pairwise_cons.mp (hepochs ▸ h.ordered)
    rw [hrecord]
    refine ⟨rfl, nofun, fun ep' hep' => ?_, fun ep' hep' w hw => ?_, fun ep' hep' w hw => ?_, hhigh,
      List.pairwise_cons.mpr hordered, fun ep' hep' => ?_⟩
    · rcases List.mem_cons.mp hep' with rfl | hep'
      · exact h.bounded ep hep
      · exact h.bounded ep' (heps ep' hep')
    · rcases List.mem_cons.mp hep' with rfl | hep'
      · rcases List.mem_cons.mp hw with rfl | hw
        · rw [← hdue']
          exact hcast
        · exact h.moved ep hep w hw
      · exact h.moved ep' (heps ep' hep') w hw
    · rcases List.mem_cons.mp hep' with rfl | hep'
      · rcases List.mem_cons.mp hw with rfl | hw
        · exact le_max_right _ _
        · exact (hle ep hep w hw).trans (le_max_left _ _)
      · exact (hle ep' (heps ep' hep') w hw).trans (le_max_left _ _)
    · rcases List.mem_cons.mp hep' with rfl | hep'
      · rw [List.getLast?_cons, h.starts ep hep, Option.getD_some]
      · exact h.starts ep' (heps ep' hep')

/-- The packets that a subscription forwards, from its start. -/
def system : System EpochRun Numbered where
  init s := s.track.egressSeqAnchor = none ∧ s.track.egressSeqHigh = 0 ∧ s.epochs = []
  step s q t := t = s.next q

/-- **The run lemma.** -/
theorem good (hs : system.Reach InRange s) : s.Good := by
  refine hs.invariant ?_ ?_
  · rintro s ⟨hanchor, hhigh, hepochs⟩
    refine ⟨?_, fun _ => hhigh, ?_, ?_, ?_, ?_, ?_, ?_⟩
    · rw [hanchor, hepochs]
      rfl
    · simp [hepochs]
    · simp [hepochs]
    · simp [hepochs]
    · rw [hhigh]
      decide
    · simp [hepochs]
    · simp [hepochs]
  · rintro s q - h hq rfl
    exact h.next hq

end EpochRun

open EpochRun

/-- **Order and gaps**: in a run whose numbers are in the range of an `i64`, the numbers of two
packets of an epoch are as far apart as their ingress numbers, where these are not below the first
one by more than there is room; the first packet of each epoch has a number above all that were
given before; and no operation of the rewrite leaves the range of its type. -/
theorem gaps_kept {s : EpochRun} (hs : EpochRun.system.Reach InRange s) :
    (∀ ep ∈ s.epochs, ∀ w ∈ ep.written, ∀ w' ∈ ep.written,
      (ep.first : ℤ) - (ep.start - 1) ≤ w.1 → (ep.first : ℤ) - (ep.start - 1) ≤ w'.1 →
        (w.2 : ℤ) - w'.2 = w.1 - w'.1) ∧
    (∀ ep ∈ s.epochs, ep.written.getLast? = some (ep.first, ep.start)) ∧
    (s.epochs.Pairwise fun later earlier => ∀ w ∈ earlier.written, w.2 < later.start) ∧
    ∀ q, s.InRange q → StaysInRange s.track q := by
  have h := good hs
  refine ⟨fun ep hep w hw w' hw' hle hle' => ?_, h.starts, h.ordered, fun q => h.staysInRange⟩
  have hmoved := h.moved ep hep w hw
  have hmoved' := h.moved ep hep w' hw'
  omega

/-- A subscription before its first packet. -/
def freshEpochs : EpochRun := ⟨SfuShard.queuedTrack 4 0 .video .camera, []⟩

theorem init_freshEpochs : EpochRun.system.init freshEpochs := ⟨rfl, rfl, rfl⟩

/-- Two packets in the wrong order, then a change of SSRC. -/
def twoEpochs : EpochRun :=
  [(1, 1000), (1, 998), (2, 501), (2, 502)].foldl EpochRun.next freshEpochs

theorem gaps_kept_twoEpochs : twoEpochs.epochs =
      [⟨2, 501, 10001, [(502, 10002), (501, 10001)]⟩,
        ⟨1, 1000, 10000, [(998, 9998), (1000, 10000)]⟩] ∧
    twoEpochs.epochs.Pairwise fun later earlier => ∀ w ∈ earlier.written, w.2 < later.start := by
  have hreach : EpochRun.system.Reach InRange twoEpochs :=
    System.Reach.foldl (fun _ _ => rfl) (.start init_freshEpochs) (by decide)
  exact ⟨by decide, (gaps_kept hreach).2.2.1⟩

/-- The second number is out of the range of an `i64`. -/
def farAhead : EpochRun := [(1, 0), (1, 2 ^ 63)].foldl EpochRun.next freshEpochs

/-- The number before the change of SSRC is the last one of an `i64`. -/
def farUp : EpochRun := [(1, 0), (1, 2 ^ 63 - 10001), (2, 0)].foldl EpochRun.next freshEpochs

/-- **Out of range** the later packet of an epoch gets the lower number, and an epoch starts
again at 1. -/
theorem gaps_lost : EpochRun.system.Reachable farAhead ∧
    farAhead.epochs = [⟨1, 0, 10000, [(2 ^ 63, 1), (0, 10000)]⟩] ∧
    EpochRun.system.Reachable farUp ∧
    farUp.epochs = [⟨2, 0, 1, [(0, 1)]⟩,
      ⟨1, 0, 10000, [(2 ^ 63 - 10001, 2 ^ 63 - 1), (0, 10000)]⟩] :=
  ⟨System.reachable_foldl init_freshEpochs (fun _ _ => rfl) _, by decide,
    System.reachable_foldl init_freshEpochs (fun _ _ => rfl) _, by decide⟩

end Video

end MateHub
