import MateHub.Lib.Runs
import MateHub.Video.Sfu.Media

/-!
# Egress sequence numbers

A subscription gives the packets that it forwards new sequence numbers: the ingress number
moved by an offset, which is chosen anew when the publisher changes its SSRC. The first
offset leaves room for packets that come late, and are numbered below the first one; the
later offsets leave none. So two packets never get the same number as long as nothing is late
after a change of SSRC, and not by more than the headroom before it
(`MateHub.Video.egress_distinct`).
-/

namespace MateHub

namespace Video

/-! ### Numbers in range -/

theorem asI64_eq {x : ℤ} (hlow : -2 ^ 63 ≤ x) (hhigh : x < 2 ^ 63) : asI64 x = x := by
  have hlow' : -((2 ^ 64 : ℕ) : ℤ) ≤ x * 2 := by omega
  have hhigh' : x * 2 < ((2 ^ 64 : ℕ) : ℤ) := by omega
  exact Int.bmod_eq_of_le_mul_two hlow' hhigh'

namespace TrackOut

variable {t : TrackOut} {ssrc ssrc' : Ssrc} {n : ℕ} {offset : ℤ}

/-- The first packet of a subscription. -/
theorem rewriteSeq_first (hanchor : t.egressSeqAnchor = none) (hn : n < 2 ^ 63) :
    t.rewriteSeq ssrc n = ({ t with
      egressSeqAnchor := some (ssrc, egressSeqStart - n)
      egressSeqHigh := max t.egressSeqHigh egressSeqStart }, egressSeqStart) := by
  have hstart : (egressSeqStart : ℤ) = 10000 := rfl
  have hoffset : asI64 (egressSeqStart - asI64 n) = egressSeqStart - n := by
    rw [asI64_eq (x := n) (by omega) (by omega)]
    exact asI64_eq (by omega) (by omega)
  have hegress : (max (asI64 (asI64 n + (egressSeqStart - n))) 1).toNat = egressSeqStart := by
    rw [asI64_eq (x := n) (by omega) (by omega), add_sub_cancel, asI64_eq (by omega) (by omega)]
    rfl
  simp only [rewriteSeq, hanchor, hoffset, hegress]

/-- A packet of the SSRC that the offset is for. -/
theorem rewriteSeq_anchored (hanchor : t.egressSeqAnchor = some (ssrc, offset)) (hn : n < 2 ^ 63)
    (hlow : 1 ≤ n + offset) (hhigh : n + offset < 2 ^ 63) :
    t.rewriteSeq ssrc n = ({ t with
      egressSeqAnchor := some (ssrc, offset)
      egressSeqHigh := max t.egressSeqHigh (n + offset).toNat }, (n + offset).toNat) := by
  have hegress : (max (asI64 (asI64 n + offset)) 1).toNat = (n + offset).toNat := by
    rw [asI64_eq (x := n) (by omega) (by omega), asI64_eq (by omega) hhigh, max_eq_left hlow]
  simp only [rewriteSeq, hanchor, if_pos, hegress]

/-- The first packet of another SSRC. -/
theorem rewriteSeq_again (hanchor : t.egressSeqAnchor = some (ssrc', offset)) (hne : ssrc' ≠ ssrc)
    (hn : n < 2 ^ 63) (hhigh : t.egressSeqHigh + 1 < 2 ^ 63) :
    t.rewriteSeq ssrc n = ({ t with
      egressSeqAnchor := some (ssrc, t.egressSeqHigh + 1 - n)
      egressSeqHigh := t.egressSeqHigh + 1 }, t.egressSeqHigh + 1) := by
  have hoffset : asI64 (asI64 (t.egressSeqHigh + 1) - asI64 n) = t.egressSeqHigh + 1 - n := by
    rw [asI64_eq (x := n) (by omega) (by omega), asI64_eq (x := t.egressSeqHigh + 1) (by omega)
      (by omega)]
    exact asI64_eq (by omega) (by omega)
  have hegress : (max (asI64 (asI64 n + (t.egressSeqHigh + 1 - n))) 1).toNat =
      t.egressSeqHigh + 1 := by
    rw [asI64_eq (x := n) (by omega) (by omega), add_sub_cancel, asI64_eq (by omega) (by omega)]
    omega
  simp only [rewriteSeq, hanchor, if_neg hne, hoffset, hegress]
  rw [max_eq_right (Nat.le_succ _)]

end TrackOut

/-! ### Runs -/

/-- What a number is given to: a packet, by its SSRC and its ingress number. -/
abbrev Numbered := Ssrc × ℕ

/-- A subscription, with the numbers that it has given, and the lowest ingress number for
which there is room below the first packet since the last change of SSRC. -/
structure EgressRun where
  track : TrackOut
  floor : ℤ
  written : List (Numbered × ℕ)

namespace EgressRun

/-- A packet is forwarded. -/
def next (s : EgressRun) (q : Numbered) : EgressRun where
  track := (s.track.rewriteSeq q.1 q.2).1
  floor :=
    match s.track.egressSeqAnchor with
    | none => q.2 - (egressSeqStart - 1)
    | some (ssrc, _) => if ssrc = q.1 then s.floor else q.2
  written := (q, (s.track.rewriteSeq q.1 q.2).2) :: s.written

/-- **A packet is on time**: it is not numbered below the floor. The numbers do not get out
of the range of an `i64`. -/
def OnTime (s : EgressRun) (q : Numbered) : Prop :=
  q.2 < 2 ^ 63 ∧
    match s.track.egressSeqAnchor with
    | none => True
    | some (ssrc, offset) =>
      if ssrc = q.1 then s.floor ≤ q.2 ∧ q.2 + offset < 2 ^ 63
      else s.track.egressSeqHigh + 1 < 2 ^ 63

instance (s : EgressRun) (q : Numbered) : Decidable (s.OnTime q) :=
  match h : s.track.egressSeqAnchor with
  | none => decidable_of_iff (q.2 < 2 ^ 63 ∧ True) (by rw [OnTime, h])
  | some (ssrc, offset) => decidable_of_iff (q.2 < 2 ^ 63 ∧
      if ssrc = q.1 then s.floor ≤ q.2 ∧ q.2 + offset < 2 ^ 63
      else s.track.egressSeqHigh + 1 < 2 ^ 63) (by rw [OnTime, h])

/-- No number is given to two packets. -/
def Distinct (s : EgressRun) : Prop :=
  ∀ w ∈ s.written, ∀ w' ∈ s.written, w.2 = w'.2 → w.1 = w'.1

/-- The invariant: from the floor on, all numbers are those of the current SSRC. -/
structure Good (s : EgressRun) : Prop where
  fresh : s.track.egressSeqAnchor = none → s.track.egressSeqHigh = 0 ∧ s.written = []
  floor_pos : ∀ ssrc offset, s.track.egressSeqAnchor = some (ssrc, offset) → 1 ≤ s.floor + offset
  current : ∀ ssrc offset, s.track.egressSeqAnchor = some (ssrc, offset) → ∀ w ∈ s.written,
    s.floor + offset ≤ w.2 → w.1.1 = ssrc ∧ (w.2 : ℤ) = w.1.2 + offset
  le_high : ∀ w ∈ s.written, w.2 ≤ s.track.egressSeqHigh
  distinct : s.Distinct

variable {s : EgressRun} {q : Numbered}

/-- A number that no other packet has may be given. -/
theorem distinct_cons {e : ℕ} {t : TrackOut} {f : ℤ} (h : s.Distinct)
    (hnew : ∀ w ∈ s.written, w.2 = e → w.1 = q) : Distinct ⟨t, f, (q, e) :: s.written⟩ := by
  intro w hw w' hw' heq
  rcases List.mem_cons.mp hw with rfl | hw <;> rcases List.mem_cons.mp hw' with rfl | hw'
  · rfl
  · exact (hnew w' hw' heq.symm).symm
  · exact hnew w hw heq
  · exact h w hw w' hw' heq

/-- **One packet** that is on time. -/
theorem Good.next (hs : s.Good) (hq : s.OnTime q) : (s.next q).Good := by
  obtain ⟨hn, hq⟩ := hq
  rcases hanchor : s.track.egressSeqAnchor with _ | ⟨ssrc, offset⟩
  · -- the first packet of all
    obtain ⟨hhigh, hwritten⟩ := hs.fresh hanchor
    rw [EgressRun.next, TrackOut.rewriteSeq_first hanchor hn, hanchor, hwritten, hhigh]
    refine ⟨fun h => by simp at h, fun ssrc offset h => ?_, fun ssrc offset h w hw _ => ?_,
      fun w hw => ?_, fun w hw w' hw' _ => ?_⟩
    · obtain ⟨rfl, rfl⟩ := Prod.mk.inj (Option.some.inj h)
      simp only [egressSeqStart]
      omega
    · obtain ⟨rfl, rfl⟩ := Prod.mk.inj (Option.some.inj h)
      obtain rfl := List.mem_singleton.mp hw
      exact ⟨rfl, by simp⟩
    · obtain rfl := List.mem_singleton.mp hw
      exact le_max_right _ _
    · rw [List.mem_singleton.mp hw, List.mem_singleton.mp hw']
  · rw [hanchor] at hq
    dsimp only at hq
    by_cases hssrc : ssrc = q.1
    · -- at or above the floor there are only packets with the same offset
      subst hssrc
      rw [if_pos rfl] at hq
      obtain ⟨hfloor, hrange⟩ := hq
      have hpos := hs.floor_pos _ _ hanchor
      have he : (((q.2 : ℤ) + offset).toNat : ℤ) = q.2 + offset := Int.toNat_of_nonneg (by omega)
      rw [EgressRun.next, TrackOut.rewriteSeq_anchored hanchor hn (by omega) hrange, hanchor]
      dsimp only
      rw [if_pos rfl]
      refine ⟨fun h => by simp at h, fun ssrc offset h => ?_, fun ssrc offset h w hw hle => ?_,
        fun w hw => ?_, distinct_cons hs.distinct fun w hw heq => ?_⟩
      · obtain ⟨rfl, rfl⟩ := Prod.mk.inj (Option.some.inj h)
        exact hpos
      · obtain ⟨rfl, rfl⟩ := Prod.mk.inj (Option.some.inj h)
        rcases List.mem_cons.mp hw with rfl | hw
        · exact ⟨rfl, he⟩
        · exact hs.current _ _ hanchor w hw hle
      · rcases List.mem_cons.mp hw with rfl | hw
        · exact le_max_right _ _
        · exact (hs.le_high w hw).trans (le_max_left _ _)
      · obtain ⟨hsame, hnum⟩ := hs.current _ _ hanchor w hw (by omega)
        exact Prod.ext hsame (by omega)
    · -- all numbers given before are below
      rw [if_neg hssrc] at hq
      rw [EgressRun.next, TrackOut.rewriteSeq_again hanchor hssrc hn hq, hanchor]
      dsimp only
      rw [if_neg hssrc]
      refine ⟨fun h => by simp at h, fun ssrc offset h => ?_, fun ssrc offset h w hw hle => ?_,
        fun w hw => ?_, distinct_cons hs.distinct fun w hw heq => ?_⟩
      · obtain ⟨rfl, rfl⟩ := Prod.mk.inj (Option.some.inj h)
        dsimp only
        omega
      · obtain ⟨rfl, rfl⟩ := Prod.mk.inj (Option.some.inj h)
        rcases List.mem_cons.mp hw with rfl | hw
        · exact ⟨rfl, by push_cast; omega⟩
        · have hle' := hs.le_high w hw
          dsimp only at hle
          omega
      · rcases List.mem_cons.mp hw with rfl | hw
        · exact le_rfl
        · exact (hs.le_high w hw).trans (Nat.le_succ _)
      · have hle := hs.le_high w hw
        omega

end EgressRun

/-- The packets that a subscription forwards, from its start. -/
def egress : System EgressRun Numbered where
  init s := s.track.egressSeqAnchor = none ∧ s.track.egressSeqHigh = 0 ∧ s.written = []
  step s q t := t = s.next q

/-- **No number is given to two packets** in a run whose packets are on time. -/
theorem egress_distinct {s : EgressRun} (hs : egress.Reach EgressRun.OnTime s) :
    ∀ w ∈ s.written, ∀ w' ∈ s.written, w.2 = w'.2 → w.1 = w'.1 := by
  have hgood : s.Good := by
    refine hs.invariant ?_ ?_
    · rintro s ⟨hanchor, hhigh, hwritten⟩
      refine ⟨fun _ => ⟨hhigh, hwritten⟩, fun _ _ h => ?_, fun _ _ h => ?_, fun w hw => ?_,
        fun w hw => ?_⟩
      · rw [hanchor] at h
        cases h
      · rw [hanchor] at h
        cases h
      · rw [hwritten] at hw
        cases hw
      · rw [hwritten] at hw
        cases hw
    · rintro s q _ hgood hq rfl
      exact hgood.next hq
  exact hgood.distinct

/-- A subscription before its first packet. -/
def freshRun : EgressRun := ⟨SfuShard.queuedTrack 4 0 .video .camera, 0, []⟩

theorem init_freshRun : egress.init freshRun := ⟨rfl, rfl, rfl⟩

/-- Two packets in the wrong order, then a change of SSRC. -/
def restarted : EgressRun :=
  [(1, 1000), (1, 998), (2, 501), (2, 502)].foldl EgressRun.next freshRun

theorem egress_distinct_restarted :
    restarted.written.map Prod.snd = [10002, 10001, 9998, 10000] ∧ restarted.Distinct := by
  have hreach : egress.Reach EgressRun.OnTime restarted :=
    System.Reach.foldl (fun _ _ => rfl) (.start init_freshRun) (by decide)
  exact ⟨by decide, egress_distinct hreach⟩

/-- A packet that comes one late after a change of SSRC. -/
def lateAfterRestart : EgressRun := [(1, 1000), (2, 501), (2, 500)].foldl EgressRun.next freshRun

/-- **After a change of SSRC there is no room**: the number of the late packet is that of a
packet of the other SSRC. -/
theorem egress_reused : egress.Reachable lateAfterRestart ∧
    (((2, 500), 10000) : Numbered × ℕ) ∈ lateAfterRestart.written ∧
    (((1, 1000), 10000) : Numbered × ℕ) ∈ lateAfterRestart.written := by
  have hreach : egress.Reachable lateAfterRestart :=
    System.reachable_foldl init_freshRun (fun _ _ => rfl) _
  exact ⟨hreach, by decide, by decide⟩

end Video

end MateHub
