import MateHub.Chat.Partition

/-!
# The ids of a fleet

All services draw their ids from generators of one kind, one for each process, and none of them
asks another. An id is the time, a sequence number and the number of the machine. So two ids are
different if the machines are; and a generator counts on from its last id, whatever the clock
does (`MateHub.Chat.number_lt_stamp`). What is left is a process that takes the place of another
on the same machine: its generator starts anew, and must find the clock past the times that have
been stamped there (`MateHub.Chat.Fleet.Orderly`).

Under these conditions no id is ever drawn twice in the fleet, and the ids of a machine grow in
the order in which they are drawn (`MateHub.Chat.Fleet.drawn_of_reach`).
-/

namespace MateHub

namespace Chat

open Snowflake

/-! ### One generator -/

/-- What the crate documents of the machine: its number is fixed with the generator, and is the
last 16 bits of the ids. -/
structure Sonyflake.OnMachines (sf : Sonyflake) (machineId : sf.State → ℤ) : Prop extends
    sf.Documented where
  range : ∀ s, 0 ≤ machineId s ∧ machineId s < 2 ^ 16
  machine : ∀ s now id s', sf.nextId s now = some (id, s') → machineId s' = machineId s ∧
    id = sf.elapsedTime s' * 2 ^ 24 + sf.sequence s' * 2 ^ 16 + machineId s

/-- The time and the sequence number as one number, by which a generator counts. -/
def Sonyflake.number (sf : Sonyflake) (s : sf.State) : ℤ := sf.elapsedTime s * 2 ^ 8 + sf.sequence s

/-- **A generator counts on**, whatever the clock reads. -/
theorem number_lt_stamp {elapsedTime sequence : ℤ} (now : ℤ) (h : 0 ≤ sequence)
    (h' : sequence < 2 ^ 8) : elapsedTime * 2 ^ 8 + sequence <
      (stamp elapsedTime sequence now).1 * 2 ^ 8 + (stamp elapsedTime sequence now).2 := by
  unfold stamp
  split_ifs <;> dsimp only <;> omega

/-- **A new generator stamps the time of the clock**, so that it leaves behind what is of before. -/
theorem lt_stamp_of_past {now id : ℤ} (sequence : ℤ)
    (hpast : id / 2 ^ 24 < currentElapsedTime now) :
    id / 2 ^ 16 < (stamp 0 sequence now).1 * 2 ^ 8 + (stamp 0 sequence now).2 := by
  unfold stamp
  split_ifs <;> dsimp only <;> omega

section Draw

variable {sf : Sonyflake} {machineId : sf.State → ℤ} {s s' : sf.State} {now : ℤ} {id : I64}

/-- **An id is the number of its generator and that of its machine.** -/
theorem Sonyflake.OnMachines.nextId (hsf : sf.OnMachines machineId)
    (h : Snowflake.nextId sf s now = some (id, s')) : machineId s' = machineId s ∧
      id.1 % 2 ^ 16 = machineId s ∧ id.1 / 2 ^ 16 = sf.number s' ∧
      sf.elapsedTime s' = (stamp (sf.elapsedTime s) (sf.sequence s) now).1 ∧
      sf.sequence s' = (stamp (sf.elapsedTime s) (sf.sequence s) now).2 := by
  obtain ⟨⟨id₀, s₀⟩, hdraw, hid⟩ := Option.map_eq_some_iff.mp h
  obtain ⟨rfl, rfl⟩ := Prod.mk.inj hid
  obtain ⟨hmachine, hid₀⟩ := hsf.machine _ _ _ _ hdraw
  obtain ⟨htime, htime'⟩ := hsf.width _ _ _ _ hdraw
  have hrange := hsf.range s
  have hstamp := hsf.stamped _ _ _ _ hdraw
  have hsequence := stamp_sequence_range (sf.elapsedTime s) (sf.sequence s) now
  rw [← hstamp] at hsequence
  have hcast : (castI64 id₀).1 = id₀ := by
    dsimp only [castI64, asI64]
    omega
  rw [hcast, number]
  dsimp only at htime htime' hsequence ⊢
  refine ⟨hmachine, ?_, ?_, congrArg Prod.fst hstamp, congrArg Prod.snd hstamp⟩ <;> omega

end Draw

/-! ### The fleet -/

/-- The processes of all services, each with its generator once it has called `init`, and the ids
that have been drawn, the last one first. -/
structure Fleet (sf : Sonyflake) where
  generators : ℕ → Option sf.State
  drawn : List I64

/-- What the processes that draw ids do. -/
inductive FleetAct (sf : Sonyflake)
  /-- A process calls `init`, with a new generator. -/
  | init (p : ℕ) (s : sf.State)
  /-- A process ends. -/
  | stop (p : ℕ)
  /-- A process calls `next_id`, at a reading of the clock. -/
  | draw (p : ℕ) (now : ℤ)

namespace Fleet

variable {sf : Sonyflake} {machineId : sf.State → ℤ}

/-- A draw that fails panics while it holds the lock, so that the process draws no id any more. -/
def next (w : Fleet sf) : FleetAct sf → Fleet sf
  | .init p s => { w with generators := Function.update w.generators p (some s) }
  | .stop p => { w with generators := Function.update w.generators p none }
  | .draw p now =>
    match w.generators p with
    | none => w
    | some s =>
      match Snowflake.nextId sf s now with
      | none => { w with generators := Function.update w.generators p none }
      | some (id, s') =>
        { generators := Function.update w.generators p (some s'), drawn := id :: w.drawn }

/-- The fleet starts without processes. -/
def system (sf : Sonyflake) : System (Fleet sf) (FleetAct sf) where
  init w := (∀ p, w.generators p = none) ∧ w.drawn = []
  step w a w' := w' = w.next a

/-- **What the fleet is to keep to**: a new generator has drawn nothing, and is on a machine where
no other process is; and where it first draws, the clock is past the times stamped there. -/
def Orderly (machineId : sf.State → ℤ) (w : Fleet sf) : FleetAct sf → Prop
  | .init p s => sf.elapsedTime s = 0 ∧ 0 ≤ sf.sequence s ∧ sf.sequence s < 2 ^ 8 ∧
      ∀ q t, q ≠ p → w.generators q = some t → machineId t ≠ machineId s
  | .stop _ => True
  | .draw p now => ∀ s, w.generators p = some s → sf.elapsedTime s = 0 →
      ∀ id ∈ w.drawn, id.1 % 2 ^ 16 = machineId s → id.1 / 2 ^ 24 < currentElapsedTime now

/-- **What holds of a fleet**: ids of one machine have been drawn in their order, and a generator
that has drawn is not behind the ids of its machine. -/
structure InOrder (machineId : sf.State → ℤ) (w : Fleet sf) : Prop where
  drawn : w.drawn.Pairwise fun later earlier =>
    later.1 % 2 ^ 16 = earlier.1 % 2 ^ 16 → earlier.1 < later.1
  sequence : ∀ p s, w.generators p = some s → 0 ≤ sf.sequence s ∧ sf.sequence s < 2 ^ 8
  ahead : ∀ p s, w.generators p = some s → sf.elapsedTime s = 0 ∨
    ∀ id ∈ w.drawn, id.1 % 2 ^ 16 = machineId s → id.1 / 2 ^ 16 ≤ sf.number s
  alone : ∀ p q s t, w.generators p = some s → w.generators q = some t →
    machineId s = machineId t → p = q

variable {w w' : Fleet sf} {p : ℕ}

/-- The generators after one is replaced. -/
theorem eq_of_update {q : ℕ} {s t : sf.State}
    (ht : Function.update w.generators p (some s) q = some t) :
    q = p ∧ s = t ∨ q ≠ p ∧ w.generators q = some t := by
  rw [Function.update_apply] at ht
  split_ifs at ht with hq
  · exact .inl ⟨hq, Option.some.inj ht⟩
  · exact .inr ⟨hq, ht⟩

/-- The generator of a process is replaced, by one on a machine of its own. -/
theorem alone_update (h : InOrder machineId w) {s : sf.State}
    (hs : ∀ q t, q ≠ p → w.generators q = some t → machineId t ≠ machineId s) {q r : ℕ}
    {t u : sf.State} (ht : Function.update w.generators p (some s) q = some t)
    (hu : Function.update w.generators p (some s) r = some u) (heq : machineId t = machineId u) :
    q = r := by
  rcases eq_of_update ht with ⟨hq, rfl⟩ | ⟨hq, ht⟩
  · rcases eq_of_update hu with ⟨hr, rfl⟩ | ⟨hr, hu⟩
    · exact hq.trans hr.symm
    · exact absurd heq.symm (hs r u hr hu)
  · rcases eq_of_update hu with ⟨hr, rfl⟩ | ⟨hr, hu⟩
    · exact absurd heq (hs q t hq ht)
    · exact h.alone q r t u ht hu heq

theorem InOrder.remove (h : InOrder machineId w) (p : ℕ) :
    InOrder machineId { w with generators := Function.update w.generators p none } := by
  have hkept {q : ℕ} {t : sf.State} (ht : Function.update w.generators p none q = some t) :
      w.generators q = some t := by
    rw [Function.update_apply] at ht
    split_ifs at ht
    exact ht
  exact ⟨h.drawn, fun q t ht => h.sequence q t (hkept ht), fun q t ht => h.ahead q t (hkept ht),
    fun q r t u ht hu => h.alone q r t u (hkept ht) (hkept hu)⟩

/-- **A draw** gives an id that is later than all ids of its machine. -/
theorem InOrder.draw (hsf : sf.OnMachines machineId) (h : InOrder machineId w) {s s' : sf.State}
    {now : ℤ} {id : I64} (hs : w.generators p = some s)
    (hdraw : Snowflake.nextId sf s now = some (id, s'))
    (hclock : sf.elapsedTime s = 0 →
      ∀ id ∈ w.drawn, id.1 % 2 ^ 16 = machineId s → id.1 / 2 ^ 24 < currentElapsedTime now) :
    InOrder machineId
      { generators := Function.update w.generators p (some s'), drawn := id :: w.drawn } := by
  obtain ⟨hmachine, hid, hnumber, htime', hsequence'⟩ := hsf.nextId hdraw
  obtain ⟨hlow, hhigh⟩ := h.sequence p s hs
  have hrange := stamp_sequence_range (sf.elapsedTime s) (sf.sequence s) now
  rw [← hsequence'] at hrange
  -- the generator has counted past the ids of its machine, or the clock has
  have hlater : ∀ id' ∈ w.drawn, id'.1 % 2 ^ 16 = machineId s → id'.1 / 2 ^ 16 < sf.number s' := by
    intro id' hid' hmachine'
    rw [Sonyflake.number, htime', hsequence']
    by_cases hnew : sf.elapsedTime s = 0
    · rw [hnew]
      exact lt_stamp_of_past _ (hclock hnew id' hid' hmachine')
    · have hahead := (h.ahead p s hs).resolve_left hnew id' hid' hmachine'
      exact lt_of_le_of_lt hahead (number_lt_stamp now hlow hhigh)
  refine ⟨List.pairwise_cons.mpr ⟨fun id' hid' heq => ?_, h.drawn⟩, ?_, ?_, ?_⟩
  · have hlt := hlater id' hid' (heq.symm.trans hid)
    omega
  · intro q t ht
    rcases eq_of_update ht with ⟨-, rfl⟩ | ⟨-, ht⟩
    · exact hrange
    · exact h.sequence q t ht
  · intro q t ht
    rcases eq_of_update ht with ⟨-, rfl⟩ | ⟨hq, ht⟩
    · refine .inr (List.forall_mem_cons.mpr ⟨fun _ => hnumber.le, fun id' hid' hmachine' => ?_⟩)
      exact (hlater id' hid' (hmachine'.trans hmachine)).le
    · refine (h.ahead q t ht).imp_right fun hle => List.forall_mem_cons.mpr ⟨fun heq => ?_, hle⟩
      exact absurd (h.alone q p t s ht hs (heq.symm.trans hid)) hq
  · intro q r t u ht hu
    refine alone_update h (fun q t hq ht heq => hq ?_) ht hu
    exact h.alone q p t s ht hs (heq.trans hmachine)

/-- **A step of the fleet.** -/
theorem InOrder.next (hsf : sf.OnMachines machineId) (h : InOrder machineId w) {a : FleetAct sf}
    (hok : Orderly machineId w a) : InOrder machineId (w.next a) := by
  cases a with
  | init p s =>
    obtain ⟨hnew, hsequence, hsequence', hmachine⟩ := hok
    refine ⟨h.drawn, fun q t ht => ?_, fun q t ht => ?_, fun q r t u => alone_update h hmachine⟩
    · rcases eq_of_update ht with ⟨-, rfl⟩ | ⟨-, ht⟩
      · exact ⟨hsequence, hsequence'⟩
      · exact h.sequence q t ht
    · rcases eq_of_update ht with ⟨-, rfl⟩ | ⟨-, ht⟩
      · exact .inl hnew
      · exact h.ahead q t ht
  | stop p => exact h.remove p
  | draw p now =>
    rw [Fleet.next]
    split
    · exact h
    · rename_i s hs
      split
      · exact h.remove p
      · rename_i hdraw
        exact h.draw hsf hs hdraw (hok s hs)

/-- **No id is drawn twice**: in every run of a fleet that is kept orderly, whatever the clocks
read, no two draws of any processes give the same id, and the ids of a machine grow in the order
in which they are drawn. -/
theorem drawn_of_reach (hsf : sf.OnMachines machineId)
    (hw : (system sf).Reach (Orderly machineId) w) : w.drawn.Nodup ∧
      w.drawn.Pairwise fun later earlier =>
        later.1 % 2 ^ 16 = earlier.1 % 2 ^ 16 → earlier.1 < later.1 := by
  have horder : InOrder machineId w := by
    refine hw.invariant (I := InOrder machineId) ?_ ?_
    · rintro w ⟨hnone, hdrawn⟩
      refine ⟨?_, fun p s hs => ?_, fun p s hs => ?_, fun p q s t hs => ?_⟩
      · rw [hdrawn]
        exact .nil
      all_goals
        rw [hnone p] at hs
        cases hs
    · rintro w a - h hok rfl
      exact h.next hsf hok
  refine ⟨horder.drawn.imp fun hlt heq => ?_, horder.drawn⟩
  exact absurd (hlt (by rw [heq])) (by rw [heq]; exact lt_irrefl _)

/-! ### A machine that is taken over -/

/-- A generator of any machine. -/
def sonyflake : Sonyflake where
  State := (ℤ × ℤ) × Fin (2 ^ 16)
  elapsedTime s := s.1.1
  sequence s := s.1.2
  nextId s now :=
    let t := stamp s.1.1 s.1.2 now
    if 0 ≤ t.1 ∧ t.1 < 2 ^ 39 then some (t.1 * 2 ^ 24 + t.2 * 2 ^ 16 + s.2, (t, s.2)) else none

theorem sonyflake_onMachines : sonyflake.OnMachines fun s => (s.2 : ℤ) := by
  have hrange (s : sonyflake.State) : 0 ≤ (s.2 : ℤ) ∧ (s.2 : ℤ) < 2 ^ 16 :=
    ⟨Int.natCast_nonneg _, by exact_mod_cast s.2.isLt⟩
  have heq {s s' : sonyflake.State} {now id : ℤ} (h : sonyflake.nextId s now = some (id, s')) :
      s' = (stamp s.1.1 s.1.2 now, s.2) ∧ id = s'.1.1 * 2 ^ 24 + s'.1.2 * 2 ^ 16 + s.2 ∧
        0 ≤ s'.1.1 ∧ s'.1.1 < 2 ^ 39 := by
    dsimp only [sonyflake] at h
    split_ifs at h with htime
    obtain ⟨rfl, rfl⟩ := Prod.mk.inj (Option.some.inj h)
    exact ⟨rfl, rfl, htime⟩
  refine ⟨⟨fun s now id s' h => ?_, fun s now id s' h => (heq h).2.2, fun s now id s' h => ?_⟩,
    hrange, fun s now id s' h => ?_⟩
  · exact ⟨s.2, (hrange s).1, (hrange s).2, (heq h).2.1⟩
  · rw [(heq h).1]
    rfl
  · refine ⟨?_, (heq h).2.1⟩
    rw [(heq h).1]

/-- A process draws two ids in one millisecond and starts anew, and another one on another
machine draws in that millisecond too. -/
def restarted : List (FleetAct sonyflake) :=
  [.init 0 ((0, 255), 7), .draw 0 (boundary - 1), .draw 0 (boundary - 1), .init 0 ((0, 255), 7),
    .draw 0 boundary, .init 1 ((0, 255), 8), .draw 1 (boundary - 1)]

theorem orderly_draw {s : sf.State} {now : ℤ} (hs : w.generators p = some s)
    (h : sf.elapsedTime s = 0 → ∀ id ∈ w.drawn, id.1 % 2 ^ 16 = machineId s →
      id.1 / 2 ^ 24 < currentElapsedTime now) : Orderly machineId w (.draw p now) :=
  fun _ ht => Option.some.inj (hs.symm.trans ht) ▸ h

theorem drawn_of_reach_restarted :
    ((restarted.foldl next ⟨fun _ => none, []⟩).drawn.map fun id =>
      (id.1 / 2 ^ 16, id.1 % 2 ^ 16)) = [(25919999 * 2 ^ 8, 8), (25920000 * 2 ^ 8, 7),
        (25919999 * 2 ^ 8 + 1, 7), (25919999 * 2 ^ 8, 7)] ∧
    (restarted.foldl next ⟨fun _ => none, []⟩).drawn.Nodup := by
  have hnone (q : ℕ) (hq : q ≠ 0) :
      ((restarted.take 3).foldl next ⟨fun _ => none, []⟩).generators q = none :=
    (Function.update_of_ne hq _ _).trans
      ((Function.update_of_ne hq _ _).trans (Function.update_of_ne hq _ _))
  have hnone' (q : ℕ) (hq : q ≠ 0) :
      ((restarted.take 5).foldl next ⟨fun _ => none, []⟩).generators q = none :=
    (Function.update_of_ne hq _ _).trans ((Function.update_of_ne hq _ _).trans (hnone q hq))
  have hok : System.Accepted (Orderly fun s : sonyflake.State => (s.2 : ℤ)) next
      ⟨fun _ => none, []⟩ restarted := by
    refine ⟨⟨rfl, by decide, by decide, nofun⟩, orderly_draw rfl (by decide),
      orderly_draw rfl (by decide), ⟨rfl, by decide, by decide, fun q _ hq ht => ?_⟩,
      orderly_draw rfl (by decide), ⟨rfl, by decide, by decide, fun q t hq ht => ?_⟩,
      orderly_draw rfl (by decide), trivial⟩
    · exact absurd ((hnone q hq).symm.trans ht) nofun
    · by_cases hq₀ : q = 0
      · subst hq₀
        rw [← Option.some.inj ht]
        decide
      · exact absurd ((hnone' q hq₀).symm.trans ht) nofun
  exact ⟨by decide, (drawn_of_reach sonyflake_onMachines
    (System.Reach.foldl (M := system sonyflake) (fun _ _ => rfl)
      (.start ⟨fun _ => rfl, rfl⟩) hok)).1⟩

end Fleet

end Chat

end MateHub
