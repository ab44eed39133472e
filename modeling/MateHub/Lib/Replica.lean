import Mathlib.Data.List.Basic

/-!
# Replicas that are told what is stored

A store takes assignments, each of which sets some keys. A replica is told of them later, and
applies them in the order in which it is told; or it is replaced by what has been read off the
store. What is on its way to the replica need not be right there yet. It is all right if what is
on its way says, of every key that it sets, what is stored (`Replica.Truthful`), and if the replica
has what is stored under every other key (`Replica.Settles`).
-/

namespace Replica

variable {κ ν : Type*}

/-- The keys that are set, and to what. -/
abbrev Assignment (κ ν : Type*) := κ → Option ν

/-- The values after an assignment. -/
def assign (x : κ → ν) (a : Assignment κ ν) : κ → ν := fun k => (a k).getD (x k)

/-- What the last of some assignments that set a key set it to. -/
def last : List (Assignment κ ν) → Assignment κ ν
  | [] => fun _ => none
  | a :: as => fun k => (last as k).or (a k)

@[simp] theorem last_nil (k : κ) : last ([] : List (Assignment κ ν)) k = none := rfl

theorem last_cons (a : Assignment κ ν) (as : List (Assignment κ ν)) (k : κ) :
    last (a :: as) k = (last as k).or (a k) := rfl

theorem last_append (as bs : List (Assignment κ ν)) (k : κ) :
    last (as ++ bs) k = (last bs k).or (last as k) := by
  induction as with
  | nil => rw [List.nil_append, last_nil, Option.or_none]
  | cons a as ih => rw [List.cons_append, last_cons, last_cons, ih, Option.or_assoc]

theorem last_concat (as : List (Assignment κ ν)) (a : Assignment κ ν) (k : κ) :
    last (as ++ [a]) k = (a k).or (last as k) := by
  rw [last_append, last_cons, last_nil, Option.none_or]

/-! ### Assignments in another order -/

/-- Two assignments set no key to different values. -/
def Agree (a b : Assignment κ ν) : Prop := ∀ k v w, a k = some v → b k = some w → v = w

/-- What is set is set by one of them. -/
theorem exists_of_last {as : List (Assignment κ ν)} {k : κ} {v : ν} (h : last as k = some v) :
    ∃ a ∈ as, a k = some v := by
  induction as with
  | nil => cases h
  | cons a as ih =>
    rw [last_cons, Option.or_eq_some_iff] at h
    rcases h with h | ⟨-, h⟩
    · obtain ⟨b, hb, hv⟩ := ih h
      exact ⟨b, List.mem_cons_of_mem a hb, hv⟩
    · exact ⟨a, List.mem_cons_self, h⟩

/-- **Some assignments are made first** that agree with those before them: it makes no
difference. -/
theorem last_filter {α : Type*} (f : α → Assignment κ ν) (p : α → Bool) {l : List α}
    (h : l.Pairwise fun a b => p a = false → p b = true → Agree (f a) (f b)) :
    last ((l.filter p).map f ++ (l.filter fun a => !p a).map f) = last (l.map f) := by
  funext k
  induction l with
  | nil => rfl
  | cons a l ih =>
    obtain ⟨hfirst, hrest⟩ := List.pairwise_cons.mp h
    have ih := ih hrest
    rw [last_append] at ih
    rw [List.map_cons, last_cons, last_append, ← ih]
    by_cases hp : p a = true
    · rw [List.filter_cons_of_pos hp, List.filter_cons_of_neg (by simp [hp]), List.map_cons,
        last_cons, Option.or_assoc]
    · rw [List.filter_cons_of_neg hp, List.filter_cons_of_pos (by simp [hp]), List.map_cons,
        last_cons, Option.or_assoc, Option.or_assoc]
      congr 1
      rcases hmoved : last ((l.filter p).map f) k with _ | v
      · rw [Option.none_or, Option.or_none]
      · rcases ha : f a k with _ | w
        · rw [Option.none_or, Option.or_none]
        · -- what is moved over it agrees with it
          obtain ⟨_, hmem, hv⟩ := exists_of_last hmoved
          obtain ⟨b, hb, rfl⟩ := List.mem_map.mp hmem
          obtain ⟨hb, hpb⟩ := List.mem_filter.mp hb
          rw [hfirst b hb (Bool.eq_false_iff.mpr hp) hpb k w v ha hv]

/-! ### What is on its way -/

/-- **What is on its way says what is stored.** -/
def Truthful (stored : κ → ν) (way : List (Assignment κ ν)) : Prop :=
  ∀ k v, last way k = some v → stored k = v

/-- **Under the other keys** there is what is stored. -/
def Settles (stored : κ → ν) (way : List (Assignment κ ν)) (x : κ → ν) : Prop :=
  ∀ k, last way k = none → x k = stored k

variable {stored x : κ → ν} {as bs : List (Assignment κ ν)} {a : Assignment κ ν}

theorem truthful_nil : Truthful stored ([] : List (Assignment κ ν)) := fun _ _ h => by cases h

theorem Truthful.congr (h : Truthful stored as) (heq : last bs = last as) : Truthful stored bs :=
  fun k v hv => h k v (heq ▸ hv)

theorem Settles.congr (h : Settles stored as x) (heq : last bs = last as) : Settles stored bs x :=
  fun k hk => h k (heq ▸ hk)

/-- Another assignment is stored. -/
theorem Truthful.store (h : Truthful stored as) (a : Assignment κ ν) :
    Truthful (assign stored a) (as ++ [a]) := by
  intro k v hv
  rw [last_concat] at hv
  rw [assign]
  rcases ha : a k with _ | w
  · rw [ha, Option.none_or] at hv
    exact h k v hv
  · rw [ha, Option.some_or] at hv
    exact Option.some.inj hv

theorem assign_of_last {k : κ} (stored : κ → ν) (h : last (as ++ [a]) k = none) :
    last as k = none ∧ assign stored a k = stored k := by
  rw [last_concat] at h
  obtain ⟨ha, has⟩ := Option.or_eq_none_iff.mp h
  exact ⟨has, by rw [assign, ha]; rfl⟩

theorem Settles.store (h : Settles stored as x) (a : Assignment κ ν) :
    Settles (assign stored a) (as ++ [a]) x := by
  intro k hk
  obtain ⟨has, hsame⟩ := assign_of_last stored hk
  exact (h k has).trans hsame.symm

theorem Truthful.of_append (h : Truthful stored (as ++ bs)) : Truthful stored bs := by
  intro k v hv
  refine h k v ?_
  rw [last_append, hv, Option.some_or]

/-- The replica is told. -/
theorem Settles.take (h : Settles stored (as ++ bs) x) (htrue : Truthful stored (as ++ bs)) :
    Settles stored bs (assign x (last as)) := by
  intro k hk
  have hlast : last (as ++ bs) k = last as k := by rw [last_append, hk, Option.none_or]
  rw [assign]
  rcases ha : last as k with _ | v
  · exact h k (hlast.trans ha)
  · exact (htrue k v (hlast.trans ha)).symm

/-- The replica is not told, and has it anyway. -/
theorem Settles.miss (h : Settles stored (as ++ bs) x) (htrue : Truthful stored (as ++ bs))
    (hhas : ∀ k v, last bs k = none → last as k = some v → x k = v) : Settles stored bs x := by
  intro k hk
  have hlast : last (as ++ bs) k = last as k := by rw [last_append, hk, Option.none_or]
  rcases ha : last as k with _ | v
  · exact h k (hlast.trans ha)
  · exact (hhas k v hk ha).trans (htrue k v (hlast.trans ha)).symm

end Replica
