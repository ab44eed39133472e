import Mathlib.Data.List.DropRight
import Mathlib.Data.List.Nodup

/-!
# Reading a partitioned list through windows

A list is kept in partitions, and a reader wants the first entries of it that pass a test.
It can only ask a partition for its first so many entries – a window – and tests them
after that; it goes from partition to partition until it has enough. The window may
depend on how many entries are still missing.

The reader gets what it wants exactly if every window, as far as the reader goes, holds
as many good entries as are missing, or all good entries of its partition
(`Paging.Suffices`, `Paging.take_collect_iff`). Where the window is of a fixed size and
the reader stops when it has that many, it has gone wrong without noticing exactly if
some window lacks a good entry of its partition and all windows together have too few to
stop (`Paging.collect_eq_iff`).

A reader that has found more than it may return can return the last of them. These are the last
good entries of the whole list exactly if the reader does not stop before a good entry, and no
window lacks one that is among the last (`Paging.rtake_collect_iff`).
-/

namespace Paging

variable {α : Type*} (keep : α → Bool) (window : ℕ → ℕ) {limit : ℕ} {acc : List α}

/-- Reads until `limit` good entries are there. -/
def collect (limit : ℕ) : List (List α) → List α → List α
  | [], acc => acc
  | p :: ps, acc =>
    if limit ≤ acc.length then acc
    else collect limit ps (acc ++ (p.take (window (limit - acc.length))).filter keep)

/-- **The windows suffice** to find so many good entries. -/
def Suffices : ℕ → List (List α) → Prop
  | _, [] => True
  | missing, p :: ps =>
    missing = 0 ∨
      min missing (p.filter keep).length ≤ ((p.take (window missing)).filter keep).length ∧
      Suffices (missing - (p.filter keep).length) ps

instance Suffices.decidable : ∀ (missing : ℕ) (ps : List (List α)),
    Decidable (Suffices keep window missing ps)
  | _, [] => inferInstanceAs (Decidable True)
  | missing, p :: ps =>
    @instDecidableOr _ _ _ (@instDecidableAnd _ _ _
      (Suffices.decidable (missing - (p.filter keep).length) ps))

variable {keep window}

/-- Windows as large as the parts suffice. -/
theorem suffices_of_length_le {ps : List (List α)}
    (h : ∀ p ∈ ps, ∀ k, 1 ≤ k → p.length ≤ window k) (missing : ℕ) :
    Suffices keep window missing ps := by
  induction ps generalizing missing with
  | nil => trivial
  | cons p ps ih =>
    rcases Nat.eq_zero_or_pos missing with hzero | hpos
    · exact .inl hzero
    · refine .inr ⟨?_, ih (fun q hq => h q (List.mem_cons_of_mem p hq)) _⟩
      rw [List.take_of_length_le (h p List.mem_cons_self missing hpos)]
      exact Nat.min_le_right _ _

theorem suffices_zero (ps : List (List α)) : Suffices keep window 0 ps := by
  cases ps with
  | nil => trivial
  | cons p ps => exact .inl rfl

theorem collect_of_le (h : limit ≤ acc.length) (ps : List (List α)) :
    collect keep window limit ps acc = acc := by
  cases ps with
  | nil => rfl
  | cons p ps => exact if_pos h

/-- The good entries in a window are the first good entries of the partition. -/
theorem filter_take_initial (keep : α → Bool) (p : List α) (n : ℕ) :
    (p.take n).filter keep <+: p.filter keep :=
  (List.take_prefix n p).filter keep

/-- What is read is kept, and what is added comes from the partitions. -/
theorem collect_eq_append (keep : α → Bool) (window : ℕ → ℕ) (limit : ℕ) (ps : List (List α))
    (acc : List α) :
    ∃ more, collect keep window limit ps acc = acc ++ more ∧ more ⊆ ps.flatten := by
  induction ps generalizing acc with
  | nil => exact ⟨[], (List.append_nil acc).symm, List.nil_subset _⟩
  | cons p ps ih =>
    unfold collect
    split
    · exact ⟨[], (List.append_nil acc).symm, List.nil_subset _⟩
    · obtain ⟨more, hmore, hsub⟩ :=
        ih (acc ++ (p.take (window (limit - acc.length))).filter keep)
      refine ⟨_, hmore.trans (List.append_assoc _ _ _), fun a ha => ?_⟩
      rw [List.flatten_cons, List.mem_append]
      obtain ha | ha := List.mem_append.mp ha
      · exact .inl (List.mem_of_mem_take (List.mem_of_mem_filter ha))
      · exact .inr (hsub ha)

theorem mem_of_mem_collect {ps : List (List α)} {a : α}
    (h : a ∈ collect keep window limit ps acc) : a ∈ acc ∨ a ∈ ps.flatten := by
  obtain ⟨more, hmore, hsub⟩ := collect_eq_append keep window limit ps acc
  rw [hmore, List.mem_append] at h
  exact h.imp_right fun ha => hsub ha

/-- A good entry that a window misses, while entries are missing, is missed for good. -/
theorem take_collect_ne {ps : List (List α)} {x : α} {rest : List α} (hx : x ∉ ps.flatten)
    (hlt : acc.length < limit) :
    (collect keep window limit ps acc).take limit ≠ (acc ++ x :: rest).take limit := by
  intro heq
  obtain ⟨more, hmore, hsub⟩ := collect_eq_append keep window limit ps acc
  have hat := congrArg (fun l => l[acc.length]?) heq
  simp only [List.getElem?_take, if_pos hlt, hmore, List.getElem?_append_right (Nat.le_refl _),
    Nat.sub_self, List.getElem?_cons_zero] at hat
  exact hx (hsub (List.mem_of_getElem? hat))

/-- **The reader gets the first good entries exactly if the windows suffice.** -/
theorem take_collect_iff {ps : List (List α)} (hnodup : ps.flatten.Nodup) :
    (collect keep window limit ps acc).take limit = (acc ++ ps.flatten.filter keep).take limit ↔
      Suffices keep window (limit - acc.length) ps := by
  induction ps generalizing acc with
  | nil => simp [collect, Suffices]
  | cons p ps ih =>
    rw [List.flatten_cons, List.nodup_append] at hnodup
    obtain ⟨-, hps, hdisj⟩ := hnodup
    obtain ⟨rest, hrest⟩ := filter_take_initial keep p (window (limit - acc.length))
    rw [List.flatten_cons, List.filter_append, Suffices, collect]
    split
    · rename_i hle
      rw [List.take_append_of_le_length hle]
      exact iff_of_true rfl (.inl (Nat.sub_eq_zero_of_le hle))
    · rename_i hlt
      rw [or_iff_right (show limit - acc.length ≠ 0 by omega), ← hrest]
      have hmem : ∀ a ∈ rest, a ∈ p := fun a ha =>
        List.mem_of_mem_filter (hrest ▸ List.mem_append_right _ ha)
      generalize (p.take (window (limit - acc.length))).filter keep = got
      rcases rest with _ | ⟨x, rest⟩
      · -- the window has all good entries
        rw [List.append_nil, ← List.append_assoc, ih hps, List.length_append,
          Nat.sub_add_eq, and_iff_right (Nat.min_le_right _ _)]
      · rw [List.append_assoc, ← List.append_assoc acc]
        rcases Nat.lt_or_ge got.length (limit - acc.length) with hfew | hmany
        · -- the window lacks an entry that is wanted
          refine iff_of_false ?_ fun ⟨hmin, _⟩ => ?_
          · refine take_collect_ne (fun hx => ?_) (by rw [List.length_append]; omega)
            exact hdisj x (hmem x List.mem_cons_self) x hx rfl
          · rw [List.length_append, List.length_cons] at hmin
            omega
        · -- the reader has enough
          have hle : limit ≤ (acc ++ got).length := by
            rw [List.length_append]
            omega
          refine iff_of_true ?_ ⟨Nat.le_trans (Nat.min_le_left _ _) hmany, ?_⟩
          · rw [collect_of_le hle, List.take_append_of_le_length hle]
          · rw [List.length_append,
              Nat.sub_eq_zero_of_le (Nat.le_trans hmany (Nat.le_add_right _ _))]
            exact suffices_zero ps

/-! ### Windows of a fixed size -/

/-- The windows of the partitions. -/
def windows (keep : α → Bool) (size : ℕ) (ps : List (List α)) : List α :=
  ps.flatMap fun p => (p.take size).filter keep

theorem collect_eq_windows {size : ℕ} {ps : List (List α)}
    (h : (acc ++ windows keep size ps).length < limit) :
    collect keep (fun _ => size) limit ps acc = acc ++ windows keep size ps := by
  induction ps generalizing acc with
  | nil => exact (List.append_nil acc).symm
  | cons p ps ih =>
    rw [windows, List.flatMap_cons, ← List.append_assoc] at h ⊢
    rw [collect, if_neg, ih h]
    · rfl
    · rw [List.length_append, List.length_append] at h
      omega

theorem le_length_collect {size : ℕ} {ps : List (List α)}
    (h : limit ≤ (acc ++ windows keep size ps).length) :
    limit ≤ (collect keep (fun _ => size) limit ps acc).length := by
  induction ps generalizing acc with
  | nil => simpa [collect, windows] using h
  | cons p ps ih =>
    rw [windows, List.flatMap_cons, ← List.append_assoc] at h
    rw [collect]
    split
    · assumption
    · exact ih h

theorem length_windows_le (keep : α → Bool) (size : ℕ) (ps : List (List α)) :
    (windows keep size ps).length ≤ (ps.flatten.filter keep).length := by
  induction ps with
  | nil => exact Nat.le_refl _
  | cons p ps ih =>
    rw [windows, List.flatMap_cons, List.flatten_cons, List.filter_append, List.length_append,
      List.length_append]
    exact Nat.add_le_add (filter_take_initial keep p size).length_le ih

/-- The reader stops exactly if all windows together have enough. -/
theorem le_length_collect_iff {size : ℕ} {ps : List (List α)} :
    limit ≤ (collect keep (fun _ => size) limit ps []).length ↔
      limit ≤ (windows keep size ps).length := by
  constructor
  · intro hle
    by_contra hlt
    rw [collect_eq_windows (by simpa using hlt), List.nil_append] at hle
    exact hlt hle
  · intro hle
    exact le_length_collect (by simpa using hle)

theorem windows_eq_iff {size : ℕ} {ps : List (List α)} :
    windows keep size ps = ps.flatten.filter keep ↔
      ∀ p ∈ ps, (p.take size).filter keep = p.filter keep := by
  induction ps with
  | nil => simp [windows]
  | cons p ps ih =>
    have hlen := length_windows_le keep size ps
    rw [windows, List.flatMap_cons, List.flatten_cons, List.filter_append, List.forall_mem_cons,
      ← ih]
    constructor
    · intro heq
      have hp : (p.take size).filter keep = p.filter keep := by
        refine (filter_take_initial keep p size).eq_of_length_le ?_
        have := congrArg List.length heq
        rw [List.length_append, List.length_append] at this
        rw [windows] at hlen
        omega
      rw [hp] at heq
      exact ⟨hp, List.append_cancel_left heq⟩
    · rintro ⟨hp, hps⟩
      rw [hp, ← hps]
      rfl

/-- **A reader that did not stop has all good entries exactly if every window has those of
its partition.** -/
theorem collect_eq_iff (keep : α → Bool) (size limit : ℕ) (ps : List (List α)) :
    ((collect keep (fun _ => size) limit ps []).length < limit →
        collect keep (fun _ => size) limit ps [] = ps.flatten.filter keep) ↔
      limit ≤ (windows keep size ps).length ∨
        ∀ p ∈ ps, (p.take size).filter keep = p.filter keep := by
  rcases Nat.lt_or_ge (windows keep size ps).length limit with hlt | hge
  · have heq : collect keep (fun _ => size) limit ps [] = [] ++ windows keep size ps :=
      collect_eq_windows hlt
    rw [List.nil_append] at heq
    rw [heq, or_iff_right (Nat.not_le.mpr hlt), ← windows_eq_iff]
    exact ⟨fun h => h hlt, fun h _ => h⟩
  · refine iff_of_true (fun hlt => ?_) (.inl hge)
    exact absurd (le_length_collect (by simpa using hge)) (Nat.not_le.mpr hlt)

/-! ### The last entries -/

section Last

variable (keep : α → Bool) (size limit n : ℕ)

/-- **The last entries are read**, by a reader that has found so many already: a partition that
it does not get to has no good entry, and the window of one that it gets to has all its good
entries, unless there are enough after them. -/
def LastRead : ℕ → List (List α) → Prop
  | _, [] => True
  | found, p :: ps =>
    (if limit ≤ found then p.filter keep = []
      else n ≤ (ps.flatten.filter keep).length ∨ (p.take size).filter keep = p.filter keep) ∧
      LastRead (found + ((p.take size).filter keep).length) ps

instance LastRead.decidable [DecidableEq α] : ∀ (found : ℕ) (ps : List (List α)),
    Decidable (LastRead keep size limit n found ps)
  | _, [] => inferInstanceAs (Decidable True)
  | found, p :: ps =>
    @instDecidableAnd _ _ inferInstance
      (LastRead.decidable (found + ((p.take size).filter keep).length) ps)

variable {keep size limit n}

theorem lastRead_of_le {found : ℕ} (h : limit ≤ found) (ps : List (List α)) :
    LastRead keep size limit n found ps ↔ ps.flatten.filter keep = [] := by
  induction ps generalizing found with
  | nil => exact iff_of_true trivial rfl
  | cons p ps ih =>
    rw [LastRead, if_pos h, ih (h.trans (Nat.le_add_right _ _)), List.flatten_cons,
      List.filter_append, List.append_eq_nil_iff]

theorem rtake_append (l m : List α) (n : ℕ) :
    (l ++ m).rtake n = l.rtake (n - m.length) ++ m.rtake n := by
  simp only [List.rtake_eq_reverse_take_reverse, List.reverse_append, List.take_append,
    List.length_reverse]

/-- The last entries of a list are those of its end, if that has as many. -/
theorem rtake_of_suffix {l m : List α} (h : m <:+ l) (hn : n ≤ m.length) :
    l.rtake n = m.rtake n := by
  obtain ⟨k, rfl⟩ := h
  rw [rtake_append, Nat.sub_eq_zero_of_le hn, List.rtake_zero, List.nil_append]

/-- A list without the last entry of another one has other last entries. -/
theorem rtake_ne (hn : 0 < n) {l m : List α} {x : α} (hx : x ∉ l) :
    l.rtake n ≠ (m ++ [x]).rtake n := by
  intro heq
  obtain ⟨n, rfl⟩ := Nat.exists_eq_succ_of_ne_zero hn.ne'
  rw [Nat.succ_eq_add_one, List.rtake_concat_succ] at heq
  have hmem : x ∈ l.rtake (n + 1) := by
    rw [heq]
    exact List.mem_append_right _ (List.mem_singleton_self x)
  exact hx (List.mem_of_mem_drop hmem)

/-- Two lists with the same end have the same last entries if the end has as many, or the rest
has the same. -/
theorem rtake_append_eq_iff {l l' m : List α} : (l ++ m).rtake n = (l' ++ m).rtake n ↔
    n ≤ m.length ∨ l.rtake (n - m.length) = l'.rtake (n - m.length) := by
  rw [rtake_append, rtake_append, List.append_left_inj]
  constructor
  · exact .inr
  · rintro (hle | heq)
    · rw [Nat.sub_eq_zero_of_le hle, List.rtake_zero, List.rtake_zero]
    · exact heq

/-- A reader that has found some entries, of so many that there were, ends with the last good
entries exactly if these are read. -/
theorem rtake_collect_append_iff (hn : 0 < n) {ps : List (List α)} (hnodup : ps.flatten.Nodup)
    {got all : List α} (hgot : ∀ a ∈ got, a ∉ ps.flatten) :
    (collect keep (fun _ => size) limit ps got).rtake n =
        (all ++ ps.flatten.filter keep).rtake n ↔
      LastRead keep size limit n got.length ps ∧
        (n ≤ (ps.flatten.filter keep).length ∨
          got.rtake (n - (ps.flatten.filter keep).length) =
            all.rtake (n - (ps.flatten.filter keep).length)) := by
  induction ps generalizing got all with
  | nil =>
    have hn' : ¬ n ≤ 0 := Nat.not_le.mpr hn
    simp [collect, LastRead, hn']
  | cons p ps ih =>
    rw [List.flatten_cons, List.nodup_append] at hnodup
    obtain ⟨hp, hps, hdisj⟩ := hnodup
    obtain ⟨rest, hrest⟩ := filter_take_initial keep p size
    rw [List.flatten_cons, List.filter_append, collect, LastRead]
    by_cases hfull : limit ≤ got.length
    · rw [if_pos hfull, if_pos hfull, lastRead_of_le (hfull.trans (Nat.le_add_right _ _))]
      rcases List.eq_nil_or_concat' (p.filter keep ++ ps.flatten.filter keep) with
        hnil | ⟨m, x, hm⟩
      · obtain ⟨hL, hF⟩ := List.append_eq_nil_iff.mp hnil
        have hn' : ¬ n ≤ 0 := Nat.not_le.mpr hn
        simp [hL, hF, hn']
      · -- the reader stops before a good entry
        have hx : x ∈ (p :: ps).flatten := by
          rw [List.flatten_cons]
          refine List.mem_of_mem_filter (p := keep) ?_
          rw [List.filter_append, hm]
          exact List.mem_append_right _ (List.mem_singleton_self x)
        refine iff_of_false ?_ ?_
        · rw [hm, ← List.append_assoc]
          exact rtake_ne hn fun hmem => hgot x hmem hx
        · rintro ⟨⟨hL, hF⟩, -⟩
          rw [hL, hF] at hm
          simp at hm
    · have hgot' : ∀ a ∈ got ++ (p.take size).filter keep, a ∉ ps.flatten := by
        intro a ha hmem
        rcases List.mem_append.mp ha with ha | ha
        · exact hgot a ha (List.mem_append_right _ hmem)
        · exact hdisj a (List.mem_of_mem_take (List.mem_of_mem_filter ha)) a hmem rfl
      rw [if_neg hfull, if_neg hfull, ← List.append_assoc, ih hps hgot', List.length_append,
        List.length_append, and_comm (b := LastRead keep size limit n _ ps), and_assoc]
      refine and_congr_right fun _ => ?_
      rcases List.eq_nil_or_concat' rest with rfl | ⟨m, x, rfl⟩
      · -- the window has all good entries
        rw [List.append_nil] at hrest
        rw [hrest, rtake_append_eq_iff, Nat.sub_sub, Nat.add_comm (p.filter keep).length]
        have hle : n - (ps.flatten.filter keep).length ≤ (p.filter keep).length ↔
            n ≤ (ps.flatten.filter keep).length + (p.filter keep).length := by omega
        rw [hle]
        have hmore : n ≤ (ps.flatten.filter keep).length →
            n ≤ (ps.flatten.filter keep).length + (p.filter keep).length := fun h =>
          h.trans (Nat.le_add_right _ _)
        tauto
      · by_cases hF : n ≤ (ps.flatten.filter keep).length
        · exact iff_of_true (.inl hF) ⟨.inl hF, .inl (by omega)⟩
        · -- the window lacks the last good entry of its partition, which is among the last
          have hx : x ∈ p.filter keep := by simp [← hrest]
          have hnodup : (p.filter keep).Nodup := hp.filter keep
          rw [← hrest, ← List.append_assoc, List.nodup_append] at hnodup
          refine iff_of_false ?_ ?_
          · rintro (hle | heq)
            · exact hF hle
            · rw [← hrest, ← List.append_assoc, ← List.append_assoc] at heq
              refine rtake_ne (Nat.sub_pos_of_lt (Nat.not_le.mp hF)) (fun hmem => ?_) heq
              rcases List.mem_append.mp hmem with hmem | hmem
              · exact hgot x hmem (List.mem_append_left _ (List.mem_of_mem_filter hx))
              · exact hnodup.2.2 x (List.mem_append_left _ hmem) x (List.mem_singleton_self x) rfl
          · rintro ⟨hle | heq, -⟩
            · exact hF hle
            · have hlen := congrArg List.length (hrest.trans heq.symm)
              simp at hlen

/-- **The reader ends with the last good entries exactly if these are read.** -/
theorem rtake_collect_iff (keep : α → Bool) (size limit : ℕ) (hn : 0 < n) {ps : List (List α)}
    (hnodup : ps.flatten.Nodup) :
    (collect keep (fun _ => size) limit ps []).rtake n = (ps.flatten.filter keep).rtake n ↔
      LastRead keep size limit n 0 ps := by
  have h : ∀ a ∈ ([] : List α), a ∉ ps.flatten := by simp
  have hall : ps.flatten.filter keep = [] ++ ps.flatten.filter keep := rfl
  rw [hall, rtake_collect_append_iff hn hnodup h]
  exact and_iff_left (.inr rfl)

end Last

end Paging
