import Mathlib.Data.List.AList

/-!
# Finite maps with an iteration order

The hash maps and hash sets of an imperative program, over Mathlib's `AList`: a
list of entries with pairwise distinct keys. The list is the order in which a
loop over the map meets its entries, so a program that iterates can be run; every
property one wants to keep is stated through `AList.lookup`, which does not see
the order.

Mathlib has insertion and removal. This file adds the three bulk operations such
programs use – updating every value (`Dict.mapVals`), dropping the entries that
fail a test (`Dict.retain`), updating one value in place (`Dict.modify`) – with
what `lookup` returns after each, and the reading of a loop that collects a list
from every entry (`Dict.filter_flatMap`).
-/

/-- A finite map from `κ` to `ν`, with the order a loop meets its entries in. -/
abbrev Dict (κ ν : Type*) := AList fun _ : κ => ν

/-- A finite set of keys. -/
abbrev KeySet (κ : Type*) := Dict κ Unit

namespace Dict

variable {κ ν ω : Type*}

/-- The entries, in iteration order. -/
def pairs (m : Dict κ ν) : List (κ × ν) := m.entries.map fun e => (e.1, e.2)

/-- The values, in iteration order. -/
def values (m : Dict κ ν) : List ν := m.entries.map fun e => e.2

/-- Whether there is no entry. -/
def isEmpty (m : Dict κ ν) : Bool := m.entries.isEmpty

/-- Updates every value, which may look at its key. -/
def mapVals (f : κ → ν → ω) (m : Dict κ ν) : Dict κ ω where
  entries := m.entries.map fun e => ⟨e.1, f e.1 e.2⟩
  nodupKeys := by
    have h := m.nodupKeys
    rw [List.NodupKeys] at h ⊢
    rw [List.keys, List.map_map]
    exact h

/-- Drops the entries that fail the test. -/
def retain (p : κ → ν → Bool) (m : Dict κ ν) : Dict κ ν where
  entries := m.entries.filter fun e => p e.1 e.2
  nodupKeys := m.nodupKeys.sublist List.filter_sublist

/-- An empty map has no pairs. -/
@[simp] theorem pairs_empty : pairs (∅ : Dict κ ν) = [] := rfl

/-- No key is in the empty map. -/
@[simp] theorem isEmpty_empty : isEmpty (∅ : Dict κ ν) = true := rfl

/-- A key is in one pair only. -/
theorem nodup_keys_pairs (m : Dict κ ν) : (m.pairs.map Prod.fst).Nodup := by
  rw [pairs, List.map_map]
  exact m.nodupKeys

/-! ### Dropping entries -/

/-- The entries that are retained. -/
theorem entries_retain (p : κ → ν → Bool) (m : Dict κ ν) :
    (m.retain p).entries = m.entries.filter fun e => p e.1 e.2 := rfl

/-- Two selections may change places. -/
theorem retain_comm (p q : κ → ν → Bool) (m : Dict κ ν) :
    retain q (m.retain p) = retain p (m.retain q) :=
  AList.ext (List.filter_comm _ _ _)

/-- A second test that lets through less. -/
theorem retain_of_imp {p q : κ → ν → Bool} (h : ∀ k v, q k v = true → p k v = true)
    (m : Dict κ ν) : retain q (m.retain p) = m.retain q := by
  refine AList.ext ((List.filter_filter ..).trans (List.filter_congr fun e _ => ?_))
  cases hq : q e.1 e.2 with
  | true => rw [Bool.true_and, h e.1 e.2 hq]
  | false => rfl

/-! ### The entries of one compartment

The keys of a map may fall into compartments; `only g i m` has the entries of the compartment
`i`, where `g` says which one a key is of. -/

section Only

variable {ι : Type*} [DecidableEq ι] {g : κ → ι} {i : ι}

/-- The entries whose keys are of one kind. -/
def only (g : κ → ι) (i : ι) (m : Dict κ ν) : Dict κ ν := m.retain fun k _ => decide (g k = i)

/-- The kind of a key does not depend on its value. -/
theorem only_mapVals (f : κ → ν → ν) (m : Dict κ ν) :
    only g i (m.mapVals f) = mapVals f (m.only g i) := AList.ext List.filter_map

/-- The keys of one kind. -/
theorem keys_only (m : Dict κ ν) :
    (m.only g i).keys = m.keys.filter fun k => decide (g k = i) := by
  have hkeys (m : Dict κ ν) : m.keys = m.entries.map Sigma.fst := rfl
  rw [hkeys, hkeys, List.filter_map]
  rfl

/-- The pairs with keys of one kind. -/
theorem pairs_only (m : Dict κ ν) :
    pairs (m.only g i) = m.pairs.filter fun e => decide (g e.1 = i) := by
  rw [pairs, pairs, List.filter_map]
  rfl

end Only

variable [DecidableEq κ]

/-- Updates the value at one key, if there is one. -/
def modify (k : κ) (f : ν → ν) (m : Dict κ ν) : Dict κ ν :=
  match m.lookup k with
  | none => m
  | some v => m.insert k (f v)

/-- A pair is there if its key is looked up so. -/
theorem mem_pairs {m : Dict κ ν} {k : κ} {v : ν} : (k, v) ∈ m.pairs ↔ m.lookup k = some v := by
  rw [← Option.mem_def, AList.mem_lookup_iff, pairs, List.mem_map]
  constructor
  · rintro ⟨⟨k', v'⟩, he, heq⟩
    obtain ⟨rfl, rfl⟩ : k' = k ∧ v' = v := by simpa using heq
    exact he
  · exact fun h => ⟨⟨k, v⟩, h, rfl⟩

/-- A value is there if some key is looked up so. -/
theorem mem_values {m : Dict κ ν} {v : ν} : v ∈ m.values ↔ ∃ k, m.lookup k = some v := by
  rw [values, List.mem_map]
  constructor
  · rintro ⟨⟨k, w⟩, he, rfl⟩
    exact ⟨k, AList.mem_lookup_iff.mpr he⟩
  · rintro ⟨k, hk⟩
    exact ⟨⟨k, v⟩, AList.mem_lookup_iff.mp hk, rfl⟩

/-- What `lookup` says after an insertion, at every key at once. -/
theorem lookup_insert_eq (m : Dict κ ν) (k k' : κ) (v : ν) :
    (m.insert k v).lookup k' = if k' = k then some v else m.lookup k' := by
  by_cases h : k' = k
  · rw [h, if_pos rfl, AList.lookup_insert]
  · rw [if_neg h, AList.lookup_insert_ne h]

/-- What `lookup` says after a removal, at every key at once. -/
theorem lookup_erase_eq (m : Dict κ ν) (k k' : κ) :
    (m.erase k).lookup k' = if k' = k then none else m.lookup k' := by
  by_cases h : k' = k
  · rw [h, if_pos rfl, AList.lookup_erase]
  · rw [if_neg h, AList.lookup_erase_ne h]

/-- A look-up after the values have been changed. -/
@[simp] theorem lookup_mapVals (f : κ → ν → ω) (m : Dict κ ν) (k : κ) :
    (m.mapVals f).lookup k = (m.lookup k).map (f k) := by
  apply Option.ext
  intro w
  rw [← Option.mem_def, AList.mem_lookup_iff, Option.map_eq_some_iff]
  constructor
  · intro h
    obtain ⟨⟨k', v⟩, hv, heq⟩ := List.mem_map.mp h
    obtain ⟨rfl, rfl⟩ : k' = k ∧ f k' v = w := by simpa using heq
    exact ⟨v, AList.mem_lookup_iff.mpr hv, rfl⟩
  · rintro ⟨v, hv, rfl⟩
    exact List.mem_map.mpr ⟨⟨k, v⟩, AList.mem_lookup_iff.mp hv, rfl⟩

/-- A look-up among what is retained. -/
@[simp] theorem lookup_retain (p : κ → ν → Bool) (m : Dict κ ν) (k : κ) :
    (m.retain p).lookup k = (m.lookup k).filter (p k) := by
  apply Option.ext
  intro v
  rw [← Option.mem_def, AList.mem_lookup_iff, Option.filter_eq_some_iff]
  constructor
  · intro h
    obtain ⟨hv, hp⟩ := List.mem_filter.mp h
    exact ⟨AList.mem_lookup_iff.mpr hv, hp⟩
  · rintro ⟨hv, hp⟩
    exact List.mem_filter.mpr ⟨AList.mem_lookup_iff.mp hv, hp⟩

/-- A look-up after one value has been changed. -/
@[simp] theorem lookup_modify (m : Dict κ ν) (k k' : κ) (f : ν → ν) :
    (m.modify k f).lookup k' = if k' = k then (m.lookup k').map f else m.lookup k' := by
  unfold modify
  cases hk : m.lookup k with
  | none =>
    by_cases h : k' = k
    · rw [if_pos h, h, hk, Option.map_none]
    · rw [if_neg h]
  | some v =>
    rw [lookup_insert_eq]
    by_cases h : k' = k
    · rw [if_pos h, if_pos h, h, hk, Option.map_some]
    · rw [if_neg h, if_neg h]

/-- What is inserted and erased might as well not have been inserted. -/
theorem erase_insert (m : Dict κ ν) (k : κ) (v : ν) : (m.insert k v).erase k = m.erase k :=
  AList.ext (List.kerase_cons_eq rfl)

/-- Insertion and erasure at different keys may change places. -/
theorem erase_insert_of_ne {m : Dict κ ν} {k k' : κ} {v : ν} (h : k ≠ k') :
    (m.insert k v).erase k' = (m.erase k').insert k v :=
  AList.ext ((List.kerase_cons_ne h.symm).trans (congrArg (List.cons _) List.kerase_kerase))

/-- What is changed and erased might as well not have been changed. -/
theorem erase_modify (m : Dict κ ν) (k : κ) (f : ν → ν) : (m.modify k f).erase k = m.erase k := by
  unfold modify
  split
  · rfl
  · exact erase_insert m k _

/-- There is nothing to erase at a key that is not there. -/
theorem erase_of_lookup {m : Dict κ ν} {k : κ} (hk : m.lookup k = none) : m.erase k = m :=
  AList.ext (List.kerase_of_notMem_keys (AList.lookup_eq_none.mp hk))

/-- A map is empty if nothing can be looked up. -/
theorem isEmpty_iff {m : Dict κ ν} : m.isEmpty = true ↔ ∀ k, m.lookup k = none := by
  rw [isEmpty, List.isEmpty_iff]
  constructor
  · intro h k
    rw [AList.lookup_eq_none, AList.mem_keys, AList.keys, h]
    exact List.not_mem_nil
  · intro h
    rw [List.eq_nil_iff_forall_not_mem]
    rintro ⟨k, v⟩ hkv
    rw [← AList.mem_lookup_iff, h k] at hkv
    exact absurd hkv (by simp)

/-! Dropping entries, beside the other operations. -/

/-- An entry that is not retained is not found. -/
theorem lookup_retain_of_false {p : κ → ν → Bool} {m : Dict κ ν} {k : κ}
    (h : ∀ v, m.lookup k = some v → p k v = false) : (m.retain p).lookup k = none := by
  rw [lookup_retain, Option.filter_eq_none_iff]
  exact fun v hv => Bool.eq_false_iff.mp (h v hv)

/-- Erasure and selection may change places. -/
theorem retain_erase (p : κ → ν → Bool) (m : Dict κ ν) (k : κ) :
    retain p (m.erase k) = (m.retain p).erase k := by
  have hfilter {l : List (Sigma fun _ : κ => ν)} (hl : l.NodupKeys) :
      l.kerase k = l.filter fun e => !decide (e.1 = k) := by
    induction l with
    | nil => rfl
    | cons e l ih =>
      obtain ⟨hnew, hl⟩ := List.nodupKeys_cons.mp hl
      by_cases hk : k = e.1
      · have hrest : ∀ e' ∈ l, (!decide (e'.1 = k)) = true := by
          intro e' he'
          rw [Bool.not_eq_true', decide_eq_false_iff_not]
          intro heq
          exact hnew (heq.trans hk ▸ List.mem_keys_of_mem he')
        rw [List.kerase_cons_eq hk, List.filter_cons, if_neg (by simp [hk]),
          List.filter_eq_self.mpr hrest]
      · rw [List.kerase_cons_ne hk, ih hl, List.filter_cons,
          if_pos (by simpa using fun h => hk h.symm)]
  refine AList.ext ?_
  have herase (m : Dict κ ν) : (m.erase k).entries = m.entries.kerase k := rfl
  rw [entries_retain, herase, herase, hfilter m.nodupKeys, hfilter (m.retain p).nodupKeys,
    entries_retain, List.filter_comm]

/-- An entry that is retained may be inserted afterwards. -/
theorem retain_insert_of_true {p : κ → ν → Bool} {k : κ} {v : ν} (h : p k v = true)
    (m : Dict κ ν) : retain p (m.insert k v) = (m.retain p).insert k v := by
  have hrest := congrArg AList.entries (retain_erase p m k)
  refine AList.ext ?_
  rw [entries_retain, AList.entries_insert, AList.entries_insert, List.filter_cons, if_pos h]
  exact congrArg _ hrest

/-- What is inserted is dropped, and so is what it replaces. -/
theorem retain_insert_of_false {p : κ → ν → Bool} {k : κ} {v : ν} (h : p k v = false)
    {m : Dict κ ν} (hold : ∀ w, m.lookup k = some w → p k w = false) :
    retain p (m.insert k v) = m.retain p := by
  have hrest := congrArg AList.entries (retain_erase p m k)
  rw [← erase_of_lookup (lookup_retain_of_false hold)]
  refine AList.ext ?_
  rw [entries_retain, AList.entries_insert, List.filter_cons, if_neg (Bool.eq_false_iff.mp h)]
  exact hrest

section Only

variable {ι : Type*} [DecidableEq ι] {g : κ → ι} {i : ι} {k : κ}

/-- A key of the kind is looked up as before. -/
theorem lookup_only (h : g k = i) (m : Dict κ ν) : (m.only g i).lookup k = m.lookup k := by
  rw [only, lookup_retain]
  cases m.lookup k with
  | none => rfl
  | some v => exact if_pos (decide_eq_true h)

/-- A key of another kind is not found. -/
theorem lookup_only_of_ne (h : g k ≠ i) (m : Dict κ ν) : (m.only g i).lookup k = none :=
  lookup_retain_of_false fun _ _ => decide_eq_false h

/-- Insertion at a key of the kind. -/
theorem only_insert (h : g k = i) (v : ν) (m : Dict κ ν) :
    only g i (m.insert k v) = (m.only g i).insert k v :=
  retain_insert_of_true (p := fun k _ => decide (g k = i)) (decide_eq_true h) m

/-- Insertion at a key of another kind. -/
theorem only_insert_of_ne (h : g k ≠ i) (v : ν) (m : Dict κ ν) :
    only g i (m.insert k v) = m.only g i :=
  retain_insert_of_false (p := fun k _ => decide (g k = i)) (decide_eq_false h)
    fun _ _ => decide_eq_false h

/-- Erasure among the entries of one kind. -/
theorem only_erase (g : κ → ι) (i : ι) (k : κ) (m : Dict κ ν) :
    only g i (m.erase k) = (m.only g i).erase k := retain_erase _ m k

/-- Erasure of a key of another kind. -/
theorem only_erase_of_ne (h : g k ≠ i) (m : Dict κ ν) : only g i (m.erase k) = m.only g i :=
  (only_erase g i k m).trans (erase_of_lookup (lookup_only_of_ne h m))

/-- A change at a key of the kind. -/
theorem only_modify (h : g k = i) (f : ν → ν) (m : Dict κ ν) :
    only g i (m.modify k f) = modify k f (m.only g i) := by
  rw [modify, modify, lookup_only h]
  cases m.lookup k with
  | none => rfl
  | some v => exact only_insert h _ m

/-- A change at a key of another kind. -/
theorem only_modify_of_ne (h : g k ≠ i) (f : ν → ν) (m : Dict κ ν) :
    only g i (m.modify k f) = m.only g i := by
  rw [modify]
  cases m.lookup k with
  | none => rfl
  | some v => exact only_insert_of_ne h _ m

end Only

/-- Membership after a loop of insertions. -/
theorem mem_foldl_insert {α : Type*} (f : α → κ) (v : ν) (l : List α) (m : Dict κ ν) (k : κ) :
    k ∈ l.foldl (fun m a => m.insert (f a) v) m ↔ k ∈ m ∨ ∃ a ∈ l, f a = k := by
  induction l generalizing m with
  | nil => simp
  | cons a l ih =>
    rw [List.foldl_cons, ih, AList.mem_insert, List.exists_mem_cons_iff, or_assoc, eq_comm (a := k),
      or_left_comm]

/-- A loop of insertions under different keys adds one for each. -/
theorem length_keys_foldl_insert {α : Type*} (f : α → κ) (v : ν) {l : List α}
    (hl : (l.map f).Nodup) {m : Dict κ ν} (hm : ∀ a ∈ l, f a ∉ m) :
    (l.foldl (fun m a => m.insert (f a) v) m).keys.length = m.keys.length + l.length := by
  induction l generalizing m with
  | nil => rfl
  | cons a l ih =>
    rw [List.map_cons, List.nodup_cons] at hl
    have hnew : f a ∉ m.keys := hm a (.head _)
    have hkeys : (m.insert (f a) v).keys.length = m.keys.length + 1 := by
      rw [AList.keys_insert, List.erase_of_not_mem hnew, List.length_cons]
    rw [List.foldl_cons, ih hl.2, hkeys, List.length_cons]
    · omega
    · intro b hb hmem
      rcases AList.mem_insert m |>.mp hmem with heq | hold
      · exact hl.1 (heq ▸ List.mem_map_of_mem hb)
      · exact hm b (.tail _ hb) hold

/-- **Reading a collecting loop.** A loop appends a list for every entry; where
the elements that pass a test are exactly those contributed by one key, filtering
what was collected gives back that key's list. -/
theorem filter_flatMap {m : Dict κ ν} {k : κ} {v : ν} (hk : m.lookup k = some v)
    (f : κ × ν → List ω) (p : ω → Bool) (hp : ∀ e ∈ m.pairs, ∀ w ∈ f e, p w = true ↔ e.1 = k) :
    (m.pairs.flatMap f).filter p = f (k, v) := by
  obtain ⟨l, r, hlr⟩ := List.append_of_mem (mem_pairs.mpr hk)
  have hnd : (m.pairs.map Prod.fst).Nodup := nodup_keys_pairs m
  rw [hlr, List.map_append, List.map_cons, List.nodup_append] at hnd
  obtain ⟨-, hr, hdisj⟩ := hnd
  have drop : ∀ l' : List (κ × ν), (∀ e ∈ l', e ∈ m.pairs ∧ e.1 ≠ k) →
      (l'.flatMap f).filter p = [] := by
    intro l' h'
    rw [List.filter_eq_nil_iff]
    intro w hw
    obtain ⟨e, he, hwe⟩ := List.mem_flatMap.mp hw
    exact fun hpw => (h' e he).2 ((hp e (h' e he).1 w hwe).mp hpw)
  have hl0 : (l.flatMap f).filter p = [] := drop l fun e he =>
    ⟨hlr ▸ List.mem_append_left _ he,
      fun hek => hdisj e.1 (List.mem_map_of_mem he) k (by simp) hek⟩
  have hr0 : (r.flatMap f).filter p = [] := drop r fun e he =>
    ⟨hlr ▸ List.mem_append_right _ (List.mem_cons_of_mem _ he),
      fun hek => (List.nodup_cons.mp hr).1 (List.mem_map.mpr ⟨e, he, hek⟩)⟩
  have hk0 : (f (k, v)).filter p = f (k, v) := by
    rw [List.filter_eq_self]
    exact fun w hw => (hp (k, v) (mem_pairs.mpr hk) w hw).mpr rfl
  rw [hlr, List.flatMap_append, List.flatMap_cons, List.filter_append, List.filter_append, hl0,
    hr0, hk0, List.append_nil, List.nil_append]

/-- The values that pass a test, where it is passed at one key. -/
theorem filter_values {m : Dict κ ν} {k : κ} {v : ν} (hk : m.lookup k = some v) (p : ν → Bool)
    (hp : ∀ k' v', m.lookup k' = some v' → (p v' = true ↔ k' = k)) : m.values.filter p = [v] := by
  have hvalues : m.values = m.pairs.flatMap fun e => [e.2] := by
    rw [← List.map_eq_flatMap, pairs, List.map_map]
    rfl
  rw [hvalues]
  refine filter_flatMap hk _ p fun e he w hw => ?_
  rw [List.mem_singleton.mp hw]
  exact hp e.1 e.2 (mem_pairs.mp he)

end Dict

/-! ### Two maps side by side

Two states of a map are compared key by key: both lookups fail, or both succeed
with related values. -/

namespace Option.Rel

variable {α : Type*} {R : α → α → Prop}

theorem refl (h : ∀ a, R a a) : ∀ o : Option α, Rel R o o
  | Option.none => .none
  | Option.some a => .some (h a)

theorem trans (h : ∀ {a b c}, R a b → R b c → R a c) {x y z : Option α} (hxy : Rel R x y)
    (hyz : Rel R y z) : Rel R x z := by
  cases hxy with
  | none => exact hyz
  | some hab =>
    cases hyz with
    | some hbc => exact .some (h hab hbc)

/-- A weaker relation of the values. -/
theorem imp {R' : α → α → Prop} (h : ∀ {a b}, R a b → R' a b) {x y : Option α}
    (hxy : Rel R x y) : Rel R' x y := by
  cases hxy with
  | some hab => exact .some (h hab)
  | none => exact .none

/-- What is related to nothing is nothing. -/
theorem none_left {o : Option α} (h : Rel R Option.none o) : o = Option.none := by
  cases h with
  | none => rfl

/-- What is related to something is something. -/
theorem some_left {a : α} {o : Option α} (h : Rel R (Option.some a) o) :
    ∃ b, o = Option.some b ∧ R a b := by
  cases h with
  | some hab => exact ⟨_, rfl, hab⟩

/-- What something is related to is something. -/
theorem some_right {b : α} {o : Option α} (h : Rel R o (Option.some b)) :
    ∃ a, o = Option.some a ∧ R a b := by
  cases h with
  | some hab => exact ⟨_, rfl, hab⟩

end Option.Rel
