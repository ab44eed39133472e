import Mathlib.Data.List.Nodup

/-!
# Tables

A table of a relational database is a list of its rows, and the statements that write to
it are functions of such lists: an insertion that is refused or dropped where its key is
taken, one that replaces the row of its key, an update and a deletion under a condition.
What one wants to know of a statement is which rows are there after it.
-/

namespace Table

variable {ρ κ : Type*}

/-- A row has the key of a given one. -/
def hasKey [DecidableEq κ] (key : ρ → κ) (r : ρ) (rows : List ρ) : Bool :=
  rows.any fun r' => decide (key r' = key r)

/-- `INSERT`, which a unique key may refuse. -/
def insert [DecidableEq κ] (key : ρ → κ) (r : ρ) (rows : List ρ) : Option (List ρ) :=
  if hasKey key r rows then none else some (r :: rows)

/-- `INSERT ... ON CONFLICT DO NOTHING`. -/
def insertNew [DecidableEq κ] (key : ρ → κ) (r : ρ) (rows : List ρ) : List ρ :=
  if hasKey key r rows then rows else r :: rows

/-- `INSERT ... ON CONFLICT DO UPDATE`, of all columns. -/
def upsert [DecidableEq κ] (key : ρ → κ) (r : ρ) (rows : List ρ) : List ρ :=
  if hasKey key r rows then rows.map fun r' => if key r' = key r then r else r'
  else r :: rows

/-- `UPDATE ... WHERE`. -/
def update (p : ρ → Bool) (f : ρ → ρ) (rows : List ρ) : List ρ :=
  rows.map fun r => if p r then f r else r

/-- `DELETE ... WHERE`. -/
def delete (p : ρ → Bool) (rows : List ρ) : List ρ := rows.filter fun r => !p r

section Keyed

variable [DecidableEq κ] {key : ρ → κ} {r r' : ρ} {rows rows' : List ρ}

theorem hasKey_iff : hasKey key r rows = true ↔ ∃ r' ∈ rows, key r' = key r := by
  simp [hasKey]

theorem mem_insert (h : insert key r rows = some rows') : r' ∈ rows' ↔ r' = r ∨ r' ∈ rows := by
  rw [insert] at h
  split at h
  · cases h
  · rw [← Option.some.inj h, List.mem_cons]

theorem key_ne_of_insert (h : insert key r rows = some rows') (hr' : r' ∈ rows) :
    key r' ≠ key r := by
  rw [insert] at h
  split at h
  · cases h
  · rename_i hno
    exact fun heq => hno (hasKey_iff.mpr ⟨r', hr', heq⟩)

theorem mem_of_mem_insertNew (h : r' ∈ insertNew key r rows) : r' = r ∨ r' ∈ rows := by
  rw [insertNew] at h
  split at h
  · exact .inr h
  · exact List.mem_cons.mp h

theorem mem_insertNew_of_mem (h : r' ∈ rows) : r' ∈ insertNew key r rows := by
  rw [insertNew]
  split
  · exact h
  · exact List.mem_cons_of_mem _ h

/-- Rows that are their own keys are there after an insertion. -/
theorem mem_insertNew_id [DecidableEq ρ] : r' ∈ insertNew id r rows ↔ r' = r ∨ r' ∈ rows := by
  constructor
  · exact mem_of_mem_insertNew
  · rintro (rfl | h)
    · rw [insertNew]
      split
      · rename_i hk
        obtain ⟨r'', hr'', rfl⟩ := hasKey_iff.mp hk
        exact hr''
      · exact List.mem_cons_self
    · exact mem_insertNew_of_mem h

theorem mem_of_mem_upsert (h : r' ∈ upsert key r rows) :
    r' = r ∨ r' ∈ rows ∧ key r' ≠ key r := by
  rw [upsert] at h
  split at h
  · obtain ⟨r'', hr'', rfl⟩ := List.mem_map.mp h
    split
    · exact .inl rfl
    · exact .inr ⟨hr'', by assumption⟩
  · rename_i hno
    rcases List.mem_cons.mp h with rfl | h
    · exact .inl rfl
    · exact .inr ⟨h, fun heq => hno (hasKey_iff.mpr ⟨r', h, heq⟩)⟩

theorem mem_upsert_of_mem (h : r' ∈ rows) (hne : key r' ≠ key r) : r' ∈ upsert key r rows := by
  rw [upsert]
  split
  · exact List.mem_map.mpr ⟨r', h, if_neg hne⟩
  · exact List.mem_cons_of_mem _ h

end Keyed

variable {p : ρ → Bool} {f : ρ → ρ} {r r' : ρ} {rows : List ρ}

theorem mem_update : r' ∈ update p f rows ↔ ∃ r ∈ rows, (if p r then f r else r) = r' :=
  List.mem_map

/-- An update, seen through a map that respects it. -/
theorem map_update {ω : Type*} {g : ρ → ω} {q : ω → Bool} {f' : ω → ω} (hp : ∀ r, p r = q (g r))
    (hf : ∀ r, g (f r) = f' (g r)) : (update p f rows).map g = update q f' (rows.map g) := by
  simp only [update, List.map_map]
  refine List.map_congr_left fun r _ => ?_
  rw [Function.comp, Function.comp, hp]
  split
  · exact hf r
  · rfl

/-- A column that an update does not write. -/
theorem map_update_of_eq {ω : Type*} {g : ρ → ω} (hg : ∀ r, g (f r) = g r) :
    (update p f rows).map g = rows.map g := by
  simp only [update, List.map_map]
  refine List.map_congr_left fun r _ => ?_
  rw [Function.comp]
  split
  · exact hg r
  · rfl

theorem mem_delete : r ∈ delete p rows ↔ r ∈ rows ∧ p r = false := by
  simp [delete, List.mem_filter]

/-- What a query finds. -/
theorem of_find?_eq_some {P : ρ → Prop} [DecidablePred P]
    (h : (rows.find? fun r => decide (P r)) = some r) : r ∈ rows ∧ P r := by
  have hfound := List.find?_some h
  exact ⟨List.mem_of_find?_eq_some h, of_decide_eq_true hfound⟩

/-! ### Rows that a statement leaves alone -/

/-- Two tables have the same rows of a kind. -/
def SameOn (q : ρ → Prop) (rows rows' : List ρ) : Prop := ∀ r, q r → (r ∈ rows' ↔ r ∈ rows)

variable {q q' : ρ → Prop} {rows' rows'' : List ρ}

theorem sameOn_refl : SameOn q rows rows := fun _ _ => Iff.rfl

theorem sameOn_of_eq (h : rows' = rows) : SameOn q rows rows' := h ▸ sameOn_refl

theorem SameOn.trans (h : SameOn q rows rows') (h' : SameOn q' rows' rows'')
    (hq : ∀ r, q r → q' r) : SameOn q rows rows'' := fun r hr => (h' r (hq r hr)).trans (h r hr)

theorem sameOn_cons (h : ¬ q r) : SameOn q rows (r :: rows) := by
  intro r' hr'
  rw [List.mem_cons]
  exact or_iff_right fun heq => h (heq ▸ hr')

/-- An update of rows that are not of the kind, and do not become so. -/
theorem sameOn_update (h : ∀ r ∈ rows, p r = true → ¬ q r ∧ ¬ q (f r)) :
    SameOn q rows (update p f rows) := by
  intro r' hr'
  rw [mem_update]
  constructor
  · rintro ⟨r, hr, heq⟩
    split_ifs at heq with hp
    · exact absurd (heq ▸ hr') (h r hr hp).2
    · exact heq ▸ hr
  · intro hr
    exact ⟨r', hr, if_neg fun hp => (h r' hr hp).1 hr'⟩

/-- A deletion of rows that are not of the kind. -/
theorem sameOn_delete (h : ∀ r ∈ rows, p r = true → ¬ q r) : SameOn q rows (delete p rows) := by
  intro r hr
  rw [mem_delete]
  refine ⟨And.left, fun hmem => ⟨hmem, ?_⟩⟩
  rw [Bool.eq_false_iff]
  exact fun hp => h r hmem hp hr

section Keyed

variable [DecidableEq κ] {key : ρ → κ}

theorem sameOn_insert (h : insert key r rows = some rows') (hr : ¬ q r) : SameOn q rows rows' := by
  rw [insert] at h
  split at h
  · cases h
  · exact Option.some.inj h ▸ sameOn_cons hr

theorem sameOn_insertNew (hr : ¬ q r) : SameOn q rows (insertNew key r rows) := by
  rw [insertNew]
  split
  · exact sameOn_refl
  · exact sameOn_cons hr

/-- An insertion that may replace a row, neither of the kind. -/
theorem sameOn_upsert (hr : ¬ q r) (hkey : ∀ r' ∈ rows, key r' = key r → ¬ q r') :
    SameOn q rows (upsert key r rows) := by
  intro r' hr'
  constructor
  · intro hmem
    rcases mem_of_mem_upsert hmem with rfl | ⟨hmem, -⟩
    · exact absurd hr' hr
    · exact hmem
  · exact fun hmem => mem_upsert_of_mem hmem fun heq => hkey r' hmem heq hr'

/-! ### Keys -/

/-- No two rows have the same key. -/
def Keyed (key : ρ → κ) (rows : List ρ) : Prop := (rows.map key).Nodup

instance (key : ρ → κ) (rows : List ρ) : Decidable (Keyed key rows) :=
  inferInstanceAs (Decidable (List.Nodup _))

omit [DecidableEq κ] in
theorem Keyed.eq_of_key {r₁ r₂ : ρ} (h : Keyed key rows) (h₁ : r₁ ∈ rows) (h₂ : r₂ ∈ rows)
    (heq : key r₁ = key r₂) : r₁ = r₂ := List.inj_on_of_nodup_map h h₁ h₂ heq

omit [DecidableEq κ] in
theorem Keyed.cons (h : Keyed key rows) (hr : ∀ r' ∈ rows, key r' ≠ key r) :
    Keyed key (r :: rows) := by
  rw [Keyed, List.map_cons, List.nodup_cons]
  refine ⟨fun hmem => ?_, h⟩
  obtain ⟨r', hr', heq⟩ := List.mem_map.mp hmem
  exact hr r' hr' heq

theorem Keyed.insert (h : Keyed key rows) (hins : Table.insert key r rows = some rows') :
    Keyed key rows' := by
  have hfresh (r' : ρ) (hr' : r' ∈ rows) : key r' ≠ key r := key_ne_of_insert hins hr'
  rw [Table.insert] at hins
  split at hins
  · cases hins
  · exact Option.some.inj hins ▸ h.cons hfresh

theorem Keyed.insertNew (h : Keyed key rows) : Keyed key (Table.insertNew key r rows) := by
  rw [Table.insertNew]
  split
  · exact h
  · rename_i hno
    exact h.insert (if_neg hno)

omit [DecidableEq κ] in
theorem Keyed.update (h : Keyed key rows) (hf : ∀ r, key (f r) = key r) :
    Keyed key (update p f rows) := by
  rw [Keyed, map_update_of_eq hf]
  exact h

omit [DecidableEq κ] in
theorem Keyed.delete (h : Keyed key rows) : Keyed key (delete p rows) :=
  h.sublist (List.filter_sublist.map key)

omit [DecidableEq κ] in
/-- At most one row meets a condition that tells its key. -/
theorem Keyed.countP_le_one (h : Keyed key rows)
    (hp : ∀ r₁ ∈ rows, ∀ r₂ ∈ rows, p r₁ = true → p r₂ = true → key r₁ = key r₂) :
    rows.countP p ≤ 1 := by
  induction rows with
  | nil => exact Nat.zero_le _
  | cons r rows ih =>
    obtain ⟨hr, hrows⟩ := List.nodup_cons.mp h
    by_cases hpr : p r = true
    · -- the other rows have other keys
      have hzero : rows.countP p = 0 := by
        rw [List.countP_eq_zero]
        intro r' hr' hpr'
        have heq := hp r' (List.mem_cons_of_mem _ hr') r List.mem_cons_self hpr' hpr
        exact hr (heq ▸ List.mem_map_of_mem hr')
      rw [List.countP_cons_of_pos hpr]
      omega
    · rw [List.countP_cons_of_neg hpr]
      exact ih hrows fun r₁ h₁ r₂ h₂ =>
        hp r₁ (List.mem_cons_of_mem _ h₁) r₂ (List.mem_cons_of_mem _ h₂)

end Keyed

end Table
