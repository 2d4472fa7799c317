import Mathlib

/-!
# Tables with a primary key, and transactions

A `Table` is the rows of an SQL table together with the fact that its primary key is one: no two
rows have the same key.  `insert?` refuses a row whose key is taken, which is the `IntegrityError`
of `INSERT`; `delete` is `DELETE … WHERE`, `update` is `UPDATE … WHERE`, and `put` is an `UPDATE` of
the row with a key.  Rows stand in the order they were inserted in.

`Keeps D P` relates two states of a table in which the rows that satisfy `D` have persisted, each
changed as `P` says.  `Evolves P N` does so for every row, and says `N` of the rows that are new.

An `Indexed` table has a second `UNIQUE` column, and `insert?` and `put?` refuse a row for either.
A `Guarded` one has a `CHECK` constraint and triggers that abort an `UPDATE`.

A `transaction` runs its body on a copy of the database.  If the body raises, the copy is dropped
(`ROLLBACK`), and otherwise it takes the place of the database (`COMMIT`).
-/

open List

namespace Py

/-! ## Tables -/

/-- The rows of a table with primary key `key`. -/
structure Table (ρ : Type) {κ : Type} (key : ρ → κ) where
  rows : List ρ
  unique : (rows.map key).Nodup

namespace Table

variable {ρ κ : Type} {key : ρ → κ}

def empty : Table ρ key := ⟨[], nodup_nil⟩

variable {t : Table ρ key} {r r' x : ρ} {p : ρ → Bool} {f : ρ → ρ} {hf : ∀ r, key (f r) = key r}

/-- Two rows with one key are one row. -/
theorem eq_of_key_eq (hr : r ∈ t.rows) (hr' : r' ∈ t.rows) (h : key r = key r') :
    r = r' := inj_on_of_nodup_map t.unique hr hr' h

/-- `DELETE … WHERE p` -/
def delete (t : Table ρ key) (p : ρ → Bool) : Table ρ key where
  rows := t.rows.filter fun r ↦ !p r
  unique := t.unique.sublist (filter_sublist.map key)

@[simp] theorem mem_delete : r ∈ (t.delete p).rows ↔ r ∈ t.rows ∧ p r = false := by
  simp [delete]

/-- `UPDATE … SET f WHERE p`, which leaves the key alone. -/
def update (t : Table ρ key) (p : ρ → Bool) (f : ρ → ρ) (hf : ∀ r, key (f r) = key r) :
    Table ρ key where
  rows := t.rows.map fun r ↦ if p r then f r else r
  unique := by
    have h : (key ∘ fun r ↦ if p r then f r else r) = key := by
      funext r
      by_cases hr : p r = true
      · simp [hr, hf r]
      · simp [hr]
    rw [map_map, h]
    exact t.unique

/-- The rows of the `UPDATE`, one by one. -/
theorem mem_update :
    x ∈ (t.update p f hf).rows ↔ ∃ r ∈ t.rows, (if p r then f r else r) = x := mem_map

/-- An `UPDATE` adds no row. -/
theorem exists_key_of_mem_update (h : x ∈ (t.update p f hf).rows) :
    ∃ r ∈ t.rows, key r = key x := by
  obtain ⟨r, hr, rfl⟩ := mem_update.1 h
  refine ⟨r, hr, ?_⟩
  by_cases hp : p r = true
  · rw [if_pos hp, hf r]
  · rw [if_neg hp]

def rowcount (t : Table ρ key) (p : ρ → Bool) : Nat := t.rows.countP p

theorem exists_of_rowcount (h : t.rowcount p = 1) :
    ∃ r ∈ t.rows, p r = true := by
  refine countP_pos_iff.1 (Nat.lt_of_lt_of_eq Nat.one_pos h.symm)

section Keys

variable [DecidableEq κ]

/-- `SELECT … WHERE key = ?` -/
def find? (t : Table ρ key) (k : κ) : Option ρ := t.rows.find? fun r ↦ decide (key r = k)

variable {k : κ}

theorem find?_eq_some_iff :
    t.find? k = some r ↔ r ∈ t.rows ∧ key r = k := by
  constructor
  · intro h
    exact ⟨mem_of_find?_eq_some h, by simpa using find?_some h⟩
  · rintro ⟨hr, rfl⟩
    cases h : t.find? (key r) with
    | none => exact absurd (decide_eq_true rfl) (find?_eq_none.1 h r hr)
    | some r' =>
      have hkey : key r' = key r := by simpa using find?_some h
      rw [t.eq_of_key_eq (mem_of_find?_eq_some h) hr hkey]

theorem find?_eq_none_iff :
    t.find? k = none ↔ ∀ r ∈ t.rows, key r ≠ k := by
  simp [find?, find?_eq_none]

/-- `UPDATE` of the row with the key of `r`, if there is one. -/
def put (t : Table ρ key) (r : ρ) : Table ρ key where
  rows := t.rows.map fun r' ↦ if key r' = key r then r else r'
  unique := by
    have h : (key ∘ fun r' ↦ if key r' = key r then r else r') = key := by
      funext r'
      by_cases hkey : key r' = key r
      · simp [hkey]
      · simp [hkey]
    rw [map_map, h]
    exact t.unique

theorem mem_put :
    x ∈ (t.put r).rows ↔
      (x ∈ t.rows ∧ key x ≠ key r) ∨ (x = r ∧ ∃ r' ∈ t.rows, key r' = key r) := by
  simp only [put, mem_map]
  constructor
  · rintro ⟨r', hr', rfl⟩
    by_cases hkey : key r' = key r
    · rw [if_pos hkey]
      exact .inr ⟨rfl, r', hr', hkey⟩
    · rw [if_neg hkey]
      exact .inl ⟨hr', hkey⟩
  · rintro (⟨hx, hkey⟩ | ⟨rfl, r', hr', hkey⟩)
    · exact ⟨x, hx, if_neg hkey⟩
    · exact ⟨r', hr', if_pos hkey⟩

/-- `INSERT` -/
def insert? (t : Table ρ key) (r : ρ) : Option (Table ρ key) :=
  if h : key r ∈ t.rows.map key then none
  else some ⟨t.rows ++ [r], by
    rw [map_append]
    refine nodup_append.2 ⟨t.unique, nodup_singleton _, fun a ha b hb hab ↦ h ?_⟩
    rw [map_singleton, mem_singleton] at hb
    exact hb ▸ hab ▸ ha⟩

variable {t' : Table ρ key}

theorem insert?_eq_some_iff :
    t.insert? r = some t' ↔ (∀ r' ∈ t.rows, key r' ≠ key r) ∧ t'.rows = t.rows ++ [r] := by
  have hmem : key r ∈ t.rows.map key ↔ ∃ r' ∈ t.rows, key r' = key r := mem_map
  rw [insert?]
  split
  next h =>
    obtain ⟨r', hr', hkey⟩ := hmem.1 h
    exact ⟨nofun, fun h' ↦ absurd hkey (h'.1 r' hr')⟩
  next h =>
    constructor
    · intro h'
      cases h'
      exact ⟨fun r' hr' hkey ↦ h (hmem.2 ⟨r', hr', hkey⟩), rfl⟩
    · rintro ⟨-, hrows⟩
      cases t'
      cases hrows
      rfl

theorem find?_put_of_ne (h : k ≠ key r) : (t.put r).find? k = t.find? k := by
  refine Option.ext fun x ↦ ?_
  rw [find?_eq_some_iff, find?_eq_some_iff, mem_put]
  constructor
  · rintro ⟨⟨hx, -⟩ | ⟨rfl, -⟩, hkey⟩
    · exact ⟨hx, hkey⟩
    · exact absurd hkey.symm h
  · rintro ⟨hx, hkey⟩
    exact ⟨.inl ⟨hx, hkey ▸ h⟩, hkey⟩

theorem find?_put_self (h : t.find? (key r) = some x) :
    (t.put r).find? (key r) = some r := by
  obtain ⟨hx, hkey⟩ := find?_eq_some_iff.1 h
  exact find?_eq_some_iff.2 ⟨mem_put.2 (.inr ⟨rfl, x, hx, hkey⟩), rfl⟩

theorem find?_insert?_of_ne (hins : t.insert? r = some t') (h : k ≠ key r) :
    t'.find? k = t.find? k := by
  refine Option.ext fun x ↦ ?_
  rw [find?_eq_some_iff, find?_eq_some_iff, (insert?_eq_some_iff.1 hins).2, mem_append,
    mem_singleton]
  constructor
  · rintro ⟨hx | rfl, hkey⟩
    · exact ⟨hx, hkey⟩
    · exact absurd hkey.symm h
  · rintro ⟨hx, hkey⟩
    exact ⟨.inl hx, hkey⟩

theorem find?_insert?_self (hins : t.insert? r = some t') :
    t.find? (key r) = none ∧ t'.find? (key r) = some r := by
  obtain ⟨hfresh, hrows⟩ := insert?_eq_some_iff.1 hins
  refine ⟨find?_eq_none_iff.2 hfresh, find?_eq_some_iff.2 ⟨?_, rfl⟩⟩
  rw [hrows]
  exact mem_append_right _ (mem_singleton_self r)

/-- A row that was inserted last, and is then written over. -/
theorem rows_put_insert? (hins : t.insert? r = some t') (hkey : key r' = key r) :
    (t'.put r').rows = t.rows ++ [r'] := by
  obtain ⟨hfresh, hrows⟩ := insert?_eq_some_iff.1 hins
  have hold : t.rows.map (fun x ↦ if key x = key r' then r' else x) = t.rows := by
    refine (map_congr_left fun x hx ↦ ?_).trans (map_id _)
    exact if_neg fun h ↦ hfresh x hx (h.trans hkey)
  change t'.rows.map (fun x ↦ if key x = key r' then r' else x) = _
  rw [hrows, map_append, hold, map_singleton, if_pos hkey.symm]

/-- The rows that satisfy a condition only one row satisfies. -/
theorem filter_eq_singleton (hr : r ∈ t.rows) (hp : ∀ x ∈ t.rows, p x = true ↔ x = r) :
    t.rows.filter p = [r] := by
  have hfilter : t.rows.filter p = t.rows.filter fun x ↦ decide (key x = key r) := by
    refine filter_congr fun x hx ↦ ?_
    rw [Bool.eq_iff_iff, hp x hx, decide_eq_true_eq]
    exact ⟨fun h ↦ by rw [h], fun h ↦ eq_of_key_eq hx hr h⟩
  obtain ⟨before, after, hrows⟩ := append_of_mem hr
  have hunique := t.unique
  rw [hrows, map_append, map_cons, nodup_append] at hunique
  obtain ⟨-, hafter, hbefore⟩ := hunique
  rw [hfilter, hrows, filter_append, filter_cons_of_pos (by simp),
    filter_eq_nil_iff.2, filter_eq_nil_iff.2, nil_append]
  · intro x hx
    have : key x ≠ key r := fun h ↦ (nodup_cons.1 hafter).1 (h ▸ mem_map_of_mem hx)
    simpa using this
  · intro x hx
    have : key x ≠ key r :=
      fun h ↦ hbefore (key x) (mem_map_of_mem hx) (key r) mem_cons_self h
    simpa using this

end Keys

/-! ## Rows that persist -/

/-- Every row that satisfies `D` is there again under its key, and `P` relates what it was to what
it is. -/
def Keeps (D : ρ → Prop) (P : ρ → ρ → Prop) (t t' : Table ρ key) : Prop :=
  ∀ r ∈ t.rows, D r → ∃ r' ∈ t'.rows, key r' = key r ∧ D r' ∧ P r r'

section Keeps

variable {D : ρ → Prop} {P : ρ → ρ → Prop} {t t' t'' : Table ρ key}

theorem Keeps.refl (hP : ∀ r, P r r) (t : Table ρ key) : t.Keeps D P t :=
  fun r hr hD ↦ ⟨r, hr, rfl, hD, hP r⟩

theorem Keeps.trans (hP : ∀ r s u, P r s → P s u → P r u) (h : t.Keeps D P t')
    (h' : t'.Keeps D P t'') : t.Keeps D P t'' := by
  intro r hr hD
  obtain ⟨r', hr', hkey, hD', hP₁⟩ := h r hr hD
  obtain ⟨r'', hr'', hkey', hD'', hP₂⟩ := h' r' hr' hD'
  exact ⟨r'', hr'', hkey'.trans hkey, hD'', hP r r' r'' hP₁ hP₂⟩

theorem Keeps.mono {Q : ρ → ρ → Prop} (hPQ : ∀ r r', P r r' → Q r r') (h : t.Keeps D P t') :
    t.Keeps D Q t' := by
  intro r hr hD
  obtain ⟨r', hr', hkey, hD', hP⟩ := h r hr hD
  exact ⟨r', hr', hkey, hD', hPQ r r' hP⟩

theorem keeps_append (hP : ∀ r, P r r) {rs : List ρ} (h : t'.rows = t.rows ++ rs) :
    t.Keeps D P t' := by
  intro r hr hD
  refine ⟨r, ?_, rfl, hD, hP r⟩
  rw [h]
  exact mem_append_left _ hr

theorem keeps_put [DecidableEq κ] (hP : ∀ r, P r r)
    (hx : ∀ r ∈ t.rows, key r = key x → D r → D x ∧ P r x) : t.Keeps D P (t.put x) := by
  intro r hr hD
  by_cases hkey : key r = key x
  · exact ⟨x, mem_put.2 (.inr ⟨rfl, r, hr, hkey⟩), hkey.symm, hx r hr hkey hD⟩
  · exact ⟨r, mem_put.2 (.inl ⟨hr, hkey⟩), rfl, hD, hP r⟩

theorem keeps_delete (hP : ∀ r, P r r) (hp : ∀ r ∈ t.rows, D r → p r = false) :
    t.Keeps D P (t.delete p) :=
  fun r hr hD ↦ ⟨r, mem_delete.2 ⟨hr, hp r hr hD⟩, rfl, hD, hP r⟩

end Keeps

/-- Every row is there again under its key, changed as `P` says, and the rows with other keys
satisfy `N`. -/
structure Evolves (P : ρ → ρ → Prop) (N : ρ → Prop) (t t' : Table ρ key) : Prop where
  keeps : ∀ r ∈ t.rows, ∃ r' ∈ t'.rows, key r' = key r ∧ P r r'
  new : ∀ x ∈ t'.rows, (∀ r ∈ t.rows, key r ≠ key x) → N x

section Evolves

variable {P : ρ → ρ → Prop} {N : ρ → Prop} {t t' : Table ρ key}

theorem Evolves.refl (hP : ∀ r, P r r) (t : Table ρ key) : t.Evolves P N t where
  keeps r hr := ⟨r, hr, rfl, hP r⟩
  new x hx hnew := absurd rfl (hnew x hx)

theorem evolves_update (hP : ∀ r, P r r) (hx : ∀ r ∈ t.rows, p r = true → P r (f r)) :
    t.Evolves P N (t.update p f hf) where
  keeps r hr := by
    by_cases hp : p r = true
    · exact ⟨f r, mem_update.2 ⟨r, hr, if_pos hp⟩, hf r, hx r hr hp⟩
    · exact ⟨r, mem_update.2 ⟨r, hr, if_neg hp⟩, rfl, hP r⟩
  new x hx hnew := by
    obtain ⟨r, hr, hkey⟩ := exists_key_of_mem_update hx
    exact absurd hkey (hnew r hr)

theorem evolves_insert? [DecidableEq κ] (hP : ∀ r, P r r) (h : t.insert? x = some t') (hx : N x) :
    t.Evolves P N t' where
  keeps r hr := by
    refine ⟨r, ?_, rfl, hP r⟩
    rw [(insert?_eq_some_iff.1 h).2]
    exact mem_append_left _ hr
  new y hy hnew := by
    rw [(insert?_eq_some_iff.1 h).2, mem_append, mem_singleton] at hy
    rcases hy with hy | rfl
    · exact absurd rfl (hnew y hy)
    · exact hx

/-- Where a row has come from. -/
theorem Evolves.cases (h : t.Evolves P N t') (hx : x ∈ t'.rows) :
    N x ∨ ∃ r ∈ t.rows, key r = key x ∧ P r x := by
  by_cases hnew : ∀ r ∈ t.rows, key r ≠ key x
  · exact .inl (h.new x hx hnew)
  · push Not at hnew
    obtain ⟨r, hr, hkey⟩ := hnew
    obtain ⟨r', hr', hkey', hP⟩ := h.keeps r hr
    obtain rfl := eq_of_key_eq hr' hx (hkey'.trans hkey)
    exact .inr ⟨r, hr, hkey, hP⟩

theorem Evolves.mono {Q : ρ → ρ → Prop} (hPQ : ∀ r r', P r r' → Q r r') (h : t.Evolves P N t') :
    t.Evolves Q N t' where
  keeps r hr := by
    obtain ⟨r', hr', hkey, hP⟩ := h.keeps r hr
    exact ⟨r', hr', hkey, hPQ r r' hP⟩
  new := h.new

theorem Evolves.trans {P₁ P₂ : ρ → ρ → Prop} {t'' : Table ρ key}
    (hP : ∀ r s u, P₁ r s → P₂ s u → P r u) (hN : ∀ s u, N s → P₂ s u → N u) (h : t.Evolves P₁ N t')
    (h' : t'.Evolves P₂ N t'') : t.Evolves P N t'' where
  keeps r hr := by
    obtain ⟨s, hs, hkey, h₁⟩ := h.keeps r hr
    obtain ⟨u, hu, hkey', h₂⟩ := h'.keeps s hs
    exact ⟨u, hu, hkey'.trans hkey, hP r s u h₁ h₂⟩
  new u hu hnew := by
    rcases h'.cases hu with hN' | ⟨s, hs, hkey, h₂⟩
    · exact hN'
    · exact hN s u (h.new s hs fun r hr h₁ ↦ hnew r hr (h₁.trans hkey)) h₂

end Evolves

end Table

/-! ## A second unique column -/

/-- The rows of a table with primary key `key` and a `UNIQUE` column `index`. -/
structure Indexed (ρ : Type) {κ ι : Type} (key : ρ → κ) (index : ρ → ι) extends Table ρ key where
  uniqueIndex : (rows.map index).Nodup

namespace Indexed

variable {ρ κ ι : Type} {key : ρ → κ} {index : ρ → ι}

def empty : Indexed ρ key index := ⟨.empty, nodup_nil⟩

theorem eq_of_index_eq {t : Indexed ρ key index} {r r' : ρ} (hr : r ∈ t.rows) (hr' : r' ∈ t.rows)
    (h : index r = index r') : r = r' := inj_on_of_nodup_map t.uniqueIndex hr hr' h

/-- `DELETE … WHERE p` -/
def delete (t : Indexed ρ key index) (p : ρ → Bool) : Indexed ρ key index where
  toTable := t.toTable.delete p
  uniqueIndex := t.uniqueIndex.sublist (filter_sublist.map index)

theorem mem_delete {t : Indexed ρ key index} {p : ρ → Bool} {r : ρ} :
    r ∈ (t.delete p).rows ↔ r ∈ t.rows ∧ p r = false := Table.mem_delete

section Keys

variable [DecidableEq κ] [DecidableEq ι]

/-- `INSERT` -/
def insert? (t : Indexed ρ key index) (r : ρ) : Option (Indexed ρ key index) :=
  if h : index r ∈ t.rows.map index then none
  else
    match hins : t.toTable.insert? r with
    | none => none
    | some t' => some
      { t' with
        uniqueIndex := by
          rw [(Table.insert?_eq_some_iff.1 hins).2, map_append]
          refine nodup_append.2 ⟨t.uniqueIndex, nodup_singleton _, fun a ha b hb hab ↦ h ?_⟩
          rw [map_singleton, mem_singleton] at hb
          exact hb ▸ hab ▸ ha }

theorem rows_of_insert? {t t' : Indexed ρ key index} {r : ρ} (h : t.insert? r = some t') :
    (∀ r' ∈ t.rows, key r' ≠ key r ∧ index r' ≠ index r) ∧ t'.rows = t.rows ++ [r] := by
  rw [insert?] at h
  split at h
  · cases h
  next hidx =>
    split at h
    · cases h
    next t'' hins =>
      cases h
      obtain ⟨hkey, hrows⟩ := Table.insert?_eq_some_iff.1 hins
      refine ⟨fun r' hr' ↦ ⟨hkey r' hr', fun he ↦ hidx ?_⟩, hrows⟩
      exact he ▸ mem_map_of_mem hr'

/-- `UPDATE` of the row with the key of `r`, if there is one. -/
def put? (t : Indexed ρ key index) (r : ρ) : Option (Indexed ρ key index) :=
  if h : ∃ r' ∈ t.rows, key r' ≠ key r ∧ index r' = index r then none
  else some
    { t.toTable.put r with
      uniqueIndex := by
        rw [Table.put, map_map]
        refine List.Nodup.map_on (fun x hx y hy hxy ↦ ?_) (List.Nodup.of_map _ t.unique)
        rw [Function.comp_apply, Function.comp_apply] at hxy
        by_cases hkx : key x = key r
        · by_cases hky : key y = key r
          · exact t.eq_of_key_eq hx hy (hkx.trans hky.symm)
          · rw [if_pos hkx, if_neg hky] at hxy
            exact absurd ⟨y, hy, hky, hxy.symm⟩ h
        · by_cases hky : key y = key r
          · rw [if_neg hkx, if_pos hky] at hxy
            exact absurd ⟨x, hx, hkx, hxy⟩ h
          · rw [if_neg hkx, if_neg hky] at hxy
            exact t.eq_of_index_eq hx hy hxy }

theorem toTable_of_put? {t t' : Indexed ρ key index} {r : ρ} (h : t.put? r = some t') :
    t'.toTable = t.toTable.put r := by
  rw [put?] at h
  split at h
  · cases h
  · cases h; rfl

end Keys

end Indexed

/-! ## Constraints and triggers -/

/-- The rows of a table with a `CHECK` constraint, and with triggers that abort an `UPDATE` of a row
unless `allow` relates what it was to what it is to be. -/
structure Guarded (ρ : Type) {κ : Type} (key : ρ → κ) (check : ρ → Bool) (allow : ρ → ρ → Bool)
    extends Table ρ key where
  checked : ∀ r ∈ rows, check r = true

namespace Guarded

variable {ρ κ : Type} {key : ρ → κ} {check : ρ → Bool} {allow : ρ → ρ → Bool}

def empty : Guarded ρ key check allow := ⟨.empty, by simp [Table.empty]⟩

/-- `INSERT` -/
def insert? [DecidableEq κ] (t : Guarded ρ key check allow) (r : ρ) :
    Option (Guarded ρ key check allow) :=
  if hcheck : check r = true then
    match hins : t.toTable.insert? r with
    | none => none
    | some t' => some
      { t' with
        checked := by
          rw [(Table.insert?_eq_some_iff.1 hins).2]
          exact forall_mem_append.2 ⟨t.checked, forall_mem_singleton.2 hcheck⟩ }
  else none

variable {t t' : Guarded ρ key check allow} {p : ρ → Bool} {f : ρ → ρ} {hf : ∀ r, key (f r) = key r}

theorem toTable_of_insert? [DecidableEq κ] {r : ρ}
    (h : t.insert? r = some t') : t.toTable.insert? r = some t'.toTable := by
  rw [insert?] at h
  split at h
  · split at h
    · cases h
    next t'' hins =>
      cases h
      exact hins
  · cases h

theorem exists_insert? [DecidableEq κ] {r : ρ} (hcheck : check r = true)
    (hfresh : ∀ x ∈ t.rows, key x ≠ key r) : ∃ t', t.insert? r = some t' := by
  have hins : t.toTable.insert? r ≠ none := by
    rw [Table.insert?, dif_neg (by simpa using hfresh)]
    nofun
  rw [insert?, dif_pos hcheck]
  split
  next hnone => exact absurd hnone hins
  · exact ⟨_, rfl⟩

/-- `UPDATE … SET f WHERE p` -/
def update? (t : Guarded ρ key check allow) (p : ρ → Bool) (f : ρ → ρ)
    (hf : ∀ r, key (f r) = key r) : Option (Guarded ρ key check allow) :=
  if h : ∀ r ∈ t.rows, p r = true → check (f r) = true ∧ allow r (f r) = true then some
    { t.toTable.update p f hf with
      checked := by
        intro x hx
        obtain ⟨r, hr, rfl⟩ := Table.mem_update.1 hx
        by_cases hp : p r = true
        · rw [if_pos hp]
          exact (h r hr hp).1
        · rw [if_neg hp]
          exact t.checked r hr }
  else none

/-- **The triggers hold of every row that was changed.** -/
theorem update?_eq_some (h : t.update? p f hf = some t') :
    t'.toTable = t.toTable.update p f hf ∧ ∀ r ∈ t.rows, p r = true → allow r (f r) = true := by
  rw [update?] at h
  split at h
  next hall =>
    cases h
    exact ⟨rfl, fun r hr hp ↦ (hall r hr hp).2⟩
  · cases h

/-- An `UPDATE`, row by row. -/
theorem evolves_update? {P : ρ → ρ → Prop} {N : ρ → Prop} (h : t.update? p f hf = some t')
    (hsame : ∀ r ∈ t.rows, p r = false → P r r)
    (hset : ∀ r ∈ t.rows, p r = true → allow r (f r) = true → P r (f r)) :
    t.toTable.Evolves P N t'.toTable := by
  obtain ⟨hrows, hallow⟩ := update?_eq_some h
  rw [hrows]
  refine ⟨fun r hr ↦ ?_, fun x hx hnew ↦ ?_⟩
  · by_cases hp : p r = true
    · exact ⟨f r, Table.mem_update.2 ⟨r, hr, if_pos hp⟩, hf r, hset r hr hp (hallow r hr hp)⟩
    · exact ⟨r, Table.mem_update.2 ⟨r, hr, if_neg hp⟩, rfl, hsame r hr (Bool.eq_false_iff.2 hp)⟩
  · obtain ⟨r, hr, hkey⟩ := Table.exists_key_of_mem_update hx
    exact absurd hkey (hnew r hr)

end Guarded

/-! ## Transactions -/

section Transaction

variable {σ ε α : Type}

/-- `BEGIN IMMEDIATE`, the body, and `COMMIT`, or `ROLLBACK` if the body raises. -/
def transaction (body : σ → Except ε (α × σ)) (db : σ) : Except ε α × σ :=
  match body db with
  | .error e => (.error e, db)
  | .ok (a, db') => (.ok a, db')

/-- **A transaction that raises leaves the database as it was.** -/
theorem transaction_of_error {body : σ → Except ε (α × σ)} {db : σ} {e : ε}
    (h : (transaction body db).1 = .error e) : (transaction body db).2 = db := by
  unfold transaction at h ⊢
  split at h
  · rfl
  · cases h

theorem transaction_of_ok {body : σ → Except ε (α × σ)} {db : σ} {a : α}
    (h : (transaction body db).1 = .ok a) : body db = .ok (a, (transaction body db).2) := by
  unfold transaction at h ⊢
  split at h
  · cases h
  next a' db' heq =>
    cases h
    exact heq

end Transaction

end Py
