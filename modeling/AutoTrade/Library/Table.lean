import Mathlib.Data.List.Nodup
import Mathlib.Data.List.Basic
import Mathlib.Data.List.Sort

/-! # Tables with a primary key

A table is a list of rows in insertion order with pairwise distinct keys; the
distinctness travels with the value, so a table with two rows for one key
cannot be built. The same structure serves a database table with a primary key
and an insertion-ordered dictionary, which is a table of pairs keyed by the
first component. Every operation is characterised by what `find?` returns
afterwards; later developments never look at the row list again, except for the
oldest row.
-/

namespace AutoTrade.Library

structure Table (ρ : Type) {κ : Type} (key : ρ → κ) where
  rows : List ρ
  nodup : (rows.map key).Nodup

namespace Table

variable {ρ κ : Type} [DecidableEq κ] {key : ρ → κ}

instance [DecidableEq ρ] : DecidableEq (Table ρ key) := fun s t =>
  decidable_of_iff (s.rows = t.rows) ⟨fun h => by cases s; cases t; simp_all, fun h => h ▸ rfl⟩

def empty : Table ρ key := ⟨[], List.nodup_nil⟩

def size (t : Table ρ key) : Nat := t.rows.length

def find? (t : Table ρ key) (k : κ) : Option ρ := t.rows.find? fun r => decide (key r = k)

def contains (t : Table ρ key) (k : κ) : Bool := (t.find? k).isSome

def oldest? (t : Table ρ key) : Option ρ := t.rows.head?

def filter (t : Table ρ key) (p : ρ → Bool) : Table ρ key :=
  ⟨t.rows.filter p, t.nodup.sublist (List.filter_sublist.map key)⟩

def erase (t : Table ρ key) (k : κ) : Table ρ key := t.filter fun r => decide (key r ≠ k)

omit [DecidableEq κ] in
theorem nodup_append_row {rows : List ρ} {r : ρ} (h : (rows.map key).Nodup)
    (fresh : ∀ x ∈ rows, key x ≠ key r) : ((rows ++ [r]).map key).Nodup := by
  rw [List.map_append, List.nodup_append]
  refine ⟨h, by simp, ?_⟩
  intro a ha b hb
  obtain ⟨x, hx, rfl⟩ := List.mem_map.mp ha
  obtain rfl : b = key r := by simpa using hb
  exact fresh x hx

/-- The row of the same key is deleted and the new row goes to the end:
`INSERT OR REPLACE`. -/
def replace (t : Table ρ key) (r : ρ) : Table ρ key :=
  ⟨(t.erase (key r)).rows ++ [r], nodup_append_row (t.erase (key r)).nodup fun x hx => by
    simpa [erase, filter] using (List.mem_filter.mp hx).2⟩

/-- Rewrite the row of key `k` where it stands: `UPDATE ... WHERE key = k`. -/
def update (t : Table ρ key) (k : κ) (f : ρ → ρ) (hf : ∀ r, key (f r) = key r) : Table ρ key :=
  ⟨t.rows.map fun r => if key r = k then f r else r, by
    have hkeys : (t.rows.map fun r => if key r = k then f r else r).map key = t.rows.map key := by
      rw [List.map_map]
      refine List.map_congr_left fun r _ => ?_
      by_cases h : key r = k <;> simp [h, hf]
    rw [hkeys]
    exact t.nodup⟩

/-- Rewrite the rows of a selection where they stand: `UPDATE ... WHERE p`. -/
def updateWhere (t : Table ρ key) (p : ρ → Bool) (f : ρ → ρ) (hf : ∀ r, key (f r) = key r) :
    Table ρ key :=
  ⟨t.rows.map fun r => if p r then f r else r, by
    have hkeys : (t.rows.map fun r => if p r then f r else r).map key = t.rows.map key := by
      rw [List.map_map]
      refine List.map_congr_left fun r _ => ?_
      by_cases h : p r <;> simp [h, hf]
    rw [hkeys]
    exact t.nodup⟩

/-- Rewrite every row where it stands. -/
def mapRows (t : Table ρ key) (f : ρ → ρ) (hf : ∀ r, key (f r) = key r) : Table ρ key :=
  ⟨t.rows.map f, by
    rw [List.map_map]
    exact (List.map_congr_left fun r _ => hf r) ▸ t.nodup⟩

/-- The same rows in another order. -/
def sortRows (t : Table ρ key) (le : ρ → ρ → Prop) [DecidableRel le] : Table ρ key :=
  ⟨t.rows.insertionSort le, ((List.perm_insertionSort le t.rows).map key).nodup_iff.mpr t.nodup⟩

/-- Overwrite the row of the same key where it stands, or append the row:
assignment to an insertion-ordered dictionary. -/
def upsert (t : Table ρ key) (r : ρ) : Table ρ key :=
  if h : ∃ x ∈ t.rows, key x = key r then
    ⟨t.rows.map fun x => if key x = key r then r else x, by
      have hkeys : (t.rows.map fun x => if key x = key r then r else x).map key =
          t.rows.map key := by
        rw [List.map_map]
        refine List.map_congr_left fun x _ => ?_
        by_cases hx : key x = key r <;> simp [hx]
      rw [hkeys]
      exact t.nodup⟩
  else ⟨t.rows ++ [r], nodup_append_row t.nodup fun x hx hk => h ⟨x, hx, hk⟩⟩

/-- The row is appended unless there is one of its key: `INSERT OR IGNORE`. -/
def insertOrIgnore (t : Table ρ key) (r : ρ) : Table ρ key :=
  if h : ∃ x ∈ t.rows, key x = key r then t
  else ⟨t.rows ++ [r], nodup_append_row t.nodup fun x hx hk => h ⟨x, hx, hk⟩⟩

theorem insertOrIgnore_of_mem {t : Table ρ key} {r : ρ} (h : ∃ x ∈ t.rows, key x = key r) :
    t.insertOrIgnore r = t := dif_pos h

theorem rows_insertOrIgnore_of_fresh {t : Table ρ key} {r : ρ}
    (h : ∀ x ∈ t.rows, key x ≠ key r) : (t.insertOrIgnore r).rows = t.rows ++ [r] := by
  unfold insertOrIgnore
  rw [dif_neg fun hmem => by
    obtain ⟨x, hx, hkey⟩ := hmem
    exact h x hx hkey]

/-! ## Lookup -/

theorem find?_of_mem {t : Table ρ key} {r : ρ} (hr : r ∈ t.rows) : t.find? (key r) = some r := by
  cases hf : t.find? (key r) with
  | none =>
      have hall := List.find?_eq_none.mp hf r hr
      simp at hall
  | some x =>
      have hx := List.mem_of_find?_eq_some hf
      have hxk : key x = key r := by simpa using List.find?_some hf
      rw [List.inj_on_of_nodup_map t.nodup hx hr hxk]

theorem find?_eq_some_iff (t : Table ρ key) (k : κ) (r : ρ) :
    t.find? k = some r ↔ r ∈ t.rows ∧ key r = k := by
  constructor
  · intro h
    exact ⟨List.mem_of_find?_eq_some h, by simpa using List.find?_some h⟩
  · intro h
    rw [← h.2]
    exact find?_of_mem h.1

/-- Two tables with the same rows of a key have the same row at that key. -/
theorem find?_congr {s t : Table ρ key} {k : κ}
    (h : ∀ r, key r = k → (r ∈ s.rows ↔ r ∈ t.rows)) : s.find? k = t.find? k := by
  ext r
  rw [find?_eq_some_iff, find?_eq_some_iff]
  constructor
  · intro hr
    exact ⟨(h r hr.2).mp hr.1, hr.2⟩
  · intro hr
    exact ⟨(h r hr.2).mpr hr.1, hr.2⟩

theorem find?_key {t : Table ρ key} {k : κ} {r : ρ} (h : t.find? k = some r) : key r = k :=
  ((t.find?_eq_some_iff k r).mp h).2

theorem find?_eq_none_iff (t : Table ρ key) (k : κ) :
    t.find? k = none ↔ ∀ r ∈ t.rows, key r ≠ k := by
  simp [find?, List.find?_eq_none]

@[simp] theorem find?_empty (k : κ) : (empty : Table ρ key).find? k = none := rfl

theorem find?_filter (t : Table ρ key) (p : ρ → Bool) (k : κ) :
    (t.filter p).find? k = (t.find? k).filter p := by
  ext r
  simp only [Option.filter_eq_some_iff, find?_eq_some_iff, filter, List.mem_filter]
  tauto

theorem find?_erase (t : Table ρ key) (k j : κ) :
    (t.erase k).find? j = if j = k then none else t.find? j := by
  unfold erase
  rw [find?_filter]
  cases hj : t.find? j with
  | none => simp
  | some r =>
      have hr := find?_key hj
      by_cases h : j = k <;> simp [hr, h]

theorem find?_replace (t : Table ρ key) (r : ρ) (j : κ) :
    (t.replace r).find? j = if j = key r then some r else t.find? j := by
  by_cases h : j = key r
  · subst h
    rw [if_pos rfl]
    exact find?_of_mem (List.mem_append_right _ (List.mem_singleton_self r))
  · rw [if_neg h]
    apply find?_congr
    intro x hx
    have hne : key x ≠ key r := fun hk => h (hx.symm.trans hk)
    have hxr : x ≠ r := fun hxr => hne (congrArg key hxr)
    simp [replace, erase, filter, hne, hxr]

/-- Rewriting rows of one key leaves the others where they are. -/
theorem mem_map_ite_of_ne {rows : List ρ} {f : ρ → ρ} {k : κ}
    (hf : ∀ r, key r = k → key (f r) = k) {x : ρ} (hx : key x ≠ k) :
    (x ∈ rows.map fun r => if key r = k then f r else r) ↔ x ∈ rows := by
  rw [List.mem_map]
  constructor
  · intro h
    obtain ⟨r, hr, hrx⟩ := h
    by_cases hrk : key r = k
    · rw [if_pos hrk] at hrx
      exact absurd (hrx ▸ hf r hrk) hx
    · rw [if_neg hrk] at hrx
      exact hrx ▸ hr
  · intro hmem
    exact ⟨x, hmem, if_neg hx⟩

theorem find?_update (t : Table ρ key) (k : κ) (f : ρ → ρ) (hf : ∀ r, key (f r) = key r) (j : κ) :
    (t.update k f hf).find? j = if j = k then (t.find? j).map f else t.find? j := by
  by_cases h : j = k
  · subst h
    rw [if_pos rfl]
    cases hfind : t.find? j with
    | none =>
        have hnone := (t.find?_eq_none_iff j).mp hfind
        refine (find?_eq_none_iff _ j).mpr fun x hx => ?_
        obtain ⟨r, hr, hrx⟩ := List.mem_map.mp hx
        rw [if_neg (hnone r hr)] at hrx
        exact hrx ▸ hnone r hr
    | some r =>
        obtain ⟨hr, hrj⟩ := (t.find?_eq_some_iff j r).mp hfind
        exact (find?_eq_some_iff _ j _).mpr
          ⟨List.mem_map.mpr ⟨r, hr, if_pos hrj⟩, (hf r).trans hrj⟩
  · rw [if_neg h]
    apply find?_congr
    intro x hx
    exact mem_map_ite_of_ne (fun r hr => (hf r).trans hr) (hx ▸ h)

theorem find?_mapRows (t : Table ρ key) (f : ρ → ρ) (hf : ∀ r, key (f r) = key r) (k : κ) :
    (t.mapRows f hf).find? k = (t.find? k).map f := by
  unfold find? mapRows
  rw [List.find?_map]
  simp only [Function.comp_def, hf]

@[simp] theorem find?_sortRows (t : Table ρ key) (le : ρ → ρ → Prop) [DecidableRel le] (k : κ) :
    (t.sortRows le).find? k = t.find? k :=
  find?_congr fun _ _ => List.mem_insertionSort le

theorem find?_insertOrIgnore_of_some {t : Table ρ key} {r s : ρ} {k : κ} (h : t.find? k = some s) :
    (t.insertOrIgnore r).find? k = some s := by
  unfold insertOrIgnore
  split
  · exact h
  · obtain ⟨hs, hk⟩ := (t.find?_eq_some_iff k s).mp h
    exact (find?_eq_some_iff _ k s).mpr ⟨List.mem_append_left _ hs, hk⟩

theorem find?_upsert (t : Table ρ key) (r : ρ) (j : κ) :
    (t.upsert r).find? j = if j = key r then some r else t.find? j := by
  by_cases hex : ∃ x ∈ t.rows, key x = key r
  · have hrows : (t.upsert r).rows = t.rows.map fun x => if key x = key r then r else x := by
      rw [upsert, dif_pos hex]
    by_cases h : j = key r
    · subst h
      obtain ⟨y, hy, hyr⟩ := hex
      rw [if_pos rfl]
      apply find?_of_mem
      rw [hrows]
      exact List.mem_map.mpr ⟨y, hy, if_pos hyr⟩
    · rw [if_neg h]
      apply find?_congr
      intro x hx
      rw [hrows]
      exact mem_map_ite_of_ne (fun _ _ => rfl) (hx ▸ h)
  · have hrows : (t.upsert r).rows = t.rows ++ [r] := by
      rw [upsert, dif_neg hex]
    by_cases h : j = key r
    · subst h
      rw [if_pos rfl]
      apply find?_of_mem
      rw [hrows]
      exact List.mem_append_right _ (List.mem_singleton_self r)
    · rw [if_neg h]
      apply find?_congr
      intro x hx
      have hxr : x ≠ r := fun hxr => h (hx ▸ congrArg key hxr)
      rw [hrows]
      simp [hxr]

theorem rows_ne_nil_of_find? {t : Table ρ key} {k : κ} {r : ρ} (h : t.find? k = some r) :
    t.rows ≠ [] :=
  List.ne_nil_of_mem ((t.find?_eq_some_iff k r).mp h).1

theorem rows_upsert_ne_nil (t : Table ρ key) (r : ρ) : (t.upsert r).rows ≠ [] :=
  rows_ne_nil_of_find? ((t.find?_upsert r (key r)).trans (if_pos rfl))

theorem rows_upsert_of_fresh {t : Table ρ key} {r : ρ} (h : ∀ x ∈ t.rows, key x ≠ key r) :
    (t.upsert r).rows = t.rows ++ [r] := by
  rw [upsert, dif_neg fun hex => by
    obtain ⟨x, hx, hk⟩ := hex
    exact h x hx hk]

/-- Assigning twice to one key is assigning once. -/
theorem upsert_upsert (t : Table ρ key) {r r' : ρ} (h : key r = key r') :
    (t.upsert r).upsert r' = t.upsert r' := by
  have hagain : ∃ x ∈ (t.upsert r).rows, key x = key r' :=
    ⟨r, (find?_eq_some_iff _ _ _).mp ((t.find?_upsert r (key r')).trans (if_pos h.symm))⟩
  have hrows : ((t.upsert r).upsert r').rows = (t.upsert r').rows := by
    rw [upsert, dif_pos hagain]
    unfold upsert
    by_cases hex : ∃ x ∈ t.rows, key x = key r
    · rw [dif_pos hex, dif_pos (h ▸ hex)]
      simp only [List.map_map]
      refine List.map_congr_left fun x _ => ?_
      by_cases hx : key x = key r' <;> simp [h, hx]
    · rw [dif_neg hex, dif_neg (h ▸ hex)]
      have hold : (t.rows.map fun x => if key x = key r' then r' else x) = t.rows := by
        refine (List.map_congr_left fun x hx => ?_).trans (List.map_id _)
        exact if_neg fun hk => hex ⟨x, hx, hk.trans h.symm⟩
      simp [hold, h]
  exact (mk.injEq ..).mpr hrows

/-- `LIMIT`; a negative one is none. -/
def limited {α : Type} (limit : Int) (rows : List α) : List α :=
  if limit < 0 then rows else rows.take limit.toNat

/-! ## Rows related key by key -/

/-- The rows at each key are related by `P`; no key comes and none goes. -/
def Kept (P : ρ → ρ → Prop) (t t' : Table ρ key) : Prop :=
  ∀ k, Option.Rel P (t.find? k) (t'.find? k)

section Kept

variable {P : ρ → ρ → Prop}

theorem Kept.refl (hrefl : ∀ r, P r r) (t : Table ρ key) : Kept P t t := by
  intro k
  cases t.find? k with
  | none => exact .none
  | some r => exact .some (hrefl r)

theorem Kept.trans (htrans : ∀ a b c, P a b → P b c → P a c) {t₁ t₂ t₃ : Table ρ key}
    (h₁ : Kept P t₁ t₂) (h₂ : Kept P t₂ t₃) : Kept P t₁ t₃ := by
  intro k
  have hfirst := h₁ k
  have hsecond := h₂ k
  generalize t₁.find? k = r₁ at *
  generalize t₂.find? k = r₂ at *
  generalize t₃.find? k = r₃ at *
  cases hfirst with
  | none => exact hsecond
  | some hab =>
      cases hsecond with
      | some hbc => exact .some (htrans _ _ _ hab hbc)

theorem Kept.mono {Q : ρ → ρ → Prop} (h : ∀ r r', P r r' → Q r r') {t t' : Table ρ key}
    (hkept : Kept P t t') : Kept Q t t' := by
  intro k
  have hrel := hkept k
  generalize t.find? k = r at *
  generalize t'.find? k = r' at *
  cases hrel with
  | none => exact .none
  | some hP => exact .some (h _ _ hP)

theorem Kept.row_after {t t' : Table ρ key} (h : Kept P t t') {r : ρ} (hr : r ∈ t.rows) :
    ∃ r' ∈ t'.rows, P r r' ∧ key r' = key r := by
  have hrel := h (key r)
  rw [find?_of_mem hr] at hrel
  generalize hfind : t'.find? (key r) = found at hrel
  cases hrel with
  | some hP =>
      obtain ⟨hmem, hkey⟩ := (find?_eq_some_iff _ _ _).mp hfind
      exact ⟨_, hmem, hP, hkey⟩

theorem Kept.row_before {t t' : Table ρ key} (h : Kept P t t') {r' : ρ} (hr' : r' ∈ t'.rows) :
    ∃ r ∈ t.rows, P r r' ∧ key r' = key r := by
  have hrel := h (key r')
  rw [find?_of_mem hr'] at hrel
  generalize hfind : t.find? (key r') = found at hrel
  cases hrel with
  | some hP =>
      obtain ⟨hmem, hkey⟩ := (find?_eq_some_iff _ _ _).mp hfind
      exact ⟨_, hmem, hP, hkey.symm⟩

/-- It is enough to relate the rows that are there, where no key comes. -/
theorem kept_of_rows {t t' : Table ρ key} (hkeys : Kept (fun _ _ => True) t t')
    (h : ∀ k r, t.find? k = some r → ∃ r', t'.find? k = some r' ∧ P r r') : Kept P t t' := by
  intro k
  have hrel := hkeys k
  cases hr : t.find? k with
  | none =>
      rw [hr] at hrel
      generalize t'.find? k = found at *
      cases hrel
      exact .none
  | some r =>
      obtain ⟨r', hr', hP⟩ := h k r hr
      rw [hr']
      exact .some hP

theorem kept_update (hrefl : ∀ r, P r r) (t : Table ρ key) (k : κ) {f : ρ → ρ}
    (hkey : ∀ r, key (f r) = key r) (hf : ∀ r, t.find? k = some r → P r (f r)) :
    Kept P t (t.update k f hkey) := by
  intro j
  rw [find?_update]
  cases hj : t.find? j with
  | none =>
      split
      · exact .none
      · exact .none
  | some r =>
      split
      · rename_i hjk
        exact .some (hf r (hjk ▸ hj))
      · exact .some (hrefl r)

end Kept

/-! ## The oldest row -/

/-- Assignment never moves an existing key to the front. -/
theorem oldest?_upsert_key (t : Table ρ key) (r : ρ) :
    (t.upsert r).oldest?.map key = some ((t.oldest?.map key).getD (key r)) := by
  obtain ⟨rows, hnodup⟩ := t
  unfold upsert
  cases rows with
  | nil => simp [oldest?]
  | cons x rest =>
      split
      · by_cases hx : key x = key r <;> simp [oldest?, hx]
      · simp [oldest?]

theorem size_upsert_of_find?_none {t : Table ρ key} {r : ρ} (h : t.find? (key r) = none) :
    (t.upsert r).size = t.size + 1 := by
  have hno : ¬ ∃ x ∈ t.rows, key x = key r := fun hex => by
    obtain ⟨x, hx, hk⟩ := hex
    exact (t.find?_eq_none_iff (key r)).mp h x hx hk
  simp [upsert, hno, size]

omit [DecidableEq κ] in
theorem oldest?_eq_none_iff (t : Table ρ key) : t.oldest? = none ↔ t.size = 0 := by
  simp [oldest?, size]

end Table

/-! ## Dictionaries -/

/-- An insertion-ordered dictionary. -/
abbrev Dict (κ ν : Type) := Table (κ × ν) (Prod.fst : κ × ν → κ)

namespace Dict

variable {κ ν : Type} [DecidableEq κ]

def get? (d : Dict κ ν) (k : κ) : Option ν := (d.find? k).map Prod.snd

def set (d : Dict κ ν) (k : κ) (v : ν) : Dict κ ν := d.upsert (k, v)

theorem contains_iff_get? (d : Dict κ ν) (k : κ) : d.contains k = (d.get? k).isSome := by
  simp [Table.contains, get?]

theorem get?_eq_some_iff (d : Dict κ ν) (k : κ) (v : ν) : d.get? k = some v ↔ (k, v) ∈ d.rows := by
  simp only [get?, Option.map_eq_some_iff, Table.find?_eq_some_iff, Prod.exists]
  constructor
  · intro h
    obtain ⟨a, b, ⟨hmem, hk⟩, hv⟩ := h
    subst hk
    subst hv
    exact hmem
  · intro hmem
    exact ⟨k, v, ⟨hmem, rfl⟩, rfl⟩

theorem get?_set (d : Dict κ ν) (k j : κ) (v : ν) :
    (d.set k v).get? j = if j = k then some v else d.get? j := by
  unfold get? set
  rw [Table.find?_upsert]
  by_cases h : j = k <;> simp [h]

@[simp] theorem get?_set_self (d : Dict κ ν) (k : κ) (v : ν) : (d.set k v).get? k = some v := by
  simp [get?_set]

theorem get?_set_of_ne (d : Dict κ ν) {k j : κ} (v : ν) (h : j ≠ k) :
    (d.set k v).get? j = d.get? j := by
  simp [get?_set, h]

@[simp] theorem set_set (d : Dict κ ν) (k : κ) (v w : ν) : (d.set k v).set k w = d.set k w :=
  Table.upsert_upsert d rfl

theorem get?_erase (d : Dict κ ν) (k j : κ) :
    get? (d.erase k) j = if j = k then none else d.get? j := by
  unfold get?
  rw [Table.find?_erase]
  by_cases h : j = k <;> simp [h]

theorem get?_eq_none_iff (d : Dict κ ν) (k : κ) : d.get? k = none ↔ ∀ e ∈ d.rows, e.1 ≠ k := by
  simp only [get?, Option.map_eq_none_iff, Table.find?_eq_none_iff]

theorem mem_rows_erase (d : Dict κ ν) (k : κ) (e : κ × ν) :
    e ∈ (d.erase k).rows ↔ e ∈ d.rows ∧ e.1 ≠ k := by
  simp [Table.erase, Table.filter]

theorem rows_erase_of_get?_none {d : Dict κ ν} {k : κ} (h : d.get? k = none) :
    (d.erase k).rows = d.rows := by
  refine List.filter_eq_self.mpr fun e he => ?_
  simpa using (d.get?_eq_none_iff k).mp h e he

/-- A dictionary that has `v` at `k` and agrees with `d` elsewhere, up to the order of the entries. -/
theorem rows_perm_cons_erase {d d' : Dict κ ν} {k : κ} {v : ν} (h : d'.get? k = some v)
    (hsame : ∀ j, j ≠ k → d'.get? j = d.get? j) : d'.rows.Perm ((k, v) :: (d.erase k).rows) := by
  have hleft : d'.rows.Nodup := List.Nodup.of_map _ d'.nodup
  have hright : ((k, v) :: (d.erase k).rows).Nodup := by
    refine List.nodup_cons.mpr ⟨?_, List.Nodup.of_map _ (d.erase k).nodup⟩
    intro hmem
    exact ((d.mem_rows_erase k (k, v)).mp hmem).2 rfl
  rw [List.perm_ext_iff_of_nodup hleft hright]
  intro e
  obtain ⟨j, w⟩ := e
  rw [← get?_eq_some_iff, List.mem_cons, mem_rows_erase, ← get?_eq_some_iff]
  by_cases hk : j = k
  · subst hk
    simp [h, eq_comm]
  · simp [hsame j hk, hk]

/-- Assignment up to the order of the entries. -/
theorem rows_set_perm (d : Dict κ ν) (k : κ) (v : ν) :
    (d.set k v).rows.Perm ((k, v) :: (d.erase k).rows) :=
  rows_perm_cons_erase (d.get?_set_self k v) fun _ h => d.get?_set_of_ne v h

/-- New entries with distinct keys line up behind the old ones. -/
theorem rows_foldl_set (entries : List (κ × ν)) (d : Dict κ ν)
    (h : ((d.rows ++ entries).map Prod.fst).Nodup) :
    (entries.foldl (fun d e => d.set e.1 e.2) d).rows = d.rows ++ entries := by
  induction entries generalizing d with
  | nil => exact (List.append_nil _).symm
  | cons e rest ih =>
      have hfresh : ∀ x ∈ d.rows, x.1 ≠ e.1 := by
        intro x hx heq
        rw [List.map_append, List.nodup_append] at h
        exact h.2.2 x.1 (List.mem_map_of_mem hx) e.1 (by simp) heq
      have hset : (d.set e.1 e.2).rows = d.rows ++ [e] := Table.rows_upsert_of_fresh hfresh
      have hrest : (((d.set e.1 e.2).rows ++ rest).map Prod.fst).Nodup := by
        rw [hset, List.append_assoc]
        exact h
      rw [List.foldl_cons, ih _ hrest, hset, List.append_assoc]
      rfl

theorem get?_filter (d : Dict κ ν) (p : κ × ν → Bool) (k : κ) :
    get? (d.filter p) k = (d.get? k).filter fun v => p (k, v) := by
  unfold get?
  rw [Table.find?_filter]
  cases h : d.find? k with
  | none => rfl
  | some e =>
      obtain rfl : e.1 = k := Table.find?_key h
      by_cases hp : p e = true <;> simp [Option.filter, hp]

def mapValues {ω : Type} (d : Dict κ ν) (f : ν → ω) : Dict κ ω :=
  ⟨d.rows.map fun e => (e.1, f e.2), by
    rw [List.map_map]
    exact d.nodup⟩

omit [DecidableEq κ] in
theorem mapValues_congr {ω : Type} {d : Dict κ ν} {f g : ν → ω}
    (h : ∀ e ∈ d.rows, f e.2 = g e.2) : d.mapValues f = d.mapValues g := by
  unfold mapValues
  congr 1
  exact List.map_congr_left fun e he => by rw [h e he]

omit [DecidableEq κ] in
theorem mapValues_id (d : Dict κ ν) : d.mapValues (fun v => v) = d := by
  unfold mapValues
  congr 1
  exact List.map_id d.rows

omit [DecidableEq κ] in
theorem mapValues_mapValues {ω χ : Type} (d : Dict κ ν) (f : ν → ω) (g : ω → χ) :
    (d.mapValues f).mapValues g = d.mapValues fun v => g (f v) := by
  unfold mapValues
  congr 1
  exact List.map_map

theorem get?_mapValues {ω : Type} (d : Dict κ ν) (f : ν → ω) (k : κ) :
    (d.mapValues f).get? k = (d.get? k).map f := by
  unfold get? Table.find? mapValues
  rw [List.find?_map, Option.map_map, Option.map_map]
  rfl

theorem mem_rows_set {d : Dict κ ν} {k : κ} {v : ν} {e : κ × ν} (h : e ∈ (d.set k v).rows) :
    e = (k, v) ∨ e ∈ d.rows := by
  have hget := (get?_eq_some_iff (d.set k v) e.1 e.2).mpr h
  rw [get?_set] at hget
  by_cases hkey : e.1 = k
  · rw [if_pos hkey] at hget
    exact .inl (Prod.ext hkey (Option.some.inj hget).symm)
  · rw [if_neg hkey] at hget
    exact .inr ((get?_eq_some_iff d e.1 e.2).mp hget)

/-- The dictionary made by assigning, for each row of a table in turn, what the row yields. -/
def ofTable {ρ : Type} {key : ρ → κ} (t : Table ρ key) (f : ρ → Option ν) : Dict κ ν :=
  ⟨t.rows.filterMap fun r => (f r).map (key r, ·), by
    have hsub : ((t.rows.filterMap fun r => (f r).map (key r, ·)).map Prod.fst).Sublist
        (t.rows.map key) := by
      induction t.rows with
      | nil => exact .slnil
      | cons r rest ih =>
          cases hf : f r with
          | none => simpa [hf] using ih.cons (key r)
          | some v => simpa [hf] using ih.cons_cons (key r)
    exact hsub.nodup t.nodup⟩

theorem get?_ofTable {ρ : Type} {key : ρ → κ} (t : Table ρ key) (f : ρ → Option ν) (k : κ) :
    (ofTable t f).get? k = (t.find? k).bind f := by
  ext v
  simp only [get?_eq_some_iff, ofTable, List.mem_filterMap, Option.map_eq_some_iff, Prod.mk.injEq,
    Option.bind_eq_some_iff, Table.find?_eq_some_iff]
  constructor
  · intro ⟨r, hr, v', hv, hk, hv'⟩
    exact ⟨r, ⟨hr, hk⟩, hv'.symm ▸ hv⟩
  · intro ⟨r, ⟨hr, hk⟩, hv⟩
    exact ⟨r, hr, v, hv, hk, rfl⟩

end Dict

end AutoTrade.Library
