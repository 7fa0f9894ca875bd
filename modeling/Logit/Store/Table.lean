import Mathlib.Data.List.Nodup
import Mathlib.Data.List.Perm.Basic
import Mathlib.Data.List.Sort

/-!
# Tables with a primary key

A table is a list of rows of which no two have the same key. Rows are inserted under new
keys and changed under the key they have, so a key stands for one row through all changes.

## Main definitions

* `Table` — rows with different keys
* `Table.find?` — the row of a key
* `Table.insert?` — the table with more rows, unless a key is taken
* `Table.update` — the table with the row of a key changed
* `Table.Continues` — each row of a table has one like it in another

## Main results

* `Table.find?_eq_some_iff` — the row that is found is the row of the key
* `Table.mem_update` — the rows of a table in which one has been changed
* `Table.exists_key_ne` — of two rows with a property, one has another key than a given one
* `existsUnique_sorted` — rows with different values can be read in one order only
-/

namespace Logit.Store

variable {κ ρ : Type*} {key : ρ → κ}

/-- Rows with different keys. -/
structure Table {κ ρ : Type*} (key : ρ → κ) where
  rows : List ρ
  nodup : (rows.map key).Nodup

namespace Table

/-- The table without rows. -/
def empty (key : ρ → κ) : Table key := ⟨[], List.nodup_nil⟩

/-- Rows with the same key are the same. -/
theorem eq_of_key {t : Table key} {r r' : ρ} (hr : r ∈ t.rows) (hr' : r' ∈ t.rows)
    (h : key r = key r') : r = r' :=
  List.inj_on_of_nodup_map t.nodup hr hr' h

variable [DecidableEq κ]

/-- The row of a key. -/
def find? (t : Table key) (k : κ) : Option ρ := t.rows.find? fun r => key r = k

/-- The table with more rows; nothing if two rows would have the same key. -/
def insert? (t : Table key) (new : List ρ) : Option (Table key) :=
  if h : ((t.rows ++ new).map key).Nodup then some ⟨t.rows ++ new, h⟩ else none

/-- A row, changed if it has the key. -/
def changeAt (key : ρ → κ) (k : κ) (change : ρ → ρ) (r : ρ) : ρ :=
  if key r = k then change r else r

theorem key_changeAt {change : ρ → ρ} (hkey : ∀ r, key (change r) = key r) (k : κ) (r : ρ) :
    key (changeAt key k change r) = key r := by
  unfold changeAt
  split_ifs
  · exact hkey r
  · rfl

/-- The table with the row of a key changed; the change leaves the key. -/
def update (t : Table key) (k : κ) (change : ρ → ρ) (hkey : ∀ r, key (change r) = key r) :
    Table key where
  rows := t.rows.map (changeAt key k change)
  nodup := by
    have hkeys : (t.rows.map (changeAt key k change)).map key = t.rows.map key := by
      rw [List.map_map]
      exact List.map_congr_left fun r _ => key_changeAt hkey k r
    rw [hkeys]
    exact t.nodup

/-- Each row of a table has one like it in another. -/
def Continues (like : ρ → ρ → Prop) (t t' : Table key) : Prop :=
  ∀ r ∈ t.rows, ∃ r' ∈ t'.rows, like r r'

variable {t t' : Table key} {k : κ} {r r' : ρ} {change : ρ → ρ}

theorem find?_eq_none_iff : t.find? k = none ↔ ∀ r ∈ t.rows, key r ≠ k := by
  simp [find?]

theorem of_find?_eq_some (h : t.find? k = some r) : r ∈ t.rows ∧ key r = k := by
  have hkey := List.find?_some h
  exact ⟨List.mem_of_find?_eq_some h, by simpa using hkey⟩

theorem find?_eq_some_iff : t.find? k = some r ↔ r ∈ t.rows ∧ key r = k := by
  constructor
  · exact of_find?_eq_some
  · rintro ⟨hr, rfl⟩
    cases hfound : t.find? (key r) with
    | none => exact absurd rfl (find?_eq_none_iff.mp hfound r hr)
    | some found =>
      obtain ⟨hmem, hsame⟩ := of_find?_eq_some hfound
      rw [eq_of_key hmem hr hsame]

theorem insert?_eq_some {new : List ρ} (h : t.insert? new = some t') :
    t'.rows = t.rows ++ new := by
  unfold insert? at h
  split_ifs at h
  cases h
  rfl

/-- New rows have new keys. -/
theorem key_ne_of_insert? {new : List ρ} (h : t.insert? new = some t') (hr : r ∈ t.rows)
    (hr' : r' ∈ new) : key r ≠ key r' := by
  have hnodup := t'.nodup
  rw [insert?_eq_some h, List.map_append, List.nodup_append] at hnodup
  exact hnodup.2.2 _ (List.mem_map_of_mem hr) _ (List.mem_map_of_mem hr')

/-- The rows of a table in which the row of a key has been changed. -/
theorem mem_update (hkey : ∀ r, key (change r) = key r) :
    r ∈ (t.update k change hkey).rows ↔
      (∃ old ∈ t.rows, key old = k ∧ change old = r) ∨ r ∈ t.rows ∧ key r ≠ k := by
  simp only [update, List.mem_map, changeAt]
  constructor
  · rintro ⟨old, hold, rfl⟩
    split_ifs with h
    · exact .inl ⟨old, hold, h, rfl⟩
    · exact .inr ⟨hold, h⟩
  · rintro (⟨old, hold, hk, rfl⟩ | ⟨hr, hk⟩)
    · exact ⟨old, hold, if_pos hk⟩
    · exact ⟨r, hr, if_neg hk⟩

theorem find?_update (t : Table key) (k k' : κ) (change : ρ → ρ)
    (hkey : ∀ r, key (change r) = key r) : (t.update k change hkey).find? k' =
      if k' = k then (t.find? k').map change else t.find? k' := by
  cases hfound : t.find? k' with
  | none =>
    rw [find?_eq_none_iff] at hfound
    rw [Option.map_none, ite_self, find?_eq_none_iff]
    intro r hr
    rcases (mem_update hkey).mp hr with ⟨old, hold, -, rfl⟩ | ⟨hr, -⟩
    · rw [hkey]
      exact hfound old hold
    · exact hfound r hr
  | some r =>
    obtain ⟨hr, rfl⟩ := find?_eq_some_iff.mp hfound
    split_ifs with h
    · rw [Option.map_some, find?_eq_some_iff]
      exact ⟨(mem_update hkey).mpr (.inl ⟨r, hr, h, rfl⟩), hkey r⟩
    · rw [find?_eq_some_iff]
      exact ⟨(mem_update hkey).mpr (.inr ⟨hr, h⟩), rfl⟩

/-- New rows without a property leave those with it. -/
theorem filter_insert? {new : List ρ} {p : ρ → Bool} (h : t.insert? new = some t')
    (hnew : ∀ r ∈ new, ¬ p r = true) : t'.rows.filter p = t.rows.filter p := by
  rw [insert?_eq_some h, List.filter_append, List.filter_eq_nil_iff.mpr hnew, List.append_nil]

/-- A change of a row that neither had a property nor has it now leaves those with it. -/
theorem filter_update {p : ρ → Bool} (hkey : ∀ r, key (change r) = key r)
    (hold : ∀ r ∈ t.rows, key r = k → ¬ p r = true)
    (hnew : ∀ r ∈ t.rows, key r = k → ¬ p (change r) = true) :
    (t.update k change hkey).rows.filter p = t.rows.filter p := by
  have hp : ∀ r ∈ t.rows, (p ∘ changeAt key k change) r = p r := by
    intro r hr
    unfold Function.comp changeAt
    split_ifs with h
    · rw [Bool.eq_false_iff.mpr (hold r hr h), Bool.eq_false_iff.mpr (hnew r hr h)]
    · rfl
  have hsame : ∀ r ∈ t.rows.filter p, changeAt key k change r = r := by
    intro r hr
    obtain ⟨hmem, hpr⟩ := List.mem_filter.mp hr
    exact if_neg fun h => hold r hmem h hpr
  rw [update, List.filter_map, List.filter_congr hp, List.map_congr_left hsame, List.map_id']

/-- Of several rows with a property, one has another key than a given one. -/
theorem exists_key_ne {p : ρ → Bool} (h : 1 < (t.rows.filter p).length) (k : κ) :
    ∃ r ∈ t.rows, p r = true ∧ key r ≠ k := by
  by_contra hnone
  push Not at hnone
  have hnodup : ((t.rows.filter p).map key).Nodup := t.nodup.sublist (List.filter_sublist.map key)
  have hall : ∀ k' ∈ (t.rows.filter p).map key, k' = k := by
    intro k' hk'
    obtain ⟨r, hr, rfl⟩ := List.mem_map.mp hk'
    obtain ⟨hmem, hp⟩ := List.mem_filter.mp hr
    exact hnone r hmem hp
  have hshort := List.nodup_iff_count_le_one.mp hnodup k
  rw [List.eq_replicate_of_mem hall, List.count_replicate_self, List.length_map] at hshort
  omega

/-! ## Tables that continue others -/

namespace Continues

variable {like : ρ → ρ → Prop} {t'' : Table key}

omit [DecidableEq κ] in
theorem refl (hrefl : ∀ r, like r r) (t : Table key) : t.Continues like t :=
  fun r hr => ⟨r, hr, hrefl r⟩

omit [DecidableEq κ] in
theorem trans (htrans : ∀ r r' r'', like r r' → like r' r'' → like r r'')
    (h : t.Continues like t') (h' : t'.Continues like t'') : t.Continues like t'' := by
  intro r hr
  obtain ⟨r', hr', hlike⟩ := h r hr
  obtain ⟨r'', hr'', hlike'⟩ := h' r' hr'
  exact ⟨r'', hr'', htrans r r' r'' hlike hlike'⟩

/-- New rows leave the others. -/
theorem insert? (hrefl : ∀ r, like r r) {new : List ρ} (h : t.insert? new = some t') :
    t.Continues like t' := by
  intro r hr
  refine ⟨r, ?_, hrefl r⟩
  rw [insert?_eq_some h]
  exact List.mem_append_left new hr

/-- A change of one row leaves the others. -/
theorem update (hrefl : ∀ r, like r r) (hkey : ∀ r, key (change r) = key r)
    (hchange : ∀ r, like r (change r)) : t.Continues like (t.update k change hkey) := by
  intro r hr
  by_cases h : key r = k
  · exact ⟨change r, (mem_update hkey).mpr (.inl ⟨r, hr, h, rfl⟩), hchange r⟩
  · exact ⟨r, (mem_update hkey).mpr (.inr ⟨hr, h⟩), hrefl r⟩

end Continues

end Table

/-! ## Rows in order -/

/-- Rows with different values to be ordered by can be read in one order only. -/
theorem existsUnique_sorted {β : Type*} [LinearOrder β] {value : ρ → β} {rows : List ρ}
    (hdifferent : ∀ r ∈ rows, ∀ r' ∈ rows, value r = value r' → r = r') :
    ∃! sorted : List ρ, sorted.Perm rows ∧ sorted.Pairwise fun r r' => value r ≤ value r' := by
  let before : ρ → ρ → Bool := fun r r' => decide (value r ≤ value r')
  have hsorted : (rows.mergeSort before).Pairwise fun r r' => before r r' = true := by
    refine List.pairwise_mergeSort (fun a b c hab hbc => ?_) (fun a b => ?_) rows
    · simp only [before, decide_eq_true_eq] at hab hbc ⊢
      exact hab.trans hbc
    · simp only [before, Bool.or_eq_true, decide_eq_true_eq]
      exact le_total (value a) (value b)
  refine ⟨rows.mergeSort before, ⟨List.mergeSort_perm rows before, ?_⟩, ?_⟩
  · exact hsorted.imp of_decide_eq_true
  · rintro other ⟨hperm, hother⟩
    refine (hperm.trans (List.mergeSort_perm rows before).symm).eq_of_pairwise
      (fun a b ha hb hab hba => ?_) hother (hsorted.imp of_decide_eq_true)
    exact hdifferent a (hperm.mem_iff.mp ha) b
      ((List.mergeSort_perm rows before).mem_iff.mp hb) (le_antisymm hab hba)

end Logit.Store
