import Mathlib.Data.List.Induction
import Mathlib.Data.List.Nodup

/-!
# The first item of every key

A filter that drops an item whose key it has seen before keeps the first item of
every key. Where items also have a name, and items of one name share a key, such a
filter keeps every name exactly once just when no key has two names.

## Main definitions

* `firstOfKey` — the items kept, in order

## Main results

* `mem_map_firstOfKey`, `nodup_map_firstOfKey` — every key is kept, and once
* `filter_key_of_nodup` — among items with different keys, a key picks out one item
* `count_map_firstOfKey_iff` — when every name is kept exactly once
-/

namespace Logit.Schedule

section FirstOfKey

variable {ι κ ν : Type*} [DecidableEq κ] {key : ι → κ} {name : ι → ν} {xs : List ι} {x y : ι}

/-- The items kept when an item whose key has been seen before is dropped. -/
def firstOfKey (key : ι → κ) (xs : List ι) : List ι :=
  xs.foldl (fun kept x => if key x ∈ kept.map key then kept else kept ++ [x]) []

@[simp] theorem firstOfKey_nil : firstOfKey key [] = [] := rfl

theorem firstOfKey_concat : firstOfKey key (xs ++ [x]) =
    if key x ∈ (firstOfKey key xs).map key then firstOfKey key xs
    else firstOfKey key xs ++ [x] := by
  simp [firstOfKey]

theorem mem_of_mem_firstOfKey (h : x ∈ firstOfKey key xs) : x ∈ xs := by
  induction xs using List.reverseRecOn with
  | nil => exact h
  | append_singleton xs y ih =>
    rw [firstOfKey_concat] at h
    split_ifs at h
    · exact List.mem_append_left _ (ih h)
    · rcases List.mem_append.mp h with h | h
      · exact List.mem_append_left _ (ih h)
      · exact List.mem_append_right _ h

/-- Every key is kept. -/
theorem mem_map_firstOfKey {k : κ} : k ∈ (firstOfKey key xs).map key ↔ k ∈ xs.map key := by
  constructor
  · intro h
    obtain ⟨x, hx, rfl⟩ := List.mem_map.mp h
    exact List.mem_map_of_mem (mem_of_mem_firstOfKey hx)
  · induction xs using List.reverseRecOn with
    | nil => exact id
    | append_singleton xs y ih =>
      intro h
      rw [firstOfKey_concat]
      rw [List.map_append, List.mem_append] at h
      split_ifs with hseen
      · rcases h with h | h
        · exact ih h
        · obtain rfl : k = key y := by simpa using h
          exact hseen
      · rw [List.map_append, List.mem_append]
        exact h.imp_left ih

/-- No key is kept twice. -/
theorem nodup_map_firstOfKey : ((firstOfKey key xs).map key).Nodup := by
  induction xs using List.reverseRecOn with
  | nil => exact List.nodup_nil
  | append_singleton xs y ih =>
    rw [firstOfKey_concat]
    split_ifs with hseen
    · exact ih
    · rw [List.map_append, List.nodup_append]
      refine ⟨ih, List.nodup_singleton _, ?_⟩
      intro k hk k' hk' heq
      obtain rfl : k' = key y := by simpa using hk'
      exact hseen (heq ▸ hk)

/-- Among items with different keys, a key picks out one item. -/
theorem filter_key_of_nodup (h : (xs.map key).Nodup) (hx : x ∈ xs) :
    xs.filter (fun y => key y = key x) = [x] := by
  induction xs with
  | nil => cases hx
  | cons y xs ih =>
    rw [List.map_cons, List.nodup_cons] at h
    obtain ⟨hnew, hrest⟩ := h
    rcases List.mem_cons.mp hx with rfl | hx
    · have hnone : xs.filter (fun z => key z = key x) = [] := by
        rw [List.filter_eq_nil_iff]
        intro z hz heq
        exact hnew (of_decide_eq_true heq ▸ List.mem_map_of_mem hz)
      rw [List.filter_cons_of_pos (by simp), hnone]
    · have hne : key y ≠ key x := fun heq => hnew (heq ▸ List.mem_map_of_mem hx)
      rw [List.filter_cons_of_neg (by simpa using hne)]
      exact ih hrest hx

/-- Where items of one name share a key, no name is kept twice. -/
theorem nodup_map_name (hname : ∀ x ∈ xs, ∀ y ∈ xs, name x = name y → key x = key y) :
    ((firstOfKey key xs).map name).Nodup := by
  have hkeys : ((firstOfKey key xs).map key).Nodup := nodup_map_firstOfKey
  rw [List.Nodup, List.pairwise_map] at hkeys ⊢
  apply hkeys.imp_of_mem
  intro x y hx hy hne heq
  exact hne (hname x (mem_of_mem_firstOfKey hx) y (mem_of_mem_firstOfKey hy) heq)

/-- Where items of one name share a key, every name is kept exactly once if and only if
items of one key share a name. -/
theorem count_map_firstOfKey_iff [DecidableEq ν]
    (hname : ∀ x ∈ xs, ∀ y ∈ xs, name x = name y → key x = key y) :
    (∀ n ∈ xs.map name, ((firstOfKey key xs).map name).count n = 1) ↔
      ∀ x ∈ xs, ∀ y ∈ xs, key x = key y → name x = name y := by
  constructor
  · intro hcount x hx y hy hkey
    -- Both names are kept, by items whose keys agree; so one item has both.
    have hkept : ∀ z ∈ xs, ∃ z' ∈ firstOfKey key xs, name z' = name z := by
      intro z hz
      have hpos : 0 < ((firstOfKey key xs).map name).count (name z) := by
        rw [hcount _ (List.mem_map_of_mem hz)]
        exact Nat.one_pos
      exact List.mem_map.mp (List.count_pos_iff.mp hpos)
    obtain ⟨x', hx', hxname⟩ := hkept x hx
    obtain ⟨y', hy', hyname⟩ := hkept y hy
    have hx'key := hname x' (mem_of_mem_firstOfKey hx') x hx hxname
    have hy'key := hname y' (mem_of_mem_firstOfKey hy') y hy hyname
    have hsame : x' = y' := List.inj_on_of_nodup_map nodup_map_firstOfKey hx' hy'
      (hx'key.trans (hkey.trans hy'key.symm))
    rw [← hxname, ← hyname, hsame]
  · intro hkey n hn
    obtain ⟨x, hx, rfl⟩ := List.mem_map.mp hn
    obtain ⟨x', hx', hkey'⟩ :=
      List.mem_map.mp (mem_map_firstOfKey.mpr (List.mem_map_of_mem (f := key) hx))
    have hsame : name x' = name x := hkey x' (mem_of_mem_firstOfKey hx') x hx hkey'
    apply List.count_eq_one_of_mem (nodup_map_name hname)
    rw [← hsame]
    exact List.mem_map_of_mem hx'

end FirstOfKey

end Logit.Schedule
