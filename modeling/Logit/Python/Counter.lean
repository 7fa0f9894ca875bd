import Mathlib.Algebra.GroupWithZero.Nat
import Mathlib.Data.List.Count
import Mathlib.Data.List.Nodup

/-!
# Counting keys

Python's `Counter` of a list of keys, as the dictionary it is turned into: an association list
whose keys are in the order of their first occurrence. Where every item has keys of its own, the
counts of all keys count items just when no item has a key twice.

## Main definitions

* `counter` — `dict(Counter(keys))`
* `countOf` — `counts.get(key, 0)`

## Main results

* `countOf_counter`, `sum_counter` — what is counted, and what the counts add up to
* `count_flatMap_eq_iff` — when keys of items are counted as items are
-/

namespace Logit.Python

variable {α β : Type} [DecidableEq α]

/-- Counts a key once more; a new key comes last. -/
def increment (key : α) : List (α × ℕ) → List (α × ℕ)
  | [] => [(key, 1)]
  | (other, n) :: counts =>
    if other = key then (other, n + 1) :: counts else (other, n) :: increment key counts

/-- `dict(Counter(keys))`. -/
def counter (keys : List α) : List (α × ℕ) := keys.foldl (fun counts key => increment key counts) []

/-- `counts.get(key, 0)`. -/
def countOf (counts : List (α × ℕ)) (key : α) : ℕ := (counts.lookup key).getD 0

theorem countOf_cons (other : α) (n : ℕ) (counts : List (α × ℕ)) (key : α) :
    countOf ((other, n) :: counts) key = if other = key then n else countOf counts key := by
  unfold countOf
  rw [List.lookup_cons]
  by_cases h : other = key
  · simp [h]
  · rw [if_neg h, beq_false_of_ne (Ne.symm h)]

theorem countOf_increment (key other : α) (counts : List (α × ℕ)) :
    countOf (increment key counts) other = countOf counts other + if key = other then 1 else 0 := by
  induction counts with
  | nil =>
    rw [increment, countOf_cons]
    exact (Nat.zero_add _).symm
  | cons entry counts ih =>
    obtain ⟨first, n⟩ := entry
    unfold increment
    split_ifs with hfirst hother hother
    · subst hfirst hother
      simp [countOf_cons]
    · subst hfirst
      simp [countOf_cons, hother]
    · subst hother
      simp [countOf_cons, hfirst, ih]
    · simp [countOf_cons, ih, hother]

theorem sum_increment (key : α) (counts : List (α × ℕ)) :
    ((increment key counts).map Prod.snd).sum = (counts.map Prod.snd).sum + 1 := by
  induction counts with
  | nil => rfl
  | cons entry counts ih =>
    obtain ⟨first, n⟩ := entry
    unfold increment
    split_ifs
    · simp only [List.map_cons, List.sum_cons]
      omega
    · simp only [List.map_cons, List.sum_cons, ih]
      omega

/-- A key is counted as often as it occurs. -/
theorem countOf_counter (keys : List α) (key : α) :
    countOf (counter keys) key = keys.count key := by
  have hfrom : ∀ counts, countOf (keys.foldl (fun counts key => increment key counts) counts) key =
      countOf counts key + keys.count key := by
    induction keys with
    | nil => simp
    | cons first keys ih =>
      intro counts
      rw [List.foldl_cons, ih, countOf_increment, List.count_cons]
      simp only [beq_iff_eq]
      omega
  exact (hfrom []).trans (Nat.zero_add _)

/-- The counts add up to the number of keys. -/
theorem sum_counter (keys : List α) : ((counter keys).map Prod.snd).sum = keys.length := by
  have hfrom : ∀ counts,
      ((keys.foldl (fun counts key => increment key counts) counts).map Prod.snd).sum =
        (counts.map Prod.snd).sum + keys.length := by
    induction keys with
    | nil => simp
    | cons first keys ih =>
      intro counts
      rw [List.foldl_cons, ih, sum_increment, List.length_cons]
      omega
  exact (hfrom []).trans (Nat.zero_add _)

/-! ## Keys of items -/

variable (keysOf : β → List α)

theorem countP_le_count_flatMap (items : List β) (key : α) :
    items.countP (fun item => key ∈ keysOf item) ≤ (items.flatMap keysOf).count key := by
  induction items with
  | nil => simp
  | cons item items ih =>
    rw [List.flatMap_cons, List.count_append, List.countP_cons]
    have hitem : (if decide (key ∈ keysOf item) = true then 1 else 0) ≤
        (keysOf item).count key := by
      split_ifs with hmem
      · exact List.count_pos_iff.mpr (of_decide_eq_true hmem)
      · exact Nat.zero_le _
    omega

/-- All keys are counted as often as there are items with them, if and only if no item has a key
twice. -/
theorem count_flatMap_eq_iff (items : List β) :
    (∀ key, (items.flatMap keysOf).count key = items.countP fun item => key ∈ keysOf item) ↔
      ∀ item ∈ items, (keysOf item).Nodup := by
  induction items with
  | nil => simp
  | cons item items ih =>
    rw [List.forall_mem_cons, ← ih, List.nodup_iff_count_le_one]
    simp only [List.flatMap_cons, List.count_append, List.countP_cons, decide_eq_true_eq]
    constructor
    · intro h
      have hmem : ∀ key, key ∈ keysOf item → 1 ≤ (keysOf item).count key :=
        fun key => List.count_pos_iff.mpr
      have hrest := countP_le_count_flatMap keysOf items
      constructor
      · intro key
        have hkey := h key
        have hothers := hrest key
        split_ifs at hkey <;> omega
      · intro key
        have hkey := h key
        have hothers := hrest key
        split_ifs at hkey with hfirst
        · have hpos := hmem key hfirst
          omega
        · omega
    · rintro ⟨honce, hrest⟩ key
      rw [hrest key]
      have hle := honce key
      split_ifs with hfirst
      · have hpos := List.count_pos_iff.mpr hfirst
        omega
      · rw [List.count_eq_zero.mpr hfirst]
        omega

end Logit.Python
