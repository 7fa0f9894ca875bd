import Mathlib.Data.List.Infix

/-!
# Runs of a character

A text has a run of a length if some character of it comes so many times in a row. Two texts that
are joined have a run that neither of them has only where the end of the first and the start of
the second make one.

## Main definitions

* `leading`, `trailing` — how often a character comes at the start and at the end of a list

## Main results

* `replicate_prefix_iff`, `replicate_suffix_iff` — runs at the start and at the end
* `replicate_infix_append_iff` — runs of lists that are joined
-/

namespace Logit.Python

variable {α : Type} [DecidableEq α] {c : α} {xs ys : List α} {n : ℕ}

/-- How often an element comes in a row at the start. -/
def leading (c : α) (xs : List α) : ℕ := (xs.takeWhile (· = c)).length

/-- How often an element comes in a row at the end. -/
def trailing (c : α) (xs : List α) : ℕ := leading c xs.reverse

theorem leading_cons (c x : α) (xs : List α) :
    leading c (x :: xs) = if x = c then leading c xs + 1 else 0 := by
  unfold leading
  rw [List.takeWhile_cons]
  by_cases h : x = c <;> simp [h]

/-- What follows another element does not matter for what comes at the start. -/
theorem leading_append (hxs : ∃ x ∈ xs, x ≠ c) (ys : List α) :
    leading c (xs ++ ys) = leading c xs := by
  induction xs with
  | nil => obtain ⟨x, hx, -⟩ := hxs; cases hx
  | cons x xs ih =>
    rw [List.cons_append, leading_cons, leading_cons]
    split_ifs with hx
    · obtain ⟨y, hy, hne⟩ := hxs
      rcases List.mem_cons.mp hy with rfl | hy
      · exact absurd hx hne
      · rw [ih ⟨y, hy, hne⟩]
    · rfl

theorem replicate_prefix_iff : List.replicate n c <+: xs ↔ n ≤ leading c xs := by
  induction xs generalizing n with
  | nil =>
    rw [List.prefix_nil, List.replicate_eq_nil_iff]
    exact Nat.le_zero.symm
  | cons x xs ih =>
    rw [leading_cons]
    cases n with
    | zero => simp
    | succ n =>
      rw [List.replicate_succ, List.cons_prefix_cons, ih]
      split_ifs with hx
      · simp [hx]
      · simp [Ne.symm hx]

theorem replicate_suffix_iff : List.replicate n c <:+ xs ↔ n ≤ trailing c xs := by
  rw [trailing, ← replicate_prefix_iff, ← List.reverse_prefix, List.reverse_replicate]

/-- A run of lists that are joined is one of either, or one they make together. -/
theorem replicate_infix_append_iff : List.replicate n c <:+: xs ++ ys ↔
    List.replicate n c <:+: xs ∨ List.replicate n c <:+: ys ∨
      n ≤ trailing c xs + leading c ys := by
  rw [List.infix_append_iff]
  refine or_congr_right (or_congr_right ⟨?_, fun h => ?_⟩)
  · rintro ⟨first, second, hsplit, hfirst, hsecond⟩
    obtain ⟨hlength, hfirstEq, hsecondEq⟩ := List.replicate_eq_append_iff.mp hsplit
    rw [hfirstEq, replicate_suffix_iff] at hfirst
    rw [hsecondEq, replicate_prefix_iff] at hsecond
    omega
  · -- As much of the run as the first list has at its end, and the rest.
    refine ⟨List.replicate (min n (trailing c xs)) c,
      List.replicate (n - min n (trailing c xs)) c, ?_, ?_, ?_⟩
    · rw [List.replicate_append_replicate]
      congr 1
      omega
    · exact replicate_suffix_iff.mpr (min_le_right _ _)
    · exact replicate_prefix_iff.mpr (by omega)

end Logit.Python
