import Mathlib.Data.List.Perm.Basic

/-!
# Locks that tasks hold

Tasks take locks one at a time and give all of them back at once. The locks that are
taken are kept in a list; as long as a task takes only what is not in it, the list is what
the tasks hold, and no two of them hold the same.

## Main definitions

* `Exclusive` — the locks taken are those the tasks hold, each once

## Main results

* `Exclusive.acquire`, `Exclusive.release` — what keeps them so
* `Exclusive.not_mem_held` — what one task holds no other does
-/

namespace Logit.Concurrency

variable {α κ : Type*}

/-- The locks taken are those the tasks hold, each of them once. -/
structure Exclusive (held : α → List κ) (locks : List κ) (ts : List α) : Prop where
  perm : (ts.flatMap held).Perm locks
  nodup : locks.Nodup

namespace Exclusive

variable {held : α → List κ} {locks : List κ} {ts before after : List α} {t t' : α} {key : κ}

theorem nil (held : α → List κ) : Exclusive held [] [] := ⟨.nil, .nil⟩

/-- A task that starts holds nothing. -/
theorem start (h : Exclusive held locks ts) (hnone : held t = []) :
    Exclusive held locks (t :: ts) where
  perm := by
    rw [List.flatMap_cons, hnone, List.nil_append]
    exact h.perm
  nodup := h.nodup

theorem held_middle (held : α → List κ) (before after : List α) (t : α) :
    ((before ++ t :: after).flatMap held).Perm (held t ++ (before ++ after).flatMap held) := by
  rw [List.flatMap_append, List.flatMap_cons, List.flatMap_append]
  exact List.perm_append_comm_assoc ..

/-- The locks are those of one task and those of the others. -/
theorem perm_middle (h : Exclusive held locks (before ++ t :: after)) :
    (held t ++ (before ++ after).flatMap held).Perm locks :=
  (held_middle held before after t).symm.trans h.perm

/-- What one task holds no other does. -/
theorem not_mem_held (h : Exclusive held locks (before ++ t :: after)) (hkey : key ∈ held t)
    {u : α} (hu : u ∈ before ++ after) : key ∉ held u := by
  have hnodup := h.perm_middle.nodup_iff.mpr h.nodup
  intro hother
  exact (List.nodup_append.mp hnodup).2.2 key hkey key (List.mem_flatMap.mpr ⟨u, hu, hother⟩) rfl

/-- A task goes on with what it holds. -/
theorem keep (h : Exclusive held locks (before ++ t :: after)) (hsame : held t' = held t) :
    Exclusive held locks (before ++ t' :: after) where
  perm := by
    refine (held_middle held before after t').trans ?_
    rw [hsame]
    exact h.perm_middle
  nodup := h.nodup

/-- A task takes a lock that is free. -/
theorem acquire (h : Exclusive held locks (before ++ t :: after)) (hfree : key ∉ locks)
    (htaken : held t' = key :: held t) :
    Exclusive held (key :: locks) (before ++ t' :: after) where
  perm := by
    refine (held_middle held before after t').trans ?_
    rw [htaken, List.cons_append]
    exact h.perm_middle.cons key
  nodup := List.nodup_cons.mpr ⟨hfree, h.nodup⟩

/-- A task gives back all it holds. -/
theorem release [DecidableEq κ] (h : Exclusive held locks (before ++ t :: after))
    (hnone : held t' = []) :
    Exclusive held (locks.filter (· ∉ held t)) (before ++ t' :: after) where
  perm := by
    refine (held_middle held before after t').trans ?_
    rw [hnone, List.nil_append]
    have hperm := h.perm_middle.filter (· ∉ held t)
    have hothers : ((before ++ after).flatMap held).filter (· ∉ held t) =
        (before ++ after).flatMap held := by
      refine List.filter_eq_self.mpr fun key hkey => decide_eq_true fun hmem => ?_
      obtain ⟨u, hu, hother⟩ := List.mem_flatMap.mp hkey
      exact h.not_mem_held hmem hu hother
    have hown : (held t).filter (· ∉ held t) = [] :=
      List.filter_eq_nil_iff.mpr fun key hkey => by simp [hkey]
    rw [List.filter_append, hown, hothers, List.nil_append] at hperm
    exact hperm
  nodup := h.nodup.filter _

end Exclusive

end Logit.Concurrency
