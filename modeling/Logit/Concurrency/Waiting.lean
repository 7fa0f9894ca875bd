import Logit.Concurrency.Locks
import Mathlib.Data.Fintype.Card
import Mathlib.Data.Set.Finite.List
import Mathlib.Logic.Relation
import Mathlib.Order.WellFounded

/-!
# Tasks that wait for each other

A task whose next statement takes a lock waits for the task that holds it. Tasks that wait for
each other in a circle never go on by themselves; and where all tasks wait, there is a circle. A
task on a circle waits for a lock, and holds one that another task on the circle waits for.

## Main definitions

* `WaitsFor` — a task waits for a lock that another holds
* `OnCircle` — a task waits for another that waits, over others or not, for it

## Main results

* `OnCircle.next`, `OnCircle.before` — the tasks next to a task on a circle
* `exists_onCircle` — among finitely many tasks that all wait there is a circle
* `not_onCircle_of_lt` — there is none if a rank goes up from each task to the one it waits for
* `Exclusive.exists_waitsFor` — a task that is held up waits for another
-/

namespace Logit.Concurrency

variable {α κ : Type*} (held : α → List κ) (wanted : α → Option κ) (ts : List α)

/-- A task waits for a lock that another task holds. -/
structure WaitsFor (t u : α) : Prop where
  waits : t ∈ ts
  holds : u ∈ ts
  wanted : ∃ key ∈ wanted t, key ∈ held u

/-- A task waits for another, which waits for it, over other tasks or not. -/
structure OnCircle (t u : α) : Prop where
  waitsFor : WaitsFor held wanted ts t u
  back : Relation.ReflTransGen (WaitsFor held wanted ts) u t

variable {held wanted ts} {t u : α}

/-! ## Around a circle -/

/-- The task that the next one waits for. -/
theorem OnCircle.next (h : OnCircle held wanted ts t u) : ∃ v, OnCircle held wanted ts u v := by
  rcases h.back.cases_head with rfl | ⟨v, huv, hback⟩
  · exact ⟨u, h⟩
  · exact ⟨v, huv, hback.tail h.waitsFor⟩

/-- The task that waits for this one. -/
theorem OnCircle.before (h : OnCircle held wanted ts t u) : ∃ s, OnCircle held wanted ts s t := by
  rcases h.back.cases_tail with rfl | ⟨s, hback, hst⟩
  · exact ⟨t, h⟩
  · exact ⟨s, hst, .head h.waitsFor hback⟩

/-- A task on a circle holds a lock. -/
theorem OnCircle.held_ne_nil (h : OnCircle held wanted ts t u) : held t ≠ [] := by
  obtain ⟨s, hst⟩ := h.before
  obtain ⟨key, -, hkey⟩ := hst.waitsFor.wanted
  exact List.ne_nil_of_mem hkey

/-- A task on a circle waits for a lock. -/
theorem OnCircle.wanted_ne_none (h : OnCircle held wanted ts t u) : wanted t ≠ none := by
  obtain ⟨key, hkey, -⟩ := h.waitsFor.wanted
  exact Option.ne_none_iff_exists'.mpr ⟨key, hkey⟩

/-! ## Where there is a circle -/

/-- Among tasks that all wait for one another there is a circle. -/
theorem exists_onCircle {p : α → Prop} (hsome : ∃ t ∈ ts, p t)
    (hwaits : ∀ t ∈ ts, p t → ∃ u, p u ∧ WaitsFor held wanted ts t u) :
    ∃ t u, OnCircle held wanted ts t u := by
  by_contra hnone
  push Not at hnone
  let R (a b : {t // t ∈ ts}) : Prop := Relation.TransGen (WaitsFor held wanted ts) b.1 a.1
  have : Finite {t // t ∈ ts} := List.finite_toSet ts
  have htrans : IsTrans {t // t ∈ ts} R := ⟨fun a b c hab hbc => hbc.trans hab⟩
  have hirrefl : Std.Irrefl R := ⟨fun a haa => by
    obtain ⟨b, hab, hback⟩ := Relation.TransGen.head'_iff.mp haa
    exact hnone _ _ ⟨hab, hback⟩⟩
  -- Follow the tasks that wait to one that waits for none.
  obtain ⟨first, hfirst, hp⟩ := hsome
  obtain ⟨last, hlast, hmin⟩ := (Finite.wellFounded_of_trans_of_irrefl R).has_min
    {t | p t.1} ⟨⟨first, hfirst⟩, hp⟩
  obtain ⟨u, hu, hwait⟩ := hwaits last.1 last.2 hlast
  exact hmin ⟨u, hwait.holds⟩ hu (.single hwait)

/-- No circle is where a rank goes up from each task on it to the one that task waits for. -/
theorem not_onCircle_of_lt {ρ : Type*} [Preorder ρ] {rank : α → ρ}
    (hrank : ∀ t u, OnCircle held wanted ts t u → rank t < rank u) :
    ¬ OnCircle held wanted ts t u := by
  intro h
  have hback : ∀ v, Relation.ReflTransGen (WaitsFor held wanted ts) u v →
      Relation.ReflTransGen (WaitsFor held wanted ts) v t → rank u ≤ rank v := by
    intro v huv
    induction huv with
    | refl => exact fun _ => le_rfl
    | @tail v w huv hvw ih =>
      intro hwt
      have hcircle : OnCircle held wanted ts v w := ⟨hvw, (hwt.tail h.waitsFor).trans huv⟩
      exact (ih (.head hvw hwt)).trans (hrank v w hcircle).le
  exact lt_irrefl _ ((hrank t u h).trans_le (hback t h.back .refl))

/-! ## Locks that are taken -/

/-- A task that wants a lock that is taken waits for the task that holds it. -/
theorem Exclusive.exists_waitsFor {locks : List κ} (h : Exclusive held locks ts) (ht : t ∈ ts)
    {key : κ} (hkey : key ∈ wanted t) (htaken : key ∈ locks) :
    ∃ u, WaitsFor held wanted ts t u := by
  obtain ⟨u, hu, hholds⟩ := List.mem_flatMap.mp (h.perm.symm.subset htaken)
  exact ⟨u, ht, hu, key, hkey, hholds⟩

end Logit.Concurrency
