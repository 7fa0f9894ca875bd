import Mathlib.Data.Int.ConditionallyCompleteOrder
import Mathlib.Data.Int.SuccPred
import Mathlib.Data.List.Basic
import Mathlib.Order.Monotone.Basic

/-!
# Periods of a schedule

A strictly increasing sequence of instants cuts time into periods, each closed
on the left and open on the right. Periods are disjoint and follow the order of
time, so the index of the period an instant lies in is unique and monotone.

The second half is about serving each period once. A server remembers the last
instant at which it served; a visit is served exactly when that instant precedes
the start of the visit's period. Along visits in order of time each period is
then served at its first visit and at no other.

## Main definitions

* `InPeriod` — the instant lies in the `n`-th period of a schedule
* `Touched` — the remembered instant is not before a period's start
* `served` — the visits at which a server serves
* `reached` — how many milestones have been reached

## Main results

* `InPeriod.unique`, `InPeriod.index_mono` — the period index of an instant
* `countP_served` — along ordered visits, a period is served once if it is visited and
  was not served before, and not at all otherwise
* `reached_lt_reached` — whoever serves after a milestone that was not reached reaches it
-/

namespace Logit.Schedule

variable {ι : Type*} [LinearOrder ι] {f : ℤ → ι} {m n : ℤ} {s t : ι}

/-- The instant `t` lies in the `n`-th period of the schedule `f`. -/
def InPeriod (f : ℤ → ι) (n : ℤ) (t : ι) : Prop := f n ≤ t ∧ t < f (n + 1)

instance (f : ℤ → ι) (n : ℤ) (t : ι) : Decidable (InPeriod f n t) :=
  inferInstanceAs (Decidable (_ ∧ _))

/-- Later instants lie in later periods. -/
theorem InPeriod.index_mono (hf : StrictMono f) (hs : InPeriod f m s) (ht : InPeriod f n t)
    (hst : s ≤ t) : m ≤ n := by
  have hlt : f m < f (n + 1) := hs.1.trans_lt (hst.trans_lt ht.2)
  exact Int.lt_add_one_iff.mp (hf.lt_iff_lt.mp hlt)

/-- An instant lies in at most one period. -/
theorem InPeriod.unique (hf : StrictMono f) (hm : InPeriod f m t) (hn : InPeriod f n t) :
    m = n :=
  le_antisymm (hm.index_mono hf hn le_rfl) (hn.index_mono hf hm le_rfl)

/-! ## Serving each period once -/

/-- The remembered instant, if there is one, is not before `start`. -/
def Touched (start : ι) (last : Option ι) : Prop := ∃ g ∈ last, start ≤ g

@[simp] theorem touched_none : ¬ Touched s none := by simp [Touched]

@[simp] theorem touched_some : Touched s (some t) ↔ s ≤ t := by simp [Touched]

instance (start : ι) (last : Option ι) : Decidable (Touched start last) :=
  match last with
  | none => isFalse touched_none
  | some _ => decidable_of_iff _ touched_some.symm

/-- The visits at which a server serves that serves a visit exactly when its
remembered instant precedes the start of the visit's period. -/
def served (start : ι → ι) : Option ι → List ι → List ι
  | _, [] => []
  | last, t :: ts =>
    if Touched (start t) last then served start last ts else t :: served start (some t) ts

variable {start : ι → ι} {index : ι → ℤ}

theorem served_subset (last : Option ι) (ts : List ι) : ∀ g ∈ served start last ts, g ∈ ts := by
  induction ts generalizing last with
  | nil => simp [served]
  | cons t ts ih =>
    intro g hg
    unfold served at hg
    split_ifs at hg
    · exact List.mem_cons_of_mem t (ih last g hg)
    · rcases List.mem_cons.mp hg with rfl | hg
      · exact List.mem_cons_self
      · exact List.mem_cons_of_mem t (ih (some t) g hg)

/-- Along visits in order of time, the `n`-th period is served exactly once if
it is visited and was not served before, and never otherwise. -/
theorem countP_served (hf : StrictMono f) (hindex : ∀ t, InPeriod f (index t) t)
    (hstart : ∀ t, start t = f (index t)) (n : ℤ) (last : Option ι) (ts : List ι)
    (hlast : ∀ g ∈ last, ∀ t ∈ ts, g ≤ t) (hsorted : ts.Pairwise (· ≤ ·)) :
    (served start last ts).countP (fun g => index g = n) =
      if (∃ t ∈ ts, index t = n) ∧ ¬ Touched (f n) last then 1 else 0 := by
  -- By induction on the visits; what is served last moves on with them.
  induction ts generalizing last with
  | nil => simp [served]
  | cons t ts ih =>
    obtain ⟨hfirst, hrest⟩ := List.pairwise_cons.mp hsorted
    have hlast' : ∀ g ∈ last, ∀ t' ∈ ts, g ≤ t' := fun g hg t' ht' =>
      hlast g hg t' (List.mem_cons_of_mem t ht')
    have hsome : ∀ g ∈ some t, ∀ t' ∈ ts, g ≤ t' := by
      rintro g hg t' ht'
      obtain rfl : t = g := by simpa using hg
      exact hfirst t' ht'
    rw [served, hstart t]
    split_ifs with htouched hserved hserved
    · -- The visit's period was served before, so the visit changes nothing.
      rw [ih last hlast' hrest, if_pos]
      refine ⟨?_, hserved.2⟩
      obtain ⟨t', ht', hn⟩ := hserved.1
      rcases List.mem_cons.mp ht' with rfl | ht'
      · exact absurd (hn ▸ htouched) hserved.2
      · exact ⟨t', ht', hn⟩
    · rw [ih last hlast' hrest, if_neg]
      rintro ⟨⟨t', ht', hn⟩, hnew⟩
      exact hserved ⟨⟨t', List.mem_cons_of_mem t ht', hn⟩, hnew⟩
    · -- The visit is served, and from then on its instant is remembered.
      rw [List.countP_cons, ih (some t) hsome hrest]
      rcases lt_trichotomy n (index t) with hlt | heq | hgt
      · -- An earlier period is never visited again.
        obtain ⟨t', ht', hn⟩ := hserved.1
        have hle : t ≤ t' := by
          rcases List.mem_cons.mp ht' with rfl | ht'
          · exact le_rfl
          · exact hfirst t' ht'
        have hmono := (hindex t).index_mono hf (hindex t') hle
        omega
      · have hself : f n ≤ t := heq ▸ (hindex t).1
        simp [heq.symm, hself]
      · have hnot : ¬ f n ≤ t := not_le.mpr ((hindex t).2.trans_le (hf.monotone hgt))
        have hvisit : ∃ t' ∈ ts, index t' = n := by
          obtain ⟨t', ht', hn⟩ := hserved.1
          rcases List.mem_cons.mp ht' with rfl | ht'
          · omega
          · exact ⟨t', ht', hn⟩
        simp [hvisit, hnot, hgt.ne]
    · -- The period is unvisited, or the remembered instant lies in it or later.
      have hne : index t ≠ n := by
        rintro rfl
        exact hserved ⟨⟨t, List.mem_cons_self, rfl⟩, htouched⟩
      rw [List.countP_cons, ih (some t) hsome hrest, if_neg]
      · simp [hne]
      · rintro ⟨⟨t', ht', hn⟩, hnew⟩
        refine hserved ⟨⟨t', List.mem_cons_of_mem t ht', hn⟩, ?_⟩
        rintro ⟨g, hg, hle⟩
        exact hnew (touched_some.mpr (hle.trans (hlast g hg t List.mem_cons_self)))

/-! ## Milestones -/

/-- How many milestones the remembered instant has reached. -/
def reached (milestones : List ι) (last : Option ι) : ℕ := milestones.countP (Touched · last)

@[simp] theorem reached_append (milestones more : List ι) (last : Option ι) :
    reached (milestones ++ more) last = reached milestones last + reached more last :=
  List.countP_append

theorem reached_le_length (milestones : List ι) (last : Option ι) :
    reached milestones last ≤ milestones.length := List.countP_le_length

theorem Touched.later {last : Option ι} (h : Touched s last) (hlast : ∀ g ∈ last, g ≤ t) :
    Touched s (some t) := by
  obtain ⟨g, hg, hle⟩ := h
  exact touched_some.mpr (hle.trans (hlast g hg))

theorem reached_le_reached {last : Option ι} (hlast : ∀ g ∈ last, g ≤ t) (milestones : List ι) :
    reached milestones last ≤ reached milestones (some t) :=
  List.countP_mono_left fun _ _ h => decide_eq_true ((of_decide_eq_true h).later hlast)

/-- Whoever serves after a milestone that had not been reached has reached one more. -/
theorem reached_lt_reached {milestones : List ι} {last : Option ι} {milestone : ι}
    (hmem : milestone ∈ milestones) (hnew : ¬ Touched milestone last) (hle : milestone ≤ t)
    (hlast : ∀ g ∈ last, g ≤ t) : reached milestones last < reached milestones (some t) := by
  obtain ⟨before, after, rfl⟩ := List.append_of_mem hmem
  have hbefore := reached_le_reached hlast before
  have hafter := reached_le_reached hlast after
  have hthis : reached (milestone :: after) last = reached after last :=
    List.countP_cons_of_neg (by simpa using hnew)
  have hthat : reached (milestone :: after) (some t) = reached after (some t) + 1 :=
    List.countP_cons_of_pos (by simpa using hle)
  rw [reached_append, reached_append, hthis, hthat]
  omega

/-! ## Visits before a deadline -/

/-- Visits in order of time are those up to a deadline, followed by the late ones. -/
theorem filter_le_append_filter_lt {ts : List ι} (hsorted : ts.Pairwise (· ≤ ·)) (deadline : ι) :
    (ts.filter fun t => t ≤ deadline) ++ (ts.filter fun t => deadline < t) = ts := by
  induction ts with
  | nil => rfl
  | cons t ts ih =>
    obtain ⟨hfirst, hrest⟩ := List.pairwise_cons.mp hsorted
    rcases le_or_gt t deadline with h | h
    · simp [h, not_lt.mpr h, ih hrest]
    · have hlate : ∀ t' ∈ ts, deadline < t' := fun t' ht' => h.trans_le (hfirst t' ht')
      have hnone : ts.filter (fun t => t ≤ deadline) = [] :=
        List.filter_eq_nil_iff.mpr fun t' ht' => by simpa using hlate t' ht'
      have hall : ts.filter (fun t => deadline < t) = ts :=
        List.filter_eq_self.mpr fun t' ht' => by simpa using hlate t' ht'
      simp [h, not_le.mpr h, hnone, hall]

end Logit.Schedule
