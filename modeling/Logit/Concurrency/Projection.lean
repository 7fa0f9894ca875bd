import Logit.Concurrency.Pool

/-!
# What one party sees of a run

Some of the tasks on a shared state are one party's, and the party sees a part of the state. If
its tasks do on that part what they do on the whole, and all others leave the part alone, then
what the party sees of any run is a run of its own.

## Main definitions

* `Pool.project` — the part of the state and the tasks a party sees
* `Program.Projects` — what actions come to, as the party sees them

## Main results

* `Program.Projects.of_reachable` — what is seen of a run is a run
-/

namespace Logit.Concurrency

variable {σ τ α : Type*}

/-- A part of the shared state, and some of the tasks. -/
def Pool.project (view : σ → τ) (ours : α → Bool) (p : Pool σ α) : Pool τ α :=
  ⟨view p.shared, p.tasks.filter ours⟩

/-- Our tasks act on what we see as on the whole, and a change of the whole by itself or by others
changes what we see by itself, if at all. -/
structure Program.Projects (P : Program σ α) (Q : Program τ α) (view : σ → τ) (ours : α → Bool)
    (inv : σ → Prop) (own : σ → α → Prop) : Prop where
  env : ∀ {s s' : σ}, P.env s s' → inv s → view s' = view s ∨ Q.env (view s) (view s')
  start : ∀ {t : α}, P.start t → ours t = true → Q.start t
  mine : ∀ {s s' : σ} {t t' : α}, P.act s t s' t' → inv s → own s t → ours t = true →
    Q.act (view s) t (view s') t'
  others : ∀ {s s' : σ} {t t' : α}, P.act s t s' t' → inv s → own s t → ours t = false →
    view s' = view s ∨ Q.env (view s) (view s')
  same : ∀ {s s' : σ} {t t' : α}, P.act s t s' t' → ours t' = ours t

namespace Program.Projects

variable {P : Program σ α} {Q : Program τ α} {view : σ → τ} {ours : α → Bool} {inv : σ → Prop}
  {own : σ → α → Prop}

/-- What is seen does not change, or changes by itself. -/
theorem reaches_of_view {s s' : τ} (ts : List α) (h : s' = s ∨ Q.env s s') :
    Relation.ReflTransGen (Pool.Step Q) ⟨s, ts⟩ ⟨s', ts⟩ := by
  rcases h with rfl | henv
  · exact .refl
  · exact .single (.env ts henv)

/-- What is seen of a step is a step, or nothing. -/
theorem step (h : P.Projects Q view ours inv own) {p p' : Pool σ α} (hinv : inv p.shared)
    (hown : ∀ t ∈ p.tasks, own p.shared t) (hstep : Pool.Step P p p') :
    Relation.ReflTransGen (Pool.Step Q) (p.project view ours) (p'.project view ours) := by
  cases hstep with
  | env ts henv => exact reaches_of_view _ (h.env henv hinv)
  | @start t s ts hstart =>
    cases hours : ours t with
    | false =>
      rw [Pool.project, Pool.project, List.filter_cons_of_neg (by simp [hours])]
    | true =>
      rw [Pool.project, Pool.project, List.filter_cons_of_pos hours]
      exact .single (.start _ _ (h.start hstart hours))
  | @act s s' t t' before after hact =>
    have hthis := hown t (List.mem_append_right before List.mem_cons_self)
    cases hours : ours t with
    | false =>
      have hours' : ¬ ours t' = true := by rw [h.same hact, hours]; exact Bool.false_ne_true
      have hview := h.others hact hinv hthis hours
      simp only [Pool.project, List.filter_append, List.filter_cons_of_neg hours',
        List.filter_cons_of_neg (show ¬ ours t = true by rw [hours]; exact Bool.false_ne_true)]
      exact reaches_of_view _ hview
    | true =>
      have hours' : ours t' = true := (h.same hact).trans hours
      simp only [Pool.project, List.filter_append, List.filter_cons_of_pos hours,
        List.filter_cons_of_pos hours']
      exact .single (.act _ _ (h.mine hact hinv hthis hours))

/-- What a party sees of a run is a run of its own. -/
theorem of_reachable {grows : σ → σ → Prop} (h : P.Projects Q view ours inv own)
    (hkeeps : P.Keeps grows inv own) {s : σ} (hinit : inv s) {p : Pool σ α}
    (hrun : Pool.Reachable P s p) : Pool.Reachable Q (view s) (p.project view ours) := by
  induction hrun with
  | refl => exact .refl
  | tail hrun hstep ih =>
    obtain ⟨hinv, hown⟩ := hkeeps.of_reachable hinit hrun
    exact ih.trans (h.step hinv hown hstep)

end Program.Projects

end Logit.Concurrency
