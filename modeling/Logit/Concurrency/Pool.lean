import Mathlib.Algebra.BigOperators.Group.List.Basic
import Mathlib.Algebra.Ring.Int.Defs
import Mathlib.Data.Int.Order.Basic
import Mathlib.Logic.Relation

/-!
# Tasks over a shared state

Any number of tasks run on one shared state, one atomic action of one task at a
time. New tasks may start at any moment, and the shared state may change by
itself, as a store does that lets keys expire.

What tasks have taken out of a shared stock and not given back is the sum of a
weight over the tasks; an action changes that sum by what it changes the weight
of its own task.

## Main definitions

* `Program` — the actions of a task and of the environment
* `Pool` — a shared state and the tasks at work on it
* `Pool.Step` — one action of one task, or of the environment
* `Program.restricted`, `Program.guarded`, `Pool.StepWhere` — the actions a guard lets through
* `Program.Runs` — the actions of one task
* `Program.Keeps` — what the shared state keeps, and what each task keeps while the shared
  state grows
* `total` — the sum of a weight over tasks

## Main results

* `Program.Runs.reachable` — one task runs while the others rest
* `Program.Keeps.of_reachable` — what is kept holds in every pool that is reached
* `total_middle` — the sum over the other tasks and the weight of one
* `forall_mem_middle` — what every task keeps while one of them acts
-/

namespace Logit.Concurrency

variable {σ α : Type*}

/-- The actions of tasks `α` on a shared state `σ`. -/
structure Program (σ α : Type*) where
  /-- What happens to the shared state without any task. -/
  env : σ → σ → Prop
  /-- The tasks that may start. -/
  start : α → Prop
  /-- One action of one task. -/
  act : σ → α → σ → α → Prop

/-- The program in which a task makes only the steps a guard lets through. -/
def Program.restricted (P : Program σ α) (guard : σ → α → σ → Prop) : Program σ α :=
  { P with act := fun s t s' t' => guard s t s' ∧ P.act s t s' t' }

/-- The program in which a task acts only where a guard holds. -/
def Program.guarded (P : Program σ α) (guard : σ → α → Prop) : Program σ α :=
  P.restricted fun s t _ => guard s t

/-- A shared state and the tasks at work on it. -/
structure Pool (σ α : Type*) where
  shared : σ
  tasks : List α

namespace Pool

/-- One action of one task, a new task, or a change of the shared state by itself. -/
inductive Step (P : Program σ α) : Pool σ α → Pool σ α → Prop
  | env {s s' : σ} (ts : List α) (h : P.env s s') : Step P ⟨s, ts⟩ ⟨s', ts⟩
  | start {t : α} (s : σ) (ts : List α) (h : P.start t) : Step P ⟨s, ts⟩ ⟨s, t :: ts⟩
  | act {s s' : σ} {t t' : α} (before after : List α) (h : P.act s t s' t') :
      Step P ⟨s, before ++ t :: after⟩ ⟨s', before ++ t' :: after⟩

/-- A step in which a task acts only where a guard lets it; the guard sees all tasks. -/
inductive StepWhere (P : Program σ α) (guard : Pool σ α → α → σ → Prop) :
    Pool σ α → Pool σ α → Prop
  | env {s s' : σ} (ts : List α) (h : P.env s s') : StepWhere P guard ⟨s, ts⟩ ⟨s', ts⟩
  | start {t : α} (s : σ) (ts : List α) (h : P.start t) : StepWhere P guard ⟨s, ts⟩ ⟨s, t :: ts⟩
  | act {s s' : σ} {t t' : α} (before after : List α) (h : P.act s t s' t')
      (hguard : guard ⟨s, before ++ t :: after⟩ t s') :
      StepWhere P guard ⟨s, before ++ t :: after⟩ ⟨s', before ++ t' :: after⟩

/-- The pools that are reached from a shared state without tasks. -/
def Reachable (P : Program σ α) (s : σ) (p : Pool σ α) : Prop :=
  Relation.ReflTransGen (Step P) ⟨s, []⟩ p

/-- A guard only takes runs away. -/
theorem Reachable.of_restricted {P : Program σ α} {guard : σ → α → σ → Prop} {s : σ}
    {p : Pool σ α} (h : Reachable (P.restricted guard) s p) : Reachable P s p := by
  refine Relation.ReflTransGen.mono (fun q q' hstep => ?_) _ _ h
  cases hstep with
  | env ts h => exact .env ts h
  | start s ts h => exact .start s ts h
  | act before after h => exact .act before after h.2

theorem StepWhere.step {P : Program σ α} {guard : Pool σ α → α → σ → Prop} {p p' : Pool σ α}
    (h : StepWhere P guard p p') : Step P p p' := by
  cases h with
  | env ts h => exact .env ts h
  | start s ts h => exact .start s ts h
  | act before after h => exact .act before after h

/-- A guard that sees the pool only takes runs away. -/
theorem Reachable.of_stepWhere {P : Program σ α} {guard : Pool σ α → α → σ → Prop} {s : σ}
    {p : Pool σ α} (h : Relation.ReflTransGen (StepWhere P guard) ⟨s, []⟩ p) :
    Reachable P s p :=
  Relation.ReflTransGen.mono (fun _ _ hstep => hstep.step) _ _ h

end Pool

/-- The actions of one task while the others rest. -/
def Program.Runs (P : Program σ α) : σ × α → σ × α → Prop :=
  Relation.ReflTransGen fun a b => P.act a.1 a.2 b.1 b.2

namespace Program.Runs

variable {P : Program σ α} {s s' : σ} {t t' : α} {stop : σ × α}

theorem step (hact : P.act s t s' t') (h : P.Runs (s', t') stop) : P.Runs (s, t) stop :=
  Relation.ReflTransGen.head (b := (s', t')) hact h

theorem last (hact : P.act s t s' t') : P.Runs (s, t) (s', t') := step hact .refl

theorem act {start : σ × α} (h : P.Runs start (s, t)) (hact : P.act s t s' t') :
    P.Runs start (s', t') := h.tail hact

/-- A task may go on alone. -/
theorem reachable_middle (h : P.Runs (s, t) (s', t')) {s₀ : σ} (before after : List α)
    (hrun : Pool.Reachable P s₀ ⟨s, before ++ t :: after⟩) :
    Pool.Reachable P s₀ ⟨s', before ++ t' :: after⟩ :=
  hrun.trans (h.lift (fun a : σ × α => (⟨a.1, before ++ a.2 :: after⟩ : Pool σ α))
    fun _ _ hact => .act before after hact)

/-- A task that starts may run alone. -/
theorem reachable (h : P.Runs (s, t) (s', t')) (hstart : P.start t) {s₀ : σ} {ts : List α}
    (hrun : Pool.Reachable P s₀ ⟨s, ts⟩) : Pool.Reachable P s₀ ⟨s', t' :: ts⟩ := by
  have hstarted : Pool.Reachable P s₀ ⟨s, t :: ts⟩ := hrun.tail (.start s ts hstart)
  exact h.reachable_middle [] ts hstarted

/-- A guard only takes runs away. -/
theorem of_restricted {guard : σ → α → σ → Prop} (h : (P.restricted guard).Runs (s, t) stop) :
    P.Runs (s, t) stop :=
  Relation.ReflTransGen.mono (fun _ _ hact => hact.2) _ _ h

end Program.Runs

/-! ## Weights -/

/-- The sum of a weight over tasks. -/
def total (weight : α → ℤ) (ts : List α) : ℤ := (ts.map weight).sum

@[simp] theorem total_nil (weight : α → ℤ) : total weight [] = 0 := rfl

@[simp] theorem total_cons (weight : α → ℤ) (t : α) (ts : List α) :
    total weight (t :: ts) = weight t + total weight ts := by
  simp [total]

/-- The sum over tasks is the weight of one of them and the sum over the others. -/
theorem total_middle (weight : α → ℤ) (before after : List α) (t : α) :
    total weight (before ++ t :: after) = weight t + total weight (before ++ after) := by
  simp only [total, List.map_append, List.map_cons, List.sum_append, List.sum_cons]
  omega

theorem total_eq_zero {weight : α → ℤ} {ts : List α} (h : ∀ t ∈ ts, weight t = 0) :
    total weight ts = 0 := by
  induction ts with
  | nil => rfl
  | cons t ts ih =>
    rw [total_cons, h t List.mem_cons_self, ih fun u hu => h u (List.mem_cons_of_mem t hu)]
    rfl

theorem total_nonneg {weight : α → ℤ} {ts : List α} (h : ∀ t ∈ ts, 0 ≤ weight t) :
    0 ≤ total weight ts := by
  induction ts with
  | nil => exact le_refl (0 : ℤ)
  | cons t ts ih =>
    have htail := ih fun u hu => h u (List.mem_cons_of_mem t hu)
    have hhead := h t List.mem_cons_self
    rw [total_cons]
    omega

theorem total_le_total {weight weight' : α → ℤ} {ts : List α}
    (h : ∀ t ∈ ts, weight t ≤ weight' t) : total weight ts ≤ total weight' ts := by
  induction ts with
  | nil => exact le_refl (0 : ℤ)
  | cons t ts ih =>
    have htail := ih fun u hu => h u (List.mem_cons_of_mem t hu)
    have hhead := h t List.mem_cons_self
    rw [total_cons, total_cons]
    omega

/-- A property of every task is kept if the task that acts keeps it and the others do. -/
theorem forall_mem_middle {p q : α → Prop} {before after : List α} {t t' : α}
    (h : ∀ u ∈ before ++ t :: after, p u) (hothers : ∀ u ∈ before ++ after, p u → q u)
    (hthis : p t → q t') : ∀ u ∈ before ++ t' :: after, q u := by
  simp only [List.forall_mem_append, List.forall_mem_cons] at h hothers ⊢
  obtain ⟨hbefore, ht, hafter⟩ := h
  exact ⟨fun u hu => hothers.1 u hu (hbefore u hu), hthis ht,
    fun u hu => hothers.2 u hu (hafter u hu)⟩

/-! ## What is kept -/

/-- Every action keeps an invariant of the shared state and lets it grow, the task that acts
keeps its own property, and no property of a task is lost while the shared state grows. -/
structure Program.Keeps (P : Program σ α) (grows : σ → σ → Prop) (inv : σ → Prop)
    (own : σ → α → Prop) : Prop where
  env : ∀ {s s' : σ}, P.env s s' → inv s → inv s' ∧ grows s s'
  start : ∀ {s : σ} {t : α}, P.start t → inv s → own s t
  act : ∀ {s s' : σ} {t t' : α}, P.act s t s' t' → inv s → own s t →
    inv s' ∧ grows s s' ∧ own s' t'
  stable : ∀ {s s' : σ} {t : α}, grows s s' → own s t → own s' t

/-- What every action keeps holds in every pool that is reached. -/
theorem Program.Keeps.of_reachable {P : Program σ α} {grows : σ → σ → Prop} {inv : σ → Prop}
    {own : σ → α → Prop} (h : P.Keeps grows inv own) {s : σ} (hinit : inv s) {p : Pool σ α}
    (hrun : Pool.Reachable P s p) : inv p.shared ∧ ∀ t ∈ p.tasks, own p.shared t := by
  induction hrun with
  | refl => exact ⟨hinit, fun _ ht => absurd ht List.not_mem_nil⟩
  | tail _ hstep ih =>
    obtain ⟨hinv, hown⟩ := ih
    cases hstep with
    | env ts henv =>
      obtain ⟨hinv', hgrows⟩ := h.env henv hinv
      exact ⟨hinv', fun t ht => h.stable hgrows (hown t ht)⟩
    | start s ts hstart =>
      exact ⟨hinv, List.forall_mem_cons.mpr ⟨h.start hstart hinv, hown⟩⟩
    | act before after hact =>
      have hthis := hown _ (List.mem_append_right before List.mem_cons_self)
      obtain ⟨hinv', hgrows, hthis'⟩ := h.act hact hinv hthis
      exact ⟨hinv', forall_mem_middle hown (fun _ _ ht => h.stable hgrows ht) fun _ => hthis'⟩

end Logit.Concurrency
