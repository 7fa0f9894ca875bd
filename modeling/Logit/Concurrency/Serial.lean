import Logit.Concurrency.Pool
import Mathlib.Data.List.Perm.Basic

/-!
# Requests that read once and write once

A request reads the shared state, works out from it what to write, and writes later;
meanwhile other requests do the same. Nothing is locked, so what is written may be out of
date. The requests are serializable if their joint effect is that of serving them one after
another, each alone.

## Main definitions

* `ReadWrite` — what requests write, given what they read
* `ReadWrite.serve`, `ReadWrite.serial` — one request alone, and several in turn
* `ReadWrite.Task`, `ReadWrite.program` — requests at work on a shared state

## Main results

* `ReadWrite.invariant_of_steps` — what each write keeps, a run keeps
* `ReadWrite.serializable_of_reachable` — if each write can be fitted into an order of what
  was done before it, so can all
-/

namespace Logit.Concurrency

/-- Requests `ρ` that read a state `σ` and write `ω`. -/
structure ReadWrite (σ ρ ω : Type*) where
  /-- What a request writes, given what it has read; none if it is refused. -/
  prepare : σ → ρ → Option ω
  apply : ω → σ → σ

namespace ReadWrite

variable {σ ρ ω : Type*} (P : ReadWrite σ ρ ω)

/-- A request that is served while no other is. -/
def serve (s : σ) (r : ρ) : σ :=
  match P.prepare s r with
  | some w => P.apply w s
  | none => s

/-- Requests that are served one after another. -/
def serial (s : σ) (rs : List ρ) : σ := rs.foldl P.serve s

variable {P} in
theorem serve_of_some {s : σ} {r : ρ} {w : ω} (h : P.prepare s r = some w) :
    P.serve s r = P.apply w s := by
  rw [serve, h]

variable {P} in
theorem serve_of_none {s : σ} {r : ρ} (h : P.prepare s r = none) : P.serve s r = s := by
  rw [serve, h]

@[simp] theorem serial_nil (s : σ) : P.serial s [] = s := rfl

@[simp] theorem serial_cons (s : σ) (r : ρ) (rs : List ρ) :
    P.serial s (r :: rs) = P.serial (P.serve s r) rs := rfl

@[simp] theorem serial_append_singleton (s : σ) (rs : List ρ) (r : ρ) :
    P.serial s (rs ++ [r]) = P.serve (P.serial s rs) r := by
  simp [serial]

/-- A request at work. -/
inductive Task (σ ρ ω : Type*)
  | waiting (request : ρ)
  /-- With the state that has been read. -/
  | writing (request : ρ) (read : σ) (write : ω)
  | refused (request : ρ)
  | accepted (request : ρ)

/-- The request of a task that is done. -/
def Task.done? : Task σ ρ ω → Option ρ
  | refused r => some r
  | accepted r => some r
  | _ => none

/-- A task reads, and writes later unless it is refused. -/
inductive Act : σ → Task σ ρ ω → σ → Task σ ρ ω → Prop
  | refuse {s : σ} {r : ρ} (h : P.prepare s r = none) : Act s (.waiting r) s (.refused r)
  | read {s : σ} {r : ρ} {w : ω} (h : P.prepare s r = some w) :
      Act s (.waiting r) s (.writing r s w)
  | write {s read : σ} {r : ρ} {w : ω} :
      Act s (.writing r read w) (P.apply w s) (.accepted r)

/-- Requests of a kind, which may come at any moment. -/
def program (kind : ρ → Prop) : Program σ (Task σ ρ ω) where
  env := fun _ _ => False
  start := fun t => ∃ r, kind r ∧ t = .waiting r
  act := P.Act

variable {P} {guard : σ → Task σ ρ ω → Prop} {kind : ρ → Prop} {s₀ : σ}
  {p later : Pool σ (Task σ ρ ω)}

/-- Two requests may read before either writes. -/
theorem reachable_overlapping {r r' : ρ} {w w' : ω} (hkind : kind r) (hkind' : kind r')
    (h : P.prepare s₀ r = some w) (h' : P.prepare s₀ r' = some w') :
    Pool.Reachable (P.program kind) s₀ ⟨P.apply w s₀, [.accepted r, .writing r' s₀ w']⟩ := by
  have hfirst : Pool.Reachable (P.program kind) s₀ ⟨s₀, [.waiting r']⟩ :=
    Relation.ReflTransGen.single (Pool.Step.start s₀ [] ⟨r', hkind', rfl⟩)
  have hboth : Pool.Reachable (P.program kind) s₀ ⟨s₀, [.waiting r, .waiting r']⟩ :=
    hfirst.tail (Pool.Step.start s₀ _ ⟨r, hkind, rfl⟩)
  have hread : Pool.Reachable (P.program kind) s₀ ⟨s₀, [.writing r s₀ w, .waiting r']⟩ :=
    hboth.tail (Pool.Step.act [] _ (Act.read h))
  have hread' : Pool.Reachable (P.program kind) s₀ ⟨s₀, [.writing r s₀ w, .writing r' s₀ w']⟩ :=
    hread.tail (Pool.Step.act [_] [] (Act.read h'))
  exact hread'.tail (Pool.Step.act [] _ Act.write)

/-! ## Invariants -/

/-- A request is of a kind, and what it is about to write comes from what it has read. -/
def Task.Prepared (P : ReadWrite σ ρ ω) (kind : ρ → Prop) : Task σ ρ ω → Prop
  | waiting r => kind r
  | writing r read w => kind r ∧ P.prepare read r = some w
  | _ => True

/-- What every write that a guard lets through keeps, every run keeps. -/
theorem invariant_of_steps {I : σ → Prop}
    (hwrite : ∀ (r : ρ) (read s : σ) (w : ω), kind r → P.prepare read r = some w →
      guard s (.writing r read w) → I s → I (P.apply w s))
    (hprepared : ∀ t ∈ p.tasks, t.Prepared P kind) (hI : I p.shared)
    (h : Relation.ReflTransGen (Pool.Step ((P.program kind).guarded guard)) p later) :
    I later.shared ∧ ∀ t ∈ later.tasks, t.Prepared P kind := by
  induction h with
  | refl => exact ⟨hI, hprepared⟩
  | tail _ hstep ih =>
    obtain ⟨hI, hprepared⟩ := ih
    cases hstep with
    | env ts henv => exact henv.elim
    | start s ts hstart =>
      obtain ⟨r, hkind, rfl⟩ := hstart
      exact ⟨hI, List.forall_mem_cons.mpr ⟨hkind, hprepared⟩⟩
    | @act s s' t t' before after hact =>
      obtain ⟨hguard, hact⟩ := hact
      have hthis : t.Prepared P kind := hprepared t (List.mem_append_right _ List.mem_cons_self)
      have hkeep (hthis' : t'.Prepared P kind) :=
        forall_mem_middle (q := Task.Prepared P kind) hprepared (fun _ _ hu => hu) fun _ => hthis'
      cases hact with
      | refuse _ => exact ⟨hI, hkeep trivial⟩
      | read hsome => exact ⟨hI, hkeep ⟨hthis, hsome⟩⟩
      | write =>
        obtain ⟨hkind, hsome⟩ := hthis
        exact ⟨hwrite _ _ _ _ hkind hsome hguard hI, hkeep trivial⟩

/-! ## Serializability -/

/-- The effect of the tasks that are done is that of their requests in some order. -/
def Serializable (P : ReadWrite σ ρ ω) (s₀ : σ) (p : Pool σ (Task σ ρ ω)) : Prop :=
  ∃ order : List ρ, order.Perm (p.tasks.filterMap Task.done?) ∧ P.serial s₀ order = p.shared

/-- What a task has read is a state that requests in turn lead to. -/
def Task.ReadsSerial (P : ReadWrite σ ρ ω) (s₀ : σ) : Task σ ρ ω → Prop
  | writing r read w => P.prepare read r = some w ∧ ∃ order, P.serial s₀ order = read
  | _ => True

/-- A task that is not done yet adds its request when it is. -/
theorem filterMap_done?_middle (before after : List (Task σ ρ ω)) {t : Task σ ρ ω}
    (h : t.done? = none) (t' : Task σ ρ ω) :
    ((before ++ t' :: after).filterMap Task.done?).Perm
      (t'.done?.toList ++ (before ++ t :: after).filterMap Task.done?) := by
  cases h' : t'.done? with
  | none => simp [h, h']
  | some r =>
    simp only [List.filterMap_append, List.filterMap_cons, h, h', Option.toList_some,
      List.singleton_append]
    exact List.perm_middle

/-- If what a task writes can be fitted into any order that leads to the state it writes to,
all tasks are serializable. By induction on the steps. -/
theorem serializable_of_reachable
    (hwrite : ∀ (r : ρ) (read : σ) (w : ω) (before order : List ρ),
      P.serial s₀ before = read → P.prepare read r = some w →
        guard (P.serial s₀ order) (.writing r read w) →
          ∃ order', order'.Perm (r :: order) ∧
            P.serial s₀ order' = P.apply w (P.serial s₀ order))
    (h : Pool.Reachable ((P.program kind).guarded guard) s₀ p) :
    P.Serializable s₀ p ∧ ∀ t ∈ p.tasks, t.ReadsSerial P s₀ := by
  induction h with
  | refl =>
    refine ⟨⟨[], List.Perm.refl _, rfl⟩, fun t ht => absurd ht List.not_mem_nil⟩
  | tail _ hstep ih =>
    obtain ⟨⟨order, hperm, hserial⟩, hsound⟩ := ih
    cases hstep with
    | env ts henv => exact henv.elim
    | start s ts hstart =>
      obtain ⟨r, -, rfl⟩ := hstart
      refine ⟨⟨order, hperm, hserial⟩, ?_⟩
      exact List.forall_mem_cons.mpr ⟨trivial, hsound⟩
    | @act s s' t t' before after hact =>
      obtain ⟨hguard, hact⟩ := hact
      have hkeep (hthis : t.ReadsSerial P s₀ → t'.ReadsSerial P s₀) :=
        forall_mem_middle (q := Task.ReadsSerial P s₀) hsound (fun _ _ hu => hu) hthis
      cases hact with
      | @refuse r hnone =>
        refine ⟨⟨order ++ [r], ?_, ?_⟩, hkeep fun _ => trivial⟩
        · exact ((List.perm_append_singleton _ _).trans (hperm.cons _)).trans
            (filterMap_done?_middle before after (t := .waiting r) rfl (.refused r)).symm
        · rw [serial_append_singleton, hserial]
          exact serve_of_none hnone
      | @read r w hsome =>
        refine ⟨⟨order, ?_, hserial⟩, hkeep fun _ => ⟨hsome, order, hserial⟩⟩
        exact hperm.trans
          (filterMap_done?_middle before after (t := .waiting r) rfl (.writing r s w)).symm
      | @write read r w =>
        have hthis : Task.ReadsSerial P s₀ (.writing r read w) :=
          hsound _ (List.mem_append_right _ List.mem_cons_self)
        obtain ⟨hprepared, earlier, hread⟩ := hthis
        obtain ⟨order', hperm', hserial'⟩ := hwrite r read w earlier order hread hprepared
          (hserial ▸ hguard)
        refine ⟨⟨order', ?_, ?_⟩, hkeep fun _ => trivial⟩
        · exact (hperm'.trans (hperm.cons r)).trans
            (filterMap_done?_middle before after (t := .writing r read w) rfl (.accepted r)).symm
        · rw [hserial', hserial]

end ReadWrite

end Logit.Concurrency
