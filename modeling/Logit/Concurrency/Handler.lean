import Logit.Concurrency.Pool

/-!
# Handlers of requests

A handler makes one statement after another on a shared state, and then answers. Between
its statements other handlers make theirs, so what it has read may be out of date. A
relation that every statement of every handler guarantees is what each of them can rely on.

## Main definitions

* `Handler`, `Handler.query`, `Handler.commit` — the statements of a handler, and its answer
* `Handler.alone` — what a handler does alone
* `handlers` — handlers as tasks over the shared state
* `Program.Meanwhile` — what tasks at work may do to the shared state
* `Handler.Completes` — a handler answers, with others at work in between
* `Handler.Declines` — a handler changes nothing, whatever others do
* `Handler.Guarantees` — a relation between the states before and after each statement

## Main results

* `Program.Meanwhile.guaranteed` — what all handlers guarantee holds between any two states
* `Handler.completes_query`, `Handler.completes_commit` — how a handler that answers goes on
* `Handler.declines_query`, `Handler.declines_commit` — how one that changes nothing goes on
-/

namespace Logit.Concurrency

/-- What is left of a handler: its answer, or a statement, and how it goes on with the state the
statement has found. -/
inductive Handler (σ α : Type)
  | answer (a : α)
  | statement (effect : σ → σ) (next : σ → Handler σ α)

namespace Handler

variable {σ α β ε : Type}

/-- A handler that goes on with what another one answers. -/
def bind : Handler σ α → (α → Handler σ β) → Handler σ β
  | .answer a, g => g a
  | .statement effect next, g => .statement effect fun s => (next s).bind g

instance : Monad (Handler σ) where
  pure := answer
  bind := bind

/-- A statement that reads. -/
def query (read : σ → β) : Handler σ β := .statement id fun s => .answer (read s)

/-- What a statement leaves that may fail. -/
def written (write : σ → Except ε (β × σ)) (s : σ) : σ :=
  match write s with
  | .ok (_, s') => s'
  | .error _ => s

/-- A statement that writes, and leaves the state as it is where it fails. -/
def commit (write : σ → Except ε (β × σ)) : Handler σ (Except ε β) :=
  .statement (written write) fun s => .answer ((write s).map Prod.fst)

/-- A statement of a handler. -/
inductive Act : σ → Handler σ α → σ → Handler σ α → Prop
  | statement {s : σ} (effect : σ → σ) (next : σ → Handler σ α) :
      Act s (.statement effect next) (effect s) (next s)

/-- The answer of a handler that is alone, and the state it leaves. -/
def alone : Handler σ α → σ → α × σ
  | .answer a, s => (a, s)
  | .statement effect next, s => (next s).alone (effect s)

/-- A handler answers, with others at work between its statements. -/
inductive Completes (rely : σ → σ → Prop) : Handler σ α → σ → α → σ → Prop
  | answer (a : α) (s : σ) : Completes rely (.answer a) s a s
  | statement {effect : σ → σ} {next : σ → Handler σ α} {s s' s'' : σ} {a : α}
      (hrely : rely (effect s) s') (h : Completes rely (next s) s' a s'') :
      Completes rely (.statement effect next) s a s''

/-- From a state on, whatever others do between its statements, a handler changes nothing, and
what it answers has a property. -/
def Declines (rely : σ → σ → Prop) (p : α → Prop) : Handler σ α → σ → Prop
  | .answer a, _ => p a
  | .statement effect next, s =>
    effect s = s ∧ ∀ s', rely s s' → Declines rely p (next s) s'

/-- Each statement of a handler takes a state to one it is related to. -/
def Guarantees (R : σ → σ → Prop) : Handler σ α → Prop
  | .answer _ => True
  | .statement effect next => ∀ s, R s (effect s) ∧ (next s).Guarantees R

end Handler

/-- Handlers as tasks over the shared state. -/
def handlers {σ α : Type} (arrives : Handler σ α → Prop) (env : σ → σ → Prop) :
    Program σ (Handler σ α) where
  env := env
  start := arrives
  act := Handler.Act

/-- Tasks at work, and others that start, may bring the shared state from one to another. -/
def Program.Meanwhile {σ α : Type*} (P : Program σ α) (s s' : σ) : Prop :=
  ∃ start ts ts', Pool.Reachable P start ⟨s, ts⟩ ∧
    Relation.ReflTransGen (Pool.Step P) ⟨s, ts⟩ ⟨s', ts'⟩

theorem Program.Meanwhile.refl {σ α : Type*} (P : Program σ α) (s : σ) : P.Meanwhile s s :=
  ⟨s, [], [], .refl, .refl⟩

namespace Handler

variable {σ α β ε : Type} {rely R : σ → σ → Prop} {p : α → Prop} {s s' : σ} {a : α}

/-! ## Guarantees -/

namespace Guarantees

theorem bind {m : Handler σ β} {g : β → Handler σ α} (hm : m.Guarantees R)
    (hg : ∀ b, (g b).Guarantees R) : (m >>= g).Guarantees R := by
  induction m with
  | answer b => exact hg b
  | statement effect next ih => exact fun s => ⟨(hm s).1, ih s (hm s).2⟩

theorem answer (a : α) : (pure a : Handler σ α).Guarantees R := trivial

theorem query (hrefl : ∀ s, R s s) (read : σ → β) : (query read).Guarantees R :=
  fun s => ⟨hrefl s, trivial⟩

theorem commit (hrefl : ∀ s, R s s) {write : σ → Except ε (β × σ)}
    (h : ∀ s b s', write s = .ok (b, s') → R s s') : (commit write).Guarantees R := by
  intro s
  refine ⟨?_, trivial⟩
  unfold written
  split
  · next hwrite => exact h s _ _ hwrite
  · exact hrefl s

end Guarantees

/-- What all handlers guarantee, and the environment, holds between the states of a run. -/
theorem guaranteed_of_steps {arrives : Handler σ α → Prop} {env : σ → σ → Prop}
    (hrefl : ∀ s, R s s) (htrans : ∀ s s' s'', R s s' → R s' s'' → R s s'')
    (henv : ∀ s s', env s s' → R s s') (harrives : ∀ h, arrives h → h.Guarantees R)
    {start stop : Pool σ (Handler σ α)} (hstart : ∀ h ∈ start.tasks, h.Guarantees R)
    (hrun : Relation.ReflTransGen (Pool.Step (handlers arrives env)) start stop) :
    R start.shared stop.shared ∧ ∀ h ∈ stop.tasks, h.Guarantees R := by
  -- By induction on the run; what is left of every handler still guarantees the relation.
  induction hrun with
  | refl => exact ⟨hrefl _, hstart⟩
  | tail _ hstep ih =>
    obtain ⟨hR, htasks⟩ := ih
    cases hstep with
    | env ts h => exact ⟨htrans _ _ _ hR (henv _ _ h), htasks⟩
    | start s ts h => exact ⟨hR, List.forall_mem_cons.mpr ⟨harrives _ h, htasks⟩⟩
    | @act s _ _ _ before after h =>
      cases h with
      | statement effect next =>
        have hown := htasks (.statement effect next) (by simp) s
        exact ⟨htrans _ _ _ hR hown.1,
          forall_mem_middle htasks (fun _ _ hu => hu) fun _ => hown.2⟩

end Handler

/-- What all handlers guarantee, each of them can rely on. -/
theorem Program.Meanwhile.guaranteed {σ α : Type} {arrives : Handler σ α → Prop}
    {env R : σ → σ → Prop} {s s' : σ} (hrefl : ∀ s, R s s)
    (htrans : ∀ s s' s'', R s s' → R s' s'' → R s s'') (henv : ∀ s s', env s s' → R s s')
    (harrives : ∀ h, arrives h → h.Guarantees R) (h : (handlers arrives env).Meanwhile s s') :
    R s s' := by
  obtain ⟨start, ts, ts', hreached, hrun⟩ := h
  have htasks := (Handler.guaranteed_of_steps hrefl htrans henv harrives
    (fun _ h => absurd h List.not_mem_nil) hreached).2
  exact (Handler.guaranteed_of_steps hrefl htrans henv harrives htasks hrun).1

namespace Handler

variable {σ α β ε : Type} {rely : σ → σ → Prop} {p : α → Prop} {s s' : σ} {a a' : α}

/-! ## Handlers that answer -/

theorem completes_alone (hrefl : ∀ s, rely s s) (h : Handler σ α) (s : σ) :
    h.Completes rely s (h.alone s).1 (h.alone s).2 := by
  induction h generalizing s with
  | answer a => exact .answer a s
  | statement effect next ih => exact .statement (hrefl _) (ih s (effect s))

theorem completes_answer : (pure a : Handler σ α).Completes rely s a' s' ↔ a = a' ∧ s = s' := by
  constructor
  · intro h
    cases h
    exact ⟨rfl, rfl⟩
  · rintro ⟨rfl, rfl⟩
    exact .answer a s

theorem completes_query {read : σ → β} {g : β → Handler σ α} :
    (query read >>= g).Completes rely s a s' ↔
      ∃ s₁, rely s s₁ ∧ (g (read s)).Completes rely s₁ a s' := by
  constructor
  · intro h
    cases h with
    | statement hrely h => exact ⟨_, hrely, h⟩
  · rintro ⟨s₁, hrely, h⟩
    exact .statement hrely h

theorem completes_commit {write : σ → Except ε (β × σ)} {g : Except ε β → Handler σ α} :
    (commit write >>= g).Completes rely s a s' ↔
      ∃ s₁, rely (written write s) s₁ ∧
        (g ((write s).map Prod.fst)).Completes rely s₁ a s' := by
  constructor
  · intro h
    cases h with
    | statement hrely h => exact ⟨_, hrely, h⟩
  · rintro ⟨s₁, hrely, h⟩
    exact .statement hrely h

/-! ## Handlers that change nothing -/

@[simp] theorem declines_answer : (pure a : Handler σ α).Declines rely p s ↔ p a := Iff.rfl

theorem declines_query {read : σ → β} {g : β → Handler σ α} :
    (query read >>= g).Declines rely p s ↔
      ∀ s', rely s s' → (g (read s)).Declines rely p s' := by
  change id s = s ∧ _ ↔ _
  exact and_iff_right rfl

theorem declines_commit {write : σ → Except ε (β × σ)} {g : Except ε β → Handler σ α} :
    (commit write >>= g).Declines rely p s ↔ written write s = s ∧
      ∀ s', rely s s' → (g ((write s).map Prod.fst)).Declines rely p s' := Iff.rfl

end Handler

end Logit.Concurrency
