import Logit.Concurrency.Interruptible

/-!
# What a program leaves

A program over a world may end with a value, or stop with an exception or a cancellation at
any of its suspension points. What it leaves is judged in both cases, whatever the plan of its
suspension points.

## Main definitions

* `Ensures` — what a program leaves where it ends, and where it stops

## Main results

* `Ensures.bind`, `Ensures.suspend`, `Ensures.attempt` — rules for `Ensures`
* `Ensures.of_keeps` — a property that a program keeps
-/

namespace Logit.Concurrency

open Concurrency.Action

variable {ω α β : Type}

/-- From a world with `P`, the program leaves one with `Q` where it ends with a value, and one
with `E` where it stops. -/
def Ensures (P : ω → Prop) (m : Action ω α) (Q : α → ω → Prop) (E : ω → Prop) : Prop :=
  ∀ f, P f.world → (∀ a f', m f = (.ok a, f') → Q a f'.world) ∧
    ∀ e f', m f = (.error e, f') → E f'.world

namespace Ensures

variable {P E : ω → Prop} {m : Action ω α} {Q : α → ω → Prop}

theorem of_keeps (h : Keeps P m) : Ensures P m (fun _ => P) P := by
  refine fun f hf => ⟨fun a f' hrun => ?_, fun e f' hrun => ?_⟩
  · simpa [hrun] using h f hf
  · simpa [hrun] using h f hf

theorem mono {Q' : α → ω → Prop} {E' : ω → Prop} (h : Ensures P m Q E)
    (hQ : ∀ a w, Q a w → Q' a w) (hE : ∀ w, E w → E' w) : Ensures P m Q' E' := fun f hf =>
  ⟨fun a f' hrun => hQ a _ ((h f hf).1 a f' hrun), fun e f' hrun => hE _ ((h f hf).2 e f' hrun)⟩

theorem pure {a : α} (h : ∀ w, P w → Q a w) : Ensures P (Pure.pure a) Q E := by
  refine fun f hf => ⟨fun b f' hrun => ?_, fun e f' hrun => ?_⟩
  · cases hrun
    exact h _ hf
  · cases hrun

theorem raise (h : ∀ w, P w → E w) : Ensures P (Action.raise : Action ω α) Q E := by
  refine fun f hf => ⟨fun b f' hrun => ?_, fun e f' hrun => ?_⟩
  · cases hrun
  · cases hrun
    exact h _ hf

theorem modify {change : ω → ω} {Q : Unit → ω → Prop} (h : ∀ w, P w → Q () (change w)) :
    Ensures P (Action.modify change) Q E := by
  refine fun f hf => ⟨fun b f' hrun => ?_, fun e f' hrun => ?_⟩
  · cases hrun
    exact h _ hf
  · cases hrun

theorem bind {g : α → Action ω β} {Q' : β → ω → Prop} (hm : Ensures P m Q E)
    (hg : ∀ a, Ensures (Q a) (g a) Q' E) : Ensures P (m >>= g) Q' E := by
  intro f hf
  obtain ⟨hvalue, hstop⟩ := hm f hf
  rcases hrun : m f with ⟨e | a, f'⟩
  · rw [bind_apply_error hrun]
    refine ⟨fun b f'' heq => ?_, fun e' f'' heq => ?_⟩
    · cases heq
    · cases heq
      exact hstop e f' hrun
  · rw [bind_apply_ok hrun]
    exact hg a f' (hvalue a f' hrun)

/-- What is waited for takes effect, fails, or is cancelled before or after its effect. -/
theorem suspend {plan : ℕ → Fate} {broken effect : ω → ω} {Q : Unit → ω → Prop}
    (heffect : ∀ w, P w → Q () (effect w))
    (hstop : ∀ w, P w → E (broken w) ∧ E (effect w) ∧ E w) :
    Ensures P (Action.suspend plan broken effect) Q E := by
  intro f hf
  obtain ⟨hbroken, hdone, hwaiting⟩ := hstop _ hf
  cases hfate : plan f.point with
  | proceed =>
    rw [suspend_of_proceed hfate]
    refine ⟨fun b f' hrun => ?_, fun e f' hrun => ?_⟩
    · cases hrun
      exact heffect _ hf
    · cases hrun
  | fail =>
    rw [suspend_of_fail hfate]
    refine ⟨fun b f' hrun => ?_, fun e f' hrun => ?_⟩
    · cases hrun
    · cases hrun
      exact hbroken
  | cancel done =>
    rw [suspend_of_cancel hfate]
    refine ⟨fun b f' hrun => ?_, fun e f' hrun => ?_⟩
    · cases hrun
    · cases hrun
      cases done
      · exact hwaiting
      · exact hdone

/-- A handler of exceptions that keeps what a stopped program leaves. -/
theorem attempt {handler : Action ω Unit} (hm : Ensures P m Q E) (hhandler : Keeps E handler) :
    Ensures P (Action.attempt m handler) Q E := by
  intro f hf
  obtain ⟨hvalue, hstop⟩ := hm f hf
  unfold Action.attempt
  split
  · next f' hrun =>
    have hraised := (of_keeps (hhandler.bind fun _ => (Keeps.raise : Keeps E (Action.raise :
      Action ω α)))) f' (hstop .exception f' hrun)
    refine ⟨fun a f'' heq => ?_, hraised.2⟩
    obtain ⟨b, f₁, -, hraise⟩ := bind_eq_ok.mp heq
    cases hraise
  · exact ⟨hvalue, hstop⟩

/-- What a program leaves, however it is over. -/
theorem leaves {R : ω → Prop} (h : Ensures P m Q E) (hQ : ∀ a w, Q a w → R w)
    (hE : ∀ w, E w → R w) (f : Frame ω) (hf : P f.world) : R (m f).2.world := by
  obtain ⟨hvalue, hstop⟩ := h f hf
  rcases hrun : m f with ⟨e | a, f'⟩
  · exact hE _ (hstop e f' hrun)
  · exact hQ a _ (hvalue a f' hrun)

theorem keeps (h : Ensures P m (fun _ => P) P) : Keeps P m :=
  h.leaves (fun _ _ hw => hw) fun _ hw => hw

/-- A program that begins by reading the world is judged by the world it reads. -/
theorem get_bind {g : ω → Action ω β} {Q : β → ω → Prop}
    (h : ∀ w₀, P w₀ → Ensures (fun w => w = w₀) (g w₀) Q E) :
    Ensures P (Action.get >>= g) Q E := fun f hf => h f.world hf f rfl

end Ensures

end Logit.Concurrency
