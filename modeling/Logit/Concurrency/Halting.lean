import Logit.Concurrency.Interruptible

/-!
# Programs that do not proceed

What an interruptible program leaves where it first meets a suspension point at which it may
not proceed, whether what it waits for fails there or the program is cancelled. A handler of
exceptions may then go on, so what is left depends on the plan from there on as well; the
rules below need only say what the rest of a program keeps.

## Main definitions

* `ending` — how a program ends
* `Halts` — what a program leaves, by the first point at which it may not proceed

## Main results

* `Halts.bind`, `Halts.suspend`, `Halts.attempt`, `Halts.swallow` — rules for `Halts`
* `Halts.cases` — a program runs to its end, or halts
-/

namespace Logit.Concurrency

open Concurrency.Action

variable {ω α β : Type}

/-- How a program ends: interrupted, or with a value. -/
def ending : Except Interrupt α → Option Interrupt
  | .ok _ => none
  | .error e => some e

@[simp] theorem ending_ok (a : α) : ending (.ok a) = none := rfl

@[simp] theorem ending_error (e : Interrupt) : ending (.error e : Except Interrupt α) = some e :=
  rfl

/-- A program in which something fails at a point has reached the points before it. -/
theorem reached_iff_of_failed {plan : ℕ → Fate} {c i : ℕ} (hbefore : ∀ j < i, plan j = .proceed)
    (hat : plan i = .fail) : Reached plan c ↔ c < i := by
  constructor
  · rintro ⟨hproceed, heffective⟩
    by_contra hge
    rcases (not_lt.mp hge).eq_or_lt with rfl | hlt
    · rcases heffective with h | h <;> cases hat.symm.trans h
    · cases hat.symm.trans (hproceed i hlt)
  · exact reached_of_proceed hbefore

/-- From a world with `P`, if the `i`-th of the first `k` suspension points is the first at which
the program may not proceed, then `R i` holds of what happens there, how the program ends and the
world it leaves. -/
def Halts (plan : ℕ → Fate) (k : ℕ) (P : ω → Prop) (m : Action ω α)
    (R : ℕ → Fate → Option Interrupt → ω → Prop) : Prop :=
  ∀ f, P f.world → ∀ i < k, (∀ j < i, plan (f.point + j) = .proceed) →
    plan (f.point + i) ≠ .proceed →
      R i (plan (f.point + i)) (ending (m f).1) (m f).2.world

namespace Halts

variable {plan : ℕ → Fate} {j k : ℕ} {P : ω → Prop} {m : Action ω α} {Q : α → ω → Prop}
  {R R' : ℕ → Fate → Option Interrupt → ω → Prop} {R₀ : ℕ → Bool → ω → Prop}

/-- A program without suspension points does not halt. -/
theorem zero : Halts plan 0 P m R := fun _ _ _ hi => absurd hi (by omega)

theorem mono (h : Halts plan k P m R) (hR : ∀ i < k, ∀ fate e w, R i fate e w → R' i fate e w) :
    Halts plan k P m R' := fun f hf i hi hbefore hat =>
  hR i hi _ _ _ (h f hf i hi hbefore hat)

theorem pre {P' : ω → Prop} (h : Halts plan k P m R) (hP : ∀ w, P' w → P w) :
    Halts plan k P' m R := fun f hf => h f (hP _ hf)

/-- A program that begins by reading the world is judged by the world it reads. -/
theorem get_bind {g : ω → Action ω β} (h : ∀ w₀, P w₀ → Halts plan k (fun w => w = w₀) (g w₀) R) :
    Halts plan k P (Action.get >>= g) R := fun f hf => h f.world hf f rfl

/-- A fact about no world may be taken out of what holds before a program. -/
theorem of_imp {p : Prop} (h : p → Halts plan k P m R) : Halts plan k (fun w => p ∧ P w) m R :=
  fun f hf => h hf.1 f hf.2

/-- The first program halts and the second does not start, unless the first ends all the same; or
the first proceeds and the second halts. -/
theorem bind {g : α → Action ω β} (hm : Triple plan j P m Q R₀) (hhalts : Halts plan j P m R)
    (hg : ∀ a, Halts plan k (Q a) (g a) fun i => R (j + i))
    (hrest : ∀ i < j, ∀ fate w, R i fate none w → ∀ a f, f.world = w →
      R i fate (ending (g a f).1) (g a f).2.world) :
    Halts plan (j + k) P (m >>= g) R := by
  intro f hf i hi hbefore hat
  by_cases hij : i < j
  · have hR := hhalts f hf i hij hbefore hat
    rcases hrun : m f with ⟨e | a, f'⟩
    · rw [hrun] at hR
      rwa [bind_apply_error hrun]
    · rw [hrun] at hR
      rw [bind_apply_ok hrun]
      exact hrest i hij _ _ hR a f' rfl
  · obtain ⟨i, rfl⟩ := Nat.exists_eq_add_of_le (not_lt.mp hij)
    obtain ⟨a, w, hrun, hQ⟩ := (hm f hf).1 fun i' hi' => hbefore i' (by omega)
    rw [bind_apply_ok hrun]
    rw [← Nat.add_assoc] at hat ⊢
    apply hg a ⟨f.point + j, w⟩ hQ i (by omega) _ hat
    intro i' hi'
    rw [Nat.add_assoc]
    exact hbefore (j + i') (by omega)

/-- After a program without suspension points. -/
theorem bind_zero {g : α → Action ω β} (hm : Triple plan 0 P m Q R₀)
    (hg : ∀ a, Halts plan k (Q a) (g a) R) : Halts plan k P (m >>= g) R := by
  have hbind := bind (R := R) hm zero (fun a => (hg a).mono fun i _ fate e w h => by
    rwa [Nat.zero_add]) (fun i hi => absurd hi (by omega))
  rwa [Nat.zero_add] at hbind

theorem suspend {broken effect : ω → ω}
    (hfail : ∀ w, P w → R 0 .fail (some .exception) (broken w))
    (hcancel : ∀ w, P w → R 0 (.cancel false) (some .cancelled) w ∧
      R 0 (.cancel true) (some .cancelled) (effect w)) :
    Halts plan 1 P (Action.suspend plan broken effect) R := by
  intro f hf i hi _ hat
  obtain rfl : i = 0 := by omega
  rw [Nat.add_zero] at hat ⊢
  cases hfate : plan f.point with
  | proceed => exact absurd hfate hat
  | fail =>
    simp only [Action.suspend, hfate]
    exact hfail _ hf
  | cancel done =>
    simp only [Action.suspend, hfate]
    cases done
    · exact (hcancel _ hf).1
    · exact (hcancel _ hf).2

/-- A handler runs in the world an exception leaves, and the exception is raised again. -/
theorem attempt {handler : Action ω Unit} (h : Halts plan k P m R)
    (hpass : ∀ i < k, ∀ fate e w, e ≠ some .exception → R i fate e w → R' i fate e w)
    (hhandled : ∀ i < k, ∀ fate f, R i fate (some .exception) f.world →
      R' i fate (ending ((handler >>= fun _ => (Action.raise : Action ω α)) f).1)
        ((handler >>= fun _ => (Action.raise : Action ω α)) f).2.world) :
    Halts plan k P (Action.attempt m handler) R' := by
  intro f hf i hi hbefore hat
  have hR := h f hf i hi hbefore hat
  rcases hrun : m f with ⟨e | a, f'⟩
  · rw [hrun] at hR
    cases e with
    | exception =>
      simp only [Action.attempt, hrun]
      exact hhandled i hi _ f' hR
    | cancelled =>
      simp only [Action.attempt, hrun]
      exact hpass i hi _ _ _ (by simp) hR
  · rw [hrun] at hR
    simp only [Action.attempt, hrun]
    exact hpass i hi _ _ _ (by simp) hR

/-- An exception that is swallowed counts as an end. -/
theorem swallow {m : Action ω Unit} (h : Halts plan k P m R)
    (hpass : ∀ i < k, ∀ fate e w, e ≠ some .exception → R i fate e w → R' i fate e w)
    (hswallowed : ∀ i < k, ∀ fate w, R i fate (some .exception) w → R' i fate none w) :
    Halts plan k P (Action.swallow m) R' := by
  intro f hf i hi hbefore hat
  have hR := h f hf i hi hbefore hat
  rcases hrun : m f with ⟨e | a, f'⟩
  · rw [hrun] at hR
    cases e with
    | exception =>
      simp only [Action.swallow, hrun]
      exact hswallowed i hi _ _ hR
    | cancelled =>
      simp only [Action.swallow, hrun]
      exact hpass i hi _ _ _ (by simp) hR
  · rw [hrun] at hR
    simp only [Action.swallow, hrun]
    exact hpass i hi _ _ _ (by simp) hR

/-- A program runs to its end, or halts at some point. -/
theorem cases (h : Halts plan k P m R) (hm : Triple plan k P m Q R₀) (f : Frame ω)
    (hf : P f.world) :
    (∃ a w, m f = (.ok a, ⟨f.point + k, w⟩) ∧ Q a w ∧
      ∀ i < k, plan (f.point + i) = .proceed) ∨
    ∃ i < k, (∀ j < i, plan (f.point + j) = .proceed) ∧ plan (f.point + i) ≠ .proceed ∧
      R i (plan (f.point + i)) (ending (m f).1) (m f).2.world := by
  by_cases hall : ∀ i < k, plan (f.point + i) = .proceed
  · obtain ⟨a, w, hrun, hw⟩ := (hm f hf).1 hall
    exact .inl ⟨a, w, hrun, hw, hall⟩
  · obtain ⟨i, hi, hbefore, hat⟩ := exists_first_not_proceed hall
    exact .inr ⟨i, hi, hbefore, hat, h f hf i hi hbefore hat⟩

end Halts

end Logit.Concurrency
