import Mathlib.Data.Nat.Find
import Mathlib.Order.Basic

/-!
# Interruptible programs

An asynchronous program runs from one suspension point to the next: a statement sent
to a database, a value handed to a consumer, a value awaited from a producer. At each
of them the program may be cancelled, before or after what it waits for has taken
effect, or what it waits for may fail. A failure is an exception a handler can catch;
a cancellation passes through such handlers and ends the program.

The suspension points of a run are counted, and a plan says what happens at each.

## Main definitions

* `Fate`, `Reached` — what happens at a suspension point, and how far a program gets
* `Action` — a program over a world, with the suspension points it has passed
* `suspend`, `attempt` — a suspension point, and a handler of exceptions
* `Keeps` — a property of the world that a program keeps however it ends
* `Triple` — what a program does up to the first point at which it is interrupted
* `Settles` — what is observed of a cancelled program changes at one of its points

## Main results

* `Keeps.bind`, `Keeps.suspend`, `Keeps.attempt` — rules for `Keeps`
* `Triple.bind`, `Triple.suspend`, `Triple.attempt` — rules for `Triple`
* `Triple.bind_quiet`, `Triple.bind_settled` — a program that settles, after and before one
  of which nothing is observed
-/

namespace Logit.Concurrency

/-- Why a program has stopped. -/
inductive Interrupt
  /-- An exception that handlers catch. -/
  | exception
  /-- A cancellation, which no handler of exceptions catches. -/
  | cancelled
  deriving DecidableEq, Repr

/-- What happens at a suspension point. -/
inductive Fate
  | proceed
  /-- What the program waits for fails. -/
  | fail
  /-- The program is cancelled; what it waits for may have taken effect. -/
  | cancel (done : Bool)
  deriving DecidableEq, Repr

/-- What the program waits for takes effect. -/
def Fate.Effective (fate : Fate) : Prop := fate = .proceed ∨ fate = .cancel true

instance (fate : Fate) : Decidable fate.Effective := inferInstanceAs (Decidable (_ ∨ _))

/-- A program gets as far as its `c`-th suspension point, and what it waits for there takes
effect. -/
def Reached (plan : ℕ → Fate) (c : ℕ) : Prop :=
  (∀ i < c, plan i = .proceed) ∧ (plan c).Effective

theorem reached_of_proceed {plan : ℕ → Fate} {c k : ℕ} (h : ∀ i < k, plan i = .proceed)
    (hc : c < k) : Reached plan c := ⟨fun i hi => h i (by omega), .inl (h c hc)⟩

/-- A program cancelled at a point has reached the points before it, and this one if what it
waited for has taken effect. -/
theorem reached_iff_of_cancelled {plan : ℕ → Fate} {c i : ℕ} {done : Bool}
    (hbefore : ∀ j < i, plan j = .proceed) (hat : plan i = .cancel done) :
    Reached plan c ↔ c < i ∨ c = i ∧ done = true := by
  constructor
  · rintro ⟨hproceed, heffective⟩
    rcases lt_trichotomy c i with hlt | rfl | hgt
    · exact .inl hlt
    · rw [hat] at heffective
      rcases heffective with h | h
      · cases h
      · exact .inr ⟨rfl, by injection h⟩
    · have hproceed := hproceed i hgt
      rw [hat] at hproceed
      cases hproceed
  · rintro (hlt | ⟨rfl, rfl⟩)
    · exact reached_of_proceed hbefore hlt
    · exact ⟨hbefore, .inr hat⟩

/-- The first point at which a program may not proceed. -/
theorem exists_first_not_proceed {plan : ℕ → Fate} {p k : ℕ}
    (h : ¬ ∀ i < k, plan (p + i) = .proceed) :
    ∃ i < k, (∀ j < i, plan (p + j) = .proceed) ∧ plan (p + i) ≠ .proceed := by
  have hsome : ∃ i, i < k ∧ plan (p + i) ≠ .proceed := by
    by_contra hnone
    exact h fun i hi => by_contra fun hne => hnone ⟨i, hi, hne⟩
  obtain ⟨hi, hne⟩ := Nat.find_spec hsome
  exact ⟨Nat.find hsome, hi, fun j hj => by_contra fun hne' =>
    Nat.find_min hsome hj ⟨by omega, hne'⟩, hne⟩

/-- A world, and the number of suspension points passed. -/
structure Frame (ω : Type) where
  point : ℕ
  world : ω

/-- A program over a world. -/
def Action (ω α : Type) : Type := Frame ω → Except Interrupt α × Frame ω

variable {ω α β : Type}

namespace Action

instance : Monad (Action ω) where
  pure a f := (.ok a, f)
  bind m g f :=
    match m f with
    | (.ok a, f') => g a f'
    | (.error e, f') => (.error e, f')

theorem bind_apply_ok {m : Action ω α} {g : α → Action ω β} {f f' : Frame ω} {a : α}
    (h : m f = (.ok a, f')) : (m >>= g) f = g a f' := by
  change (match m f with
    | (.ok a, f') => g a f'
    | (.error e, f') => (.error e, f')) = _
  rw [h]

theorem bind_apply_error {m : Action ω α} {g : α → Action ω β} {f f' : Frame ω} {e : Interrupt}
    (h : m f = (.error e, f')) : (m >>= g) f = (.error e, f') := by
  change (match m f with
    | (.ok a, f') => g a f'
    | (.error e, f') => (.error e, f')) = _
  rw [h]

/-- A program that ends has ended in both parts. -/
theorem bind_eq_ok {m : Action ω α} {g : α → Action ω β} {f f' : Frame ω} {b : β} :
    (m >>= g) f = (.ok b, f') ↔ ∃ a f₁, m f = (.ok a, f₁) ∧ g a f₁ = (.ok b, f') := by
  constructor
  · intro h
    rcases hrun : m f with ⟨e | a, f₁⟩
    · rw [bind_apply_error hrun] at h
      cases h
    · rw [bind_apply_ok hrun] at h
      exact ⟨a, f₁, rfl, h⟩
  · rintro ⟨a, f₁, hrun, h⟩
    rwa [bind_apply_ok hrun]

/-- A change of the world without a suspension point. -/
def modify (change : ω → ω) : Action ω Unit := fun f => (.ok (), { f with world := change f.world })

/-- The world as it is. -/
def get : Action ω ω := fun f => (.ok f.world, f)

/-- Stops with an exception. -/
def raise : Action ω α := fun f => (.error .exception, f)

/-- A suspension point: what the program waits for changes the world by `effect`, and leaves
`broken` where it fails. -/
def suspend (plan : ℕ → Fate) (broken effect : ω → ω) : Action ω Unit := fun f =>
  match plan f.point with
  | .proceed => (.ok (), ⟨f.point + 1, effect f.world⟩)
  | .fail => (.error .exception, ⟨f.point + 1, broken f.world⟩)
  | .cancel done =>
    (.error .cancelled, ⟨f.point + 1, if done then effect f.world else f.world⟩)

/-- `try … except Exception: handler; raise`. -/
def attempt (m : Action ω α) (handler : Action ω Unit) : Action ω α := fun f =>
  match m f with
  | (.error .exception, f') => (handler >>= fun _ => raise) f'
  | outcome => outcome

/-- `try … except Exception: log`. -/
def swallow (m : Action ω Unit) : Action ω Unit := fun f =>
  match m f with
  | (.error .exception, f') => (.ok (), f')
  | outcome => outcome

/-- What follows and changes nothing leaves what was there. -/
theorem bind_apply_snd {m : Action ω α} {g : α → Action ω β} (hg : ∀ a f, (g a f).2 = f)
    (f : Frame ω) : ((m >>= g) f).2 = (m f).2 := by
  rcases hrun : m f with ⟨e | a, f'⟩
  · rw [bind_apply_error hrun]
  · rw [bind_apply_ok hrun, hg]

theorem get_bind_apply (g : ω → Action ω β) (f : Frame ω) :
    (get >>= g) f = g f.world f := rfl

section Suspend

variable {plan : ℕ → Fate} {broken effect : ω → ω} {f : Frame ω}

theorem suspend_of_proceed (h : plan f.point = .proceed) :
    suspend plan broken effect f = (.ok (), ⟨f.point + 1, effect f.world⟩) := by
  rw [suspend, h]

theorem suspend_of_fail (h : plan f.point = .fail) :
    suspend plan broken effect f = (.error .exception, ⟨f.point + 1, broken f.world⟩) := by
  rw [suspend, h]

theorem suspend_of_cancel {done : Bool} (h : plan f.point = .cancel done) :
    suspend plan broken effect f =
      (.error .cancelled, ⟨f.point + 1, if done then effect f.world else f.world⟩) := by
  rw [suspend, h]

/-- A point that is passed has taken effect. -/
theorem suspend_ok {f' : Frame ω} (h : suspend plan broken effect f = (.ok (), f')) :
    f'.world = effect f.world := by
  cases hfate : plan f.point with
  | proceed =>
    rw [suspend_of_proceed hfate] at h
    exact (Prod.mk.inj h).2 ▸ rfl
  | fail =>
    rw [suspend_of_fail hfate] at h
    cases h
  | cancel done =>
    rw [suspend_of_cancel hfate] at h
    cases h

end Suspend

end Action

open Concurrency.Action

/-! ## Properties kept however a program ends -/

/-- The program keeps a property of the world, whether it ends, fails or is cancelled. -/
def Keeps (P : ω → Prop) (m : Action ω α) : Prop := ∀ f, P f.world → P (m f).2.world

namespace Keeps

variable {P : ω → Prop} {m : Action ω α}

theorem pure (a : α) : Keeps P (Pure.pure a : Action ω α) := fun _ h => h

theorem get : Keeps P (Action.get : Action ω ω) := fun _ h => h

theorem raise : Keeps P (Action.raise : Action ω α) := fun _ h => h

theorem modify {change : ω → ω} (h : ∀ w, P w → P (change w)) : Keeps P (Action.modify change) :=
  fun f hf => h f.world hf

theorem bind {g : α → Action ω β} (hm : Keeps P m) (hg : ∀ a, Keeps P (g a)) :
    Keeps P (m >>= g) := by
  intro f hf
  have hafter := hm f hf
  rcases hrun : m f with ⟨e | a, f'⟩
  · rw [hrun] at hafter
    rwa [bind_apply_error hrun]
  · rw [hrun] at hafter
    rw [bind_apply_ok hrun]
    exact hg a f' hafter

theorem suspend {plan : ℕ → Fate} {broken effect : ω → ω} (hbroken : ∀ w, P w → P (broken w))
    (heffect : ∀ w, P w → P (effect w)) : Keeps P (Action.suspend plan broken effect) := by
  intro f hf
  unfold Action.suspend
  split
  · exact heffect _ hf
  · exact hbroken _ hf
  · simp only
    split_ifs
    · exact heffect _ hf
    · exact hf

theorem attempt {handler : Action ω Unit} (hm : Keeps P m) (hhandler : Keeps P handler) :
    Keeps P (Action.attempt m handler) := by
  intro f hf
  have hafter := hm f hf
  unfold Action.attempt
  split
  · next f' hrun =>
    rw [hrun] at hafter
    exact (hhandler.bind fun _ => Keeps.raise) f' hafter
  · exact hafter

theorem swallow {m : Action ω Unit} (hm : Keeps P m) : Keeps P (Action.swallow m) := by
  intro f hf
  have hafter := hm f hf
  unfold Action.swallow
  split
  · next f' hrun =>
    rw [hrun] at hafter
    exact hafter
  · exact hafter

end Keeps

/-! ## Programs up to their first interruption -/

/-- From a world with `P`, the program passes `k` suspension points and ends in a world with
`Q` if it may proceed at all of them; if it is cancelled at the `i`-th, the first at which it
may not proceed, it leaves a world with `R i`. -/
def Triple (plan : ℕ → Fate) (k : ℕ) (P : ω → Prop) (m : Action ω α) (Q : α → ω → Prop)
    (R : ℕ → Bool → ω → Prop) : Prop :=
  ∀ f, P f.world →
    ((∀ i < k, plan (f.point + i) = .proceed) →
      ∃ a w, m f = (.ok a, ⟨f.point + k, w⟩) ∧ Q a w) ∧
    ∀ i < k, ∀ done, (∀ j < i, plan (f.point + j) = .proceed) →
      plan (f.point + i) = .cancel done →
      ∃ f', m f = (.error .cancelled, f') ∧ R i done f'.world

namespace Triple

variable {plan : ℕ → Fate} {j k : ℕ} {P : ω → Prop} {m : Action ω α} {Q : α → ω → Prop}
  {R : ℕ → Bool → ω → Prop}

theorem pure {a : α} (h : ∀ w, P w → Q a w) : Triple plan 0 P (Pure.pure a) Q R := fun f hf =>
  ⟨fun _ => ⟨a, f.world, rfl, h _ hf⟩, fun i hi => absurd hi (by omega)⟩

theorem modify {change : ω → ω} {Q : Unit → ω → Prop} (h : ∀ w, P w → Q () (change w)) :
    Triple plan 0 P (Action.modify change) Q R := fun f hf =>
  ⟨fun _ => ⟨(), change f.world, rfl, h _ hf⟩, fun i hi => absurd hi (by omega)⟩

/-- A program that begins by reading the world is judged by the world it reads. -/
theorem get_bind {g : ω → Action ω β} {Q : β → ω → Prop}
    (h : ∀ w₀, P w₀ → Triple plan k (fun w => w = w₀) (g w₀) Q R) :
    Triple plan k P (Action.get >>= g) Q R := fun f hf => h f.world hf f rfl

/-- A fact about no world may be taken out of what holds before a program. -/
theorem of_imp {p : Prop} (h : p → Triple plan k P m Q R) :
    Triple plan k (fun w => p ∧ P w) m Q R := fun f hf => h hf.1 f hf.2

/-- The suspension points of the second program follow those of the first. -/
theorem bind {g : α → Action ω β} {Q' : β → ω → Prop} (hm : Triple plan j P m Q R)
    (hg : ∀ a, Triple plan k (Q a) (g a) Q' fun i => R (j + i)) :
    Triple plan (j + k) P (m >>= g) Q' R := by
  intro f hf
  obtain ⟨hproceed, hcancel⟩ := hm f hf
  constructor
  · intro hall
    obtain ⟨a, w, hrun, hQ⟩ := hproceed fun i hi => hall i (by omega)
    obtain ⟨hproceed', -⟩ := hg a ⟨f.point + j, w⟩ hQ
    rw [bind_apply_ok hrun, ← Nat.add_assoc]
    apply hproceed'
    intro i hi
    rw [Nat.add_assoc]
    exact hall (j + i) (by omega)
  · intro i hi done hbefore hat
    by_cases hij : i < j
    -- The first program is cancelled, and the second does not start.
    · obtain ⟨f', hrun, hR⟩ := hcancel i hij done hbefore hat
      exact ⟨f', bind_apply_error hrun, hR⟩
    -- The first program ends, and the point is one of the second program.
    · obtain ⟨i, rfl⟩ := Nat.exists_eq_add_of_le (not_lt.mp hij)
      obtain ⟨a, w, hrun, hQ⟩ := hproceed fun i' hi' => hbefore i' (by omega)
      rw [bind_apply_ok hrun]
      rw [← Nat.add_assoc] at hat
      apply (hg a ⟨f.point + j, w⟩ hQ).2 i (by omega) done _ hat
      intro i' hi'
      rw [Nat.add_assoc]
      exact hbefore (j + i') (by omega)

theorem suspend {broken effect : ω → ω} {Q : Unit → ω → Prop}
    (heffect : ∀ w, P w → Q () (effect w))
    (hcancel : ∀ w, P w → R 0 false w ∧ R 0 true (effect w)) :
    Triple plan 1 P (Action.suspend plan broken effect) Q R := by
  intro f hf
  constructor
  · intro hall
    have hproceed : plan f.point = .proceed := hall 0 (by omega)
    exact ⟨(), effect f.world, by simp [Action.suspend, hproceed], heffect _ hf⟩
  · intro i hi done _ hat
    obtain rfl : i = 0 := by omega
    have hfate : plan f.point = .cancel done := hat
    refine ⟨⟨f.point + 1, if done then effect f.world else f.world⟩,
      by simp [Action.suspend, hfate], ?_⟩
    cases done
    · exact (hcancel _ hf).1
    · exact (hcancel _ hf).2

theorem mono {P' : ω → Prop} {Q' : α → ω → Prop} {R' : ℕ → Bool → ω → Prop}
    (h : Triple plan k P m Q R) (hP : ∀ w, P' w → P w) (hQ : ∀ a w, Q a w → Q' a w)
    (hR : ∀ i < k, ∀ done w, R i done w → R' i done w) : Triple plan k P' m Q' R' := by
  intro f hf
  obtain ⟨hproceed, hcancel⟩ := h f (hP _ hf)
  constructor
  · intro hall
    obtain ⟨a, w, hrun, hw⟩ := hproceed hall
    exact ⟨a, w, hrun, hQ a w hw⟩
  · intro i hi done hbefore hat
    obtain ⟨f', hrun, hf'⟩ := hcancel i hi done hbefore hat
    exact ⟨f', hrun, hR i hi done _ hf'⟩

/-- A handler of exceptions does not see a program that ends or is cancelled. -/
theorem attempt {handler : Action ω Unit} (h : Triple plan k P m Q R) :
    Triple plan k P (Action.attempt m handler) Q R := by
  intro f hf
  obtain ⟨hproceed, hcancel⟩ := h f hf
  constructor
  · intro hall
    obtain ⟨a, w, hrun, hw⟩ := hproceed hall
    exact ⟨a, w, by simp [Action.attempt, hrun], hw⟩
  · intro i hi done hbefore hat
    obtain ⟨f', hrun, hf'⟩ := hcancel i hi done hbefore hat
    exact ⟨f', by simp [Action.attempt, hrun], hf'⟩

theorem swallow {m : Action ω Unit} {Q : Unit → ω → Prop} (h : Triple plan k P m Q R) :
    Triple plan k P (Action.swallow m) Q R := by
  intro f hf
  obtain ⟨hproceed, hcancel⟩ := h f hf
  constructor
  · intro hall
    obtain ⟨a, w, hrun, hw⟩ := hproceed hall
    exact ⟨a, w, by simp [Action.swallow, hrun], hw⟩
  · intro i hi done hbefore hat
    obtain ⟨f', hrun, hf'⟩ := hcancel i hi done hbefore hat
    exact ⟨f', by simp [Action.swallow, hrun], hf'⟩

/-- A plan without failures either lets the program proceed or cancels it at some point. -/
theorem cases (h : Triple plan k P m Q R) (hfail : ∀ i, plan i ≠ .fail) (f : Frame ω)
    (hf : P f.world) :
    (∃ a w, m f = (.ok a, ⟨f.point + k, w⟩) ∧ Q a w ∧
      ∀ i < k, plan (f.point + i) = .proceed) ∨
    ∃ i < k, ∃ done f', m f = (.error .cancelled, f') ∧ R i done f'.world ∧
      (∀ j < i, plan (f.point + j) = .proceed) ∧ plan (f.point + i) = .cancel done := by
  obtain ⟨hproceed, hcancel⟩ := h f hf
  by_cases hall : ∀ i < k, plan (f.point + i) = .proceed
  · obtain ⟨a, w, hrun, hw⟩ := hproceed hall
    exact .inl ⟨a, w, hrun, hw, hall⟩
  · obtain ⟨i, hi, hbefore, hne⟩ := exists_first_not_proceed hall
    cases hfate : plan (f.point + i) with
    | proceed => exact absurd hfate hne
    | fail => exact absurd hfate (hfail _)
    | cancel done =>
      obtain ⟨f', hrun, hf'⟩ := hcancel _ hi done hbefore hfate
      exact .inr ⟨_, hi, done, f', hrun, hf', hbefore, hfate⟩

end Triple

/-! ## Programs that settle at one point -/

section Settles

variable {γ : Type} {observe : ω → γ} {plan : ℕ → Fate} {before after : γ} {c i j k : ℕ}

/-- Wherever it is cancelled, a program is observed as `value`. -/
def Quiet (observe : ω → γ) (value : γ) : ℕ → Bool → ω → Prop := fun _ _ w => observe w = value

/-- A program is observed as `before` if it is cancelled before its `c`-th point has taken
effect, and as `after` from there on. -/
def Settles (observe : ω → γ) (c : ℕ) (before after : γ) : ℕ → Bool → ω → Prop :=
  fun i done w => observe w = if c < i ∨ c = i ∧ done = true then after else before

theorem Quiet.settles_before {done : Bool} {w : ω} (h : Quiet observe before i done w)
    (hi : i < c) : Settles observe c before after i done w := by
  rw [Settles, if_neg (by omega)]
  exact h

theorem Quiet.settles_after {done : Bool} {w : ω} (h : Quiet observe after i done w)
    (hi : c < i) : Settles observe c before after i done w := by
  rw [Settles, if_pos (.inl hi)]
  exact h

theorem settles_add {done : Bool} {w : ω} :
    Settles observe (j + c) before after (j + i) done w ↔
      Settles observe c before after i done w := by
  simp [Settles]

/-- A program that settles after another through which nothing is observed. -/
theorem Triple.bind_quiet {P : ω → Prop} {m : Action ω α} {Q : α → ω → Prop}
    {g : α → Action ω β} {Q' : β → ω → Prop} (hm : Triple plan j P m Q (Quiet observe before))
    (hg : ∀ a, Triple plan k (Q a) (g a) Q' (Settles observe c before after)) :
    Triple plan (j + k) P (m >>= g) Q' (Settles observe (j + c) before after) := by
  apply Triple.bind (Q := Q)
  · apply hm.mono (fun _ h => h) (fun _ _ h => h)
    intro i hi done w h
    exact h.settles_before (by omega)
  · intro a
    apply (hg a).mono (fun _ h => h) (fun _ _ h => h)
    intro i hi done w h
    exact settles_add.mpr h

/-- A program that settles before another through which nothing is observed. -/
theorem Triple.bind_settled {P : ω → Prop} {m : Action ω α} {Q : α → ω → Prop}
    {g : α → Action ω β} {Q' : β → ω → Prop}
    (hm : Triple plan j P m Q (Settles observe c before after)) (hc : c < j)
    (hg : ∀ a, Triple plan k (Q a) (g a) Q' (Quiet observe after)) :
    Triple plan (j + k) P (m >>= g) Q' (Settles observe c before after) := by
  apply hm.bind
  intro a
  apply (hg a).mono (fun _ h => h) (fun _ _ h => h)
  intro i hi done w h
  exact Quiet.settles_after (i := j + i) h (by omega)

end Settles

end Logit.Concurrency
