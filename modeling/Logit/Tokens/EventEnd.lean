import Logit.Tokens.Attendance

/-!
# The end of the event

A check-in that finds too little left in the counter gives its tokens back and sets the flag
that ends the event; nothing clears the flag. The counter a check-in finds may be low only
because another one has taken tokens that it gives back later, when its database part fails.
Then the event has ended although the counter holds tokens again.

As long as nobody raises the counter while the event is ending, what is in it and what is
about to be given back stay together below the tokens of one attendance.

## Main definitions

* `Closing` — the event has ended, or a check-in is about to end it
* `Undisturbed` — no check-in raises the counter while the event is ending
* `Spent` — while the event is ending, too little is left in the counter

## Main results

* `Spent.step` — every action keeps what is left too little, if the end is undisturbed
* `pool_short_of_reachable` — once the event has ended and no check-in is at work, the counter
  is below the tokens of an attendance
-/

namespace Logit.Tokens

open Calendar Concurrency Python

/-- A check-in has neither returned nor raised an exception. -/
def Pc.inFlight : Pc → Bool
  | .returned .. | .raised | .finished => false
  | _ => true

/-- A check-in sets the flag after these commands, unless it is cut off. -/
def Pc.closing : Pc → Bool
  | .setEnded | .giveBack | .markEnded => true
  | _ => false

/-- What a check-in is about to give back because it was too much to take. -/
def Pc.owed : Pc → ℤ
  | .giveBack => ATTENDANCE_TOKENS
  | _ => 0

/-- What a check-in is about to give back. -/
def CheckIn.owed (t : CheckIn) : ℤ := t.pc.owed

/-- The event has ended, or a check-in is about to end it. -/
def Closing (p : Pool Shared CheckIn) : Prop :=
  p.shared.ended = true ∨ ∃ t ∈ p.tasks, t.pc.closing = true

/-- A check-in is about to raise the counter: to undo its decrement after an exception in the
database, or to set it to more than it holds. -/
def AboutToRaise (s : Shared) (t : CheckIn) : Prop :=
  t.pc = .undo ∨ ∃ remaining, t.pc = .setPool remaining ∧ ∃ present ∈ s.pool, present < remaining

/-- No check-in raises the counter while the event is ending. -/
def Undisturbed (p : Pool Shared CheckIn) (t : CheckIn) (s' : Shared) : Prop :=
  Closing p → AboutToRaise p.shared t → s'.pool = p.shared.pool

/-- While the event is ending, too little is left in the counter, even with all that is about
to be given back; and nobody ends it before the counter is there. -/
structure Spent (p : Pool Shared CheckIn) : Prop where
  short : Closing p → ∀ present ∈ p.shared.pool,
    present + total CheckIn.owed p.tasks < ATTENDANCE_TOKENS
  early : p.shared.pool = none → p.shared.ended = false ∧ ∀ t ∈ p.tasks, t.pc.early = true

variable {s s' : Shared} {t t' : CheckIn}

/-! ## One action -/

/-- What an action does to the counter and to the end of the event. -/
inductive CheckIn.EndEffect (s : Shared) (t : CheckIn) (s' : Shared) (t' : CheckIn) : Prop
  /-- The counter stays, and the end is no nearer. -/
  | keep (hpool : s'.pool = s.pool)
      (hended : s'.ended = true → s.ended = true ∨ t.pc.closing = true)
      (hclosing : t'.pc.closing = true → t.pc.closing = true) (howed : t'.owed ≤ t.owed)
      (hearly : s.pool = none → t.pc.early = true → t'.pc.early = true)
  /-- The counter is set. -/
  | set (remaining : ℤ) (hpc : t.pc = .setPool remaining) (hpool : s'.pool = some remaining)
      (hended : s'.ended = s.ended) (howed : t'.owed = 0)
      (hclosing : t'.pc.closing = true → remaining < ATTENDANCE_TOKENS)
  /-- Enough is there to be taken. -/
  | take (hpc : t.pc = .decrement)
      (hpool : s'.pool = some (s.pool.getD 0 - ATTENDANCE_TOKENS))
      (hended : s'.ended = s.ended) (hpc' : t'.pc = .record)
      (henough : ATTENDANCE_TOKENS ≤ s.pool.getD 0)
  /-- Too much is taken, to be given back. -/
  | overdraw (hpc : t.pc = .decrement)
      (hpool : s'.pool = some (s.pool.getD 0 - ATTENDANCE_TOKENS))
      (hended : s'.ended = s.ended) (hpc' : t'.pc = .giveBack)
      (hshort : s.pool.getD 0 < ATTENDANCE_TOKENS)
  /-- What was too much is given back. -/
  | giveBack (hpc : t.pc = .giveBack)
      (hpool : s'.pool = some (s.pool.getD 0 + ATTENDANCE_TOKENS))
      (hended : s'.ended = s.ended) (hpc' : t'.pc = .markEnded)
  /-- A decrement is undone. -/
  | undo (hpc : t.pc = .undo)
      (hpool : s'.pool = some (s.pool.getD 0 + ATTENDANCE_TOKENS))
      (hended : s'.ended = s.ended) (hpc' : t'.pc = .undoRelease)

/-- An action that leaves the counter and the flag, and goes on to a command that neither
ends the event nor gives anything back. -/
theorem CheckIn.EndEffect.goOn (hpool : s'.pool = s.pool) (hended : s'.ended = s.ended)
    (hclosing : t'.pc.closing = false) (howed : t'.owed ≤ t.owed)
    (hearly : s.pool = none → t.pc.early = true → t'.pc.early = true) :
    CheckIn.EndEffect s t s' t' := by
  refine .keep hpool (fun h => .inl (hended ▸ h)) (fun h => ?_) howed hearly
  rw [hclosing] at h
  exact absurd h Bool.false_ne_true

theorem CheckIn.owed_nonneg (t : CheckIn) : 0 ≤ t.owed := by
  have hamount : (0 : ℤ) ≤ ATTENDANCE_TOKENS := by decide
  unfold CheckIn.owed Pc.owed
  split <;> omega

theorem redisStep_endEffect (h : redisStep s t = some (s', t')) : CheckIn.EndEffect s t s' t' := by
  obtain ⟨pc, rfl, hcommand⟩ := redisStep_cases h
  cases hcommand with
  | found _ hpool =>
    refine .goOn rfl rfl rfl t.owed_nonneg fun hnone _ => ?_
    rw [hpool] at hnone
    cases hnone
  | setShort hpc hshort => exact .set _ hpc rfl rfl rfl fun _ => hshort
  | set hpc => exact .set _ hpc rfl rfl rfl fun hclosing => absurd hclosing Bool.false_ne_true
  | setEnded hpc =>
    refine .keep rfl (fun _ => .inr (by simp [hpc, Pc.closing])) ?_ t.owed_nonneg ?_ <;>
      simp [hpc, Pc.closing, Pc.early]
  | overdraw hpc hshort => exact .overdraw hpc rfl rfl rfl hshort
  | take hpc henough => exact .take hpc rfl rfl rfl henough
  | giveBack hpc => exact .giveBack hpc rfl rfl rfl
  | markEnded hpc =>
    refine .keep rfl (fun _ => .inr (by simp [hpc, Pc.closing])) ?_ t.owed_nonneg ?_ <;>
      simp [hpc, Pc.closing, Pc.early]
  | undo hpc => exact .undo hpc rfl rfl rfl
  | _ => exact .goOn rfl rfl rfl t.owed_nonneg fun _ _ => rfl

@[simp] theorem dropLog_ended (s : Shared) (t : CheckIn) : (s.dropLog t).ended = s.ended := by
  unfold Shared.dropLog
  split <;> rfl

theorem CheckIn.Act.endEffect (h : CheckIn.Act s t s' t') : CheckIn.EndEffect s t s' t' := by
  cases h with
  | redis h => exact redisStep_endEffect h
  | record clock row hpc hindex => exact .goOn rfl rfl rfl t.owed_nonneg fun _ _ => rfl
  | recordFails hpc =>
    refine .goOn (dropLog_pool s t) (dropLog_ended s t) rfl t.owed_nonneg fun _ hearly => ?_
    simp [hpc, Pc.early] at hearly
  | goOn txs hpc htxs =>
    exact .keep rfl (fun h => .inl h) (fun h => h) le_rfl fun _ h => h
  | commit hpc => exact .goOn rfl rfl rfl t.owed_nonneg fun _ _ => rfl
  | rollback =>
    exact .goOn (dropLog_pool s t) (dropLog_ended s t) rfl t.owed_nonneg fun _ _ => rfl

/-! ## Every action -/

theorem owed_eq_zero (h : t.pc.closing = false) : t.owed = 0 := by
  unfold CheckIn.owed Pc.owed
  split
  next hpc => simp [hpc, Pc.closing] at h
  next => rfl

/-- Where nobody ends the event, nothing is about to be given back. -/
theorem total_owed_eq_zero {p : Pool Shared CheckIn} (h : ¬ Closing p) :
    total CheckIn.owed p.tasks = 0 := by
  apply total_eq_zero
  intro u hu
  apply owed_eq_zero
  by_contra hclosing
  exact h (.inr ⟨u, hu, Bool.eq_true_of_not_eq_false hclosing⟩)

namespace Spent

variable {before after : List CheckIn}

/-- A check-in is past the first commands only once somebody has set the counter. -/
theorem exists_pool (h : Spent ⟨s, before ++ t :: after⟩) (hlate : t.pc.early = false) :
    ∃ present, s.pool = some present := by
  cases hpool : s.pool with
  | some present => exact ⟨present, rfl⟩
  | none =>
    have hearly := (h.early hpool).2 t (List.mem_append_right _ List.mem_cons_self)
    rw [hlate] at hearly
    exact absurd hearly Bool.false_ne_true

/-- An action after which the counter is there, if what is left is too little where the event
is ending. -/
theorem of_present {present : ℤ} (hpool : s'.pool = some present)
    (hshort : Closing ⟨s', before ++ t' :: after⟩ →
      present + total CheckIn.owed (before ++ t' :: after) < ATTENDANCE_TOKENS) :
    Spent ⟨s', before ++ t' :: after⟩ where
  short hclosing other hother := by
    obtain rfl : present = other := by
      simpa [hpool] using hother
    exact hshort hclosing
  early hnone := by
    have hsome : s'.pool ≠ none := by
      rw [hpool]
      exact Option.some_ne_none present
    exact absurd hnone hsome

/-- What ends the event after an action is the flag or the check-in itself, or it has ended
the event before. -/
theorem closing_cases (h : Closing ⟨s', before ++ t' :: after⟩) :
    (s'.ended = true ∨ t'.pc.closing = true) ∨ Closing ⟨s, before ++ t :: after⟩ := by
  rcases h with hflag | ⟨u, hu, hclosing⟩
  · exact .inl (.inl hflag)
  · rcases List.mem_append.mp hu with hbefore | hafter
    · exact .inr (.inr ⟨u, List.mem_append_left _ hbefore, hclosing⟩)
    · rcases List.mem_cons.mp hafter with rfl | hafter
      · exact .inl (.inr hclosing)
      · exact .inr (.inr ⟨u, List.mem_append_right _ (List.mem_cons_of_mem t hafter), hclosing⟩)

/-- An action that leaves the flag ends the event only by what the check-in goes on to. -/
theorem closing_of_not (hended : s'.ended = s.ended)
    (hbefore : ¬ Closing ⟨s, before ++ t :: after⟩) (h : Closing ⟨s', before ++ t' :: after⟩) :
    t'.pc.closing = true := by
  rcases (closing_cases (t := t) h).resolve_right hbefore with hflag | hcloses
  · exact absurd (.inl (hended ▸ hflag)) hbefore
  · exact hcloses

/-- The counter stays, and the end is no nearer. -/
theorem keep (h : Spent ⟨s, before ++ t :: after⟩) (hpool : s'.pool = s.pool)
    (hended : s'.ended = true → s.ended = true ∨ t.pc.closing = true)
    (hclosing : t'.pc.closing = true → t.pc.closing = true) (howed : t'.owed ≤ t.owed)
    (hearly : s.pool = none → t.pc.early = true → t'.pc.early = true) :
    Spent ⟨s', before ++ t' :: after⟩ where
  short hafter present hpresent := by
    have hmem : t ∈ before ++ t :: after := List.mem_append_right _ List.mem_cons_self
    have hbefore : Closing ⟨s, before ++ t :: after⟩ := by
      rcases closing_cases (t := t) hafter with (hflag | hcloses) | hbefore
      · rcases hended hflag with hflag | hcloses
        · exact .inl hflag
        · exact .inr ⟨t, hmem, hcloses⟩
      · exact .inr ⟨t, hmem, hclosing hcloses⟩
      · exact hbefore
    have hshort := h.short hbefore present (hpool ▸ hpresent)
    simp only [total_middle] at hshort ⊢
    omega
  early hnone := by
    have hnone' : s.pool = none := hpool ▸ hnone
    obtain ⟨hflag, htasks⟩ := h.early hnone'
    have hthis := htasks t (List.mem_append_right _ List.mem_cons_self)
    refine ⟨?_, forall_mem_middle htasks (fun _ _ hu => hu) (hearly hnone')⟩
    by_contra hends
    rcases hended (Bool.eq_true_of_not_eq_false hends) with hflag' | hcloses
    · exact Bool.false_ne_true (hflag.symm.trans hflag')
    · -- No early check-in is about to end the event.
      cases hpc : t.pc <;> simp [hpc, Pc.early, Pc.closing] at hthis hcloses

/-- The counter is set. -/
theorem set (h : Spent ⟨s, before ++ t :: after⟩) {remaining : ℤ}
    (hguard : Undisturbed ⟨s, before ++ t :: after⟩ t s') (hpc : t.pc = .setPool remaining)
    (hpool : s'.pool = some remaining) (hended : s'.ended = s.ended) (howed : t'.owed = 0)
    (hcloses : t'.pc.closing = true → remaining < ATTENDANCE_TOKENS) :
    Spent ⟨s', before ++ t' :: after⟩ := by
  have hzero : t.owed = 0 := owed_eq_zero (by simp [hpc, Pc.closing])
  refine of_present hpool fun hclosing => ?_
  by_cases hbefore : Closing ⟨s, before ++ t :: after⟩
  · -- The event was ending: the counter is there, and is not raised.
    cases hold : s.pool with
    | none =>
      obtain ⟨hflag, htasks⟩ := h.early hold
      rcases hbefore with hends | ⟨u, hu, hends⟩
      · exact absurd (hflag.symm.trans hends) Bool.false_ne_true
      · have hearly := htasks u hu
        cases hpc : u.pc <;> simp [hpc, Pc.early, Pc.closing] at hearly hends
    | some present =>
      have hle : remaining ≤ present := by
        by_contra hmore
        have hsame := hguard hbefore (.inr ⟨remaining, hpc, present, hold, not_le.mp hmore⟩)
        rw [hpool, hold] at hsame
        exact hmore (Option.some.inj hsame).le
      have hshort := h.short hbefore present hold
      simp only [total_middle] at hshort ⊢
      omega
  · have howedBefore := total_owed_eq_zero hbefore
    have hless := hcloses (closing_of_not hended hbefore hclosing)
    simp only [total_middle] at howedBefore ⊢
    omega

/-- A check-in takes tokens, to keep them or to give them back. -/
theorem take (h : Spent ⟨s, before ++ t :: after⟩) (hpc : t.pc = .decrement)
    (hpool : s'.pool = some (s.pool.getD 0 - ATTENDANCE_TOKENS)) (hended : s'.ended = s.ended)
    (hpc' : t'.pc = .record ∧ ATTENDANCE_TOKENS ≤ s.pool.getD 0 ∨
      t'.pc = .giveBack ∧ s.pool.getD 0 < ATTENDANCE_TOKENS) :
    Spent ⟨s', before ++ t' :: after⟩ := by
  obtain ⟨present, hold⟩ := h.exists_pool (by simp [hpc, Pc.early])
  have hzero : t.owed = 0 := owed_eq_zero (by simp [hpc, Pc.closing])
  rw [hold, Option.getD_some] at hpool hpc'
  refine of_present hpool fun hclosing => ?_
  by_cases hbefore : Closing ⟨s, before ++ t :: after⟩
  · have hshort := h.short hbefore present hold
    have howed : t'.owed ≤ ATTENDANCE_TOKENS := by
      rcases hpc' with ⟨hnext, -⟩ | ⟨hnext, -⟩ <;> simp [CheckIn.owed, Pc.owed, hnext]
      decide
    simp only [total_middle] at hshort ⊢
    omega
  · have hthis := closing_of_not hended hbefore hclosing
    -- This check-in ends the event, and nobody else owes anything.
    have howedBefore := total_owed_eq_zero hbefore
    rcases hpc' with ⟨hnext, -⟩ | ⟨hnext, hless⟩
    · simp [hnext, Pc.closing] at hthis
    · have howed : t'.owed = ATTENDANCE_TOKENS := by simp [CheckIn.owed, Pc.owed, hnext]
      simp only [total_middle] at howedBefore ⊢
      omega

/-- What was too much is given back: what was owed is in the counter again. -/
theorem giveBack (h : Spent ⟨s, before ++ t :: after⟩) (hpc : t.pc = .giveBack)
    (hpool : s'.pool = some (s.pool.getD 0 + ATTENDANCE_TOKENS)) (hpc' : t'.pc = .markEnded) :
    Spent ⟨s', before ++ t' :: after⟩ := by
  obtain ⟨present, hold⟩ := h.exists_pool (by simp [hpc, Pc.early])
  have hbefore : Closing ⟨s, before ++ t :: after⟩ :=
    .inr ⟨t, List.mem_append_right _ List.mem_cons_self, by simp [hpc, Pc.closing]⟩
  have hshort := h.short hbefore present hold
  have howed : t.owed = ATTENDANCE_TOKENS := by simp [CheckIn.owed, Pc.owed, hpc]
  have howed' : t'.owed = 0 := by simp [CheckIn.owed, Pc.owed, hpc']
  rw [hold, Option.getD_some] at hpool
  refine of_present hpool fun _ => ?_
  simp only [total_middle] at hshort ⊢
  omega

/-- A decrement is undone: the event is not ending then, if its end is undisturbed. -/
theorem undo (h : Spent ⟨s, before ++ t :: after⟩)
    (hguard : Undisturbed ⟨s, before ++ t :: after⟩ t s') (hpc : t.pc = .undo)
    (hpool : s'.pool = some (s.pool.getD 0 + ATTENDANCE_TOKENS)) (hended : s'.ended = s.ended)
    (hpc' : t'.pc = .undoRelease) : Spent ⟨s', before ++ t' :: after⟩ := by
  obtain ⟨present, hold⟩ := h.exists_pool (by simp [hpc, Pc.early])
  rw [hold, Option.getD_some] at hpool
  refine of_present hpool fun hclosing => ?_
  have hbefore : Closing ⟨s, before ++ t :: after⟩ := by
    by_contra hbefore
    have hthis := closing_of_not hended hbefore hclosing
    simp [hpc', Pc.closing] at hthis
  have hsame := hguard hbefore (.inl hpc)
  rw [hpool, hold] at hsame
  have hamount : (0 : ℤ) < ATTENDANCE_TOKENS := by decide
  have heq := Option.some.inj hsame
  omega

/-- A check-in starts: nothing is owed for it, and it ends nothing. -/
theorem start {ts : List CheckIn} (h : Spent ⟨s, ts⟩) (hclosing : t.pc.closing = false)
    (hearly : t.pc.early = true) : Spent ⟨s, t :: ts⟩ := by
  have hzero : t.owed = 0 := owed_eq_zero hclosing
  refine ⟨fun hends present hpresent => ?_, fun hnone => ?_⟩
  · have hbefore : Closing ⟨s, ts⟩ := by
      rcases hends with hflag | ⟨u, hu, hends⟩
      · exact .inl hflag
      · rcases List.mem_cons.mp hu with rfl | hu
        · exact absurd (hclosing.symm.trans hends) Bool.false_ne_true
        · exact .inr ⟨u, hu, hends⟩
    have hshort := h.short hbefore present hpresent
    simp only [total_cons] at hshort ⊢
    omega
  · obtain ⟨hflag, htasks⟩ := h.early hnone
    exact ⟨hflag, List.forall_mem_cons.mpr ⟨hearly, htasks⟩⟩

/-- Every action keeps what is left too little, if the end of the event is undisturbed. -/
theorem step {p p' : Pool Shared CheckIn} (h : Spent p)
    (hstep : Pool.StepWhere checkIn Undisturbed p p') : Spent p' := by
  cases hstep with
  | env ts henv =>
    cases henv with
    | dayKey key => exact ⟨h.short, h.early⟩
  | @start t s ts hstart =>
    obtain ⟨hpc, -, -⟩ := hstart
    exact h.start (by simp [hpc, Pc.closing]) (by simp [hpc, Pc.early])
  | @act s s' t t' before after hact hguard =>
    cases hact.endEffect with
    | keep hpool hended hclosing howed hearly => exact h.keep hpool hended hclosing howed hearly
    | set remaining hpc hpool hended howed hclosing =>
      exact h.set hguard hpc hpool hended howed hclosing
    | take hpc hpool hended hpc' henough => exact h.take hpc hpool hended (.inl ⟨hpc', henough⟩)
    | overdraw hpc hpool hended hpc' hshort => exact h.take hpc hpool hended (.inr ⟨hpc', hshort⟩)
    | giveBack hpc hpool _ hpc' => exact h.giveBack hpc hpool hpc'
    | undo hpc hpool hended hpc' => exact h.undo hguard hpc hpool hended hpc'

end Spent

/-- From a store in which the flag is not set, and as long as the end of the event is
undisturbed, the counter is below the tokens of an attendance whenever the flag is set. -/
theorem pool_short_of_reachable {s : Shared} {p : Pool Shared CheckIn} (hended : s.ended = false)
    (h : Relation.ReflTransGen (Pool.StepWhere checkIn Undisturbed) ⟨s, []⟩ p)
    (hflag : p.shared.ended = true) : ∃ present ∈ p.shared.pool, present < ATTENDANCE_TOKENS := by
  -- By induction on the run; every action keeps what is left too little.
  have hspent : Spent p := by
    clear hflag
    induction h with
    | refl =>
      refine ⟨fun hclosing => ?_, fun _ => ⟨hended, fun t ht => absurd ht List.not_mem_nil⟩⟩
      rcases hclosing with hset | ⟨t, ht, -⟩
      · exact absurd (hended.symm.trans hset) Bool.false_ne_true
      · exact absurd ht List.not_mem_nil
    | tail _ hstep ih => exact ih.step hstep
  cases hpool : p.shared.pool with
  | none => exact absurd ((hspent.early hpool).1.symm.trans hflag) Bool.false_ne_true
  | some present =>
    have hshort := hspent.short (.inl hflag) present hpool
    have howed : 0 ≤ total CheckIn.owed p.tasks := total_nonneg fun t _ => t.owed_nonneg
    exact ⟨present, rfl, by omega⟩

/-! ## A late rollback -/

section LateRollback

variable {before after : List CheckIn}

/-- A check-in that finds the counter is about to take its tokens. -/
theorem runs_to_decrement (hpc : t.pc = .checkEnded) {present : ℤ} (hpool : s.pool = some present)
    (hended : s.ended = false) (hkey : s.dayKeys (t.userId, t.today) = false) :
    Runs before after s t (s.setDayKey t true) (t.goto .decrement) := by
  have hfirst : Runs before after s t s (t.goto .acquire) :=
    Runs.redis .refl (by simp [redisStep, hpc, hended])
  have hsecond : Runs before after s t (s.setDayKey t true) (t.goto .getPool) :=
    hfirst.redis (by simp [redisStep, CheckIn.goto, hkey, Shared.setDayKey])
  exact hsecond.redis (by simp [redisStep, CheckIn.goto, hpool, Shared.setDayKey])

/-- Two users check in when a single attendance is left. The second finds nothing and ends the
event; then the first fails in the database and gives its tokens back. -/
theorem late_rollback {user other : UUID} (today : Date) (hne : other ≠ user)
    (hpool : s.pool = some ATTENDANCE_TOKENS) (hended : s.ended = false)
    (hkeys : ∀ key, s.dayKeys key = false) :
    ∃ p, Pool.Reachable checkIn s p ∧ (∀ t ∈ p.tasks, t.pc.inFlight = false) ∧
      p.shared.ended = true ∧ p.shared.pool = some ATTENDANCE_TOKENS := by
  set a := newCheckIn user today
  set b := newCheckIn other today
  have hstart : Pool.Reachable checkIn s ⟨s, [b, a]⟩ :=
    (Relation.ReflTransGen.single (.start s [] ⟨rfl, rfl, rfl⟩)).tail (.start s [a] ⟨rfl, rfl, rfl⟩)
  set s₁ := s.setDayKey a true
  have hfound : Runs [b] [] s a s₁ (a.goto .decrement) :=
    runs_to_decrement rfl hpool hended (hkeys _)
  have htaken : Runs [b] [] s a { s₁ with pool := some 0 } (a.goto .record) :=
    hfound.redis (by simp [redisStep, CheckIn.goto, s₁, Shared.setDayKey, hpool])
  set s₂ : Shared := { s₁ with pool := some 0 }
  have hkey : s₂.dayKeys (other, today) = false := by
    simp [s₂, s₁, Shared.setDayKey, a, newCheckIn, hne, hkeys]
  have hfound' : Runs [] [a.goto .record] s₂ b (s₂.setDayKey b true) (b.goto .decrement) :=
    runs_to_decrement rfl rfl hended hkey
  have hoverdrawn := hfound'.redis rfl
  have hgiven := hoverdrawn.redis rfl
  have hmarked := hgiven.redis rfl
  have hreturned := hmarked.redis rfl
  have hfailed := ((hstart.trans htaken).trans hreturned).tail (.act [_] [] (.recordFails rfl))
  have hundone := hfailed.tail (.act [_] [] (.redis rfl))
  have hraised := hundone.tail (.act [_] [] (.redis rfl))
  refine ⟨_, hraised, ?_, rfl, rfl⟩
  intro t ht
  simp only [List.cons_append, List.nil_append, List.mem_cons, List.not_mem_nil, or_false] at ht
  rcases ht with rfl | rfl <;> rfl

end LateRollback

theorem not_pool_short_of_reachable :
    ¬ ∀ (s : Shared) (p : Pool Shared CheckIn), s.ended = false → Pool.Reachable checkIn s p →
      (∀ t ∈ p.tasks, t.pc.inFlight = false) → p.shared.ended = true →
      ∃ present ∈ p.shared.pool, present < ATTENDANCE_TOKENS := by
  intro h
  let s : Shared := { lastAttendance with pool := some ATTENDANCE_TOKENS }
  obtain ⟨p, hreachable, hquiet, hended, hpool⟩ :=
    late_rollback (s := s) (Datetime.utc 2026 1 10 9).date (show (2 : UUID) ≠ 1 by decide) rfl rfl
      fun _ => rfl
  obtain ⟨present, hpresent, hshort⟩ := h s p rfl hreachable hquiet hended
  rw [hpool] at hpresent
  obtain rfl : ATTENDANCE_TOKENS = present := Option.some.inj hpresent
  exact lt_irrefl _ hshort

/-! ### The last attendance -/

/-- An action of a check-in that is not about to raise the counter. -/
theorem stepWhere_of_not_raises (before after : List CheckIn)
    (hpc : t.pc ≠ .undo ∧ ∀ remaining, t.pc ≠ .setPool remaining)
    (hact : CheckIn.Act s t s' t') :
    Pool.StepWhere checkIn Undisturbed ⟨s, before ++ t :: after⟩ ⟨s', before ++ t' :: after⟩ := by
  refine .act before after hact fun _ hraise => ?_
  rcases hraise with hundo | ⟨remaining, hset, -⟩
  · exact absurd hundo hpc.1
  · exact absurd hset (hpc.2 remaining)

/-- A check-in takes the last tokens, another finds too little and ends the event, and then the
first is committed. -/
theorem pool_short_of_reachable_last : ∃ p : Pool Shared CheckIn,
    Relation.ReflTransGen (Pool.StepWhere checkIn Undisturbed)
        ⟨⟨some 3, false, fun _ => false, [], []⟩, []⟩ p ∧
      p.shared.ended = true ∧ attendanceSum p.shared.transactions = 3 ∧
      ∃ present ∈ p.shared.pool, present < ATTENDANCE_TOKENS := by
  let s : Shared := ⟨some 3, false, fun _ => false, [], []⟩
  let a := newCheckIn 1 (Datetime.utc 2026 1 10 9).date
  let b := newCheckIn 2 (Datetime.utc 2026 1 10 9).date
  have hstart : Relation.ReflTransGen (Pool.StepWhere checkIn Undisturbed) ⟨s, []⟩ ⟨s, [a]⟩ :=
    .single (.start s [] ⟨rfl, rfl, rfl⟩)
  have hstart' : Relation.ReflTransGen (Pool.StepWhere checkIn Undisturbed) ⟨s, []⟩ ⟨s, [b, a]⟩ :=
    hstart.tail (.start s [a] ⟨rfl, rfl, rfl⟩)
  have hchecked := hstart'.tail (stepWhere_of_not_raises [b] [] ⟨nofun, nofun⟩ (.redis rfl))
  have hacquired := hchecked.tail (stepWhere_of_not_raises [b] [] ⟨nofun, nofun⟩ (.redis rfl))
  have hfound := hacquired.tail (stepWhere_of_not_raises [b] [] ⟨nofun, nofun⟩ (.redis rfl))
  have htaken := hfound.tail (stepWhere_of_not_raises [b] [] ⟨nofun, nofun⟩ (.redis rfl))
  have hchecked' := htaken.tail (stepWhere_of_not_raises [] [_] ⟨nofun, nofun⟩ (.redis rfl))
  have hacquired' := hchecked'.tail (stepWhere_of_not_raises [] [_] ⟨nofun, nofun⟩ (.redis rfl))
  have hfound' := hacquired'.tail (stepWhere_of_not_raises [] [_] ⟨nofun, nofun⟩ (.redis rfl))
  have hoverdrawn := hfound'.tail (stepWhere_of_not_raises [] [_] ⟨nofun, nofun⟩ (.redis rfl))
  have hgiven := hoverdrawn.tail (stepWhere_of_not_raises [] [_] ⟨nofun, nofun⟩ (.redis rfl))
  have hmarked := hgiven.tail (stepWhere_of_not_raises [] [_] ⟨nofun, nofun⟩ (.redis rfl))
  have hrecorded := hmarked.tail (stepWhere_of_not_raises [_] [] ⟨nofun, nofun⟩
    (.record (fun _ => .utc 2026 1 10 9) none rfl (by decide)))
  have hcommitted := hrecorded.tail (stepWhere_of_not_raises [_] [] ⟨nofun, nofun⟩ (.commit rfl))
  exact ⟨_, hcommitted, rfl, by decide, pool_short_of_reachable rfl hcommitted rfl⟩

end Logit.Tokens
