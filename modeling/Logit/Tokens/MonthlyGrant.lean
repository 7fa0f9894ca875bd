import Logit.Tokens.BillingPeriod
import Logit.Tokens.Ledger

/-!
# Monthly grants

`ensure_monthly_tokens` serves the billing periods of a user: it remembers the
instant of its last grant and grants again when a call falls into a later period.
With one subscription argument and calls whose instants follow the order of their
locks, every billing period with a committed call has exactly one committed grant.

## Main definitions

* `lastGrant` — the instant of the last monthly grant on a row
* `grantsOf` — the instants of the monthly grants among transactions
* `visits` — the instants of the calls of `ensure_monthly_tokens`
* `OnePlan` — a history of calls with one subscription argument, in order of time

## Main results

* `grantsOf_runAll` — calls grant at the visits that `served` serves
* `countP_monthlyGrant` — one committed grant in each billing period with a committed call
-/

namespace Logit.Tokens

open Calendar Concurrency Python Schedule Subscriptions

/-- The instant of the last monthly grant, if there has been one. -/
def lastGrant (row : Option UserToken) : Option Datetime := row.bind (·.lastMonthlyGrantAt)

@[simp] theorem lastGrant_some (token : UserToken) :
    lastGrant (some token) = token.lastMonthlyGrantAt := rfl

/-- The instants of the monthly grants among transactions. -/
def grantsOf (txs : List TokenTransaction) : List Datetime :=
  (txs.filter fun tx => tx.type = .monthlyGrant).map (·.createdAt)

@[simp] theorem grantsOf_nil : grantsOf [] = [] := rfl

@[simp] theorem grantsOf_append (txs more : List TokenTransaction) :
    grantsOf (txs ++ more) = grantsOf txs ++ grantsOf more := by
  simp [grantsOf]

theorem grantsOf_record_grant (userId : UUID) (amount : ℤ) (description : Option String)
    (t : Datetime) : grantsOf [recordTransaction userId amount .monthlyGrant description t] = [t] :=
  rfl

theorem grantsOf_record_ne {txType : TokenTransactionType} (h : txType ≠ .monthlyGrant)
    (userId : UUID) (amount : ℤ) (description : Option String) (t : Datetime) :
    grantsOf [recordTransaction userId amount txType description t] = [] := by
  simp [grantsOf, recordTransaction, h]

theorem alreadyGranted_iff {last : Option Datetime} {start : Datetime} :
    alreadyGranted last start = true ↔ Touched start last := by
  cases last <;> simp [alreadyGranted]

/-! ## One call -/

section Functions

variable (userId : UUID) (clock : Clock) (row : Option UserToken)

/-- Opening a row neither grants nor changes what the row says about grants. -/
theorem getOrCreateBalance_grants :
    grantsOf (getOrCreateBalance userId clock row).recorded = [] ∧
      (getOrCreateBalance userId clock row).token.lastMonthlyGrantAt = lastGrant row := by
  cases row <;> exact ⟨rfl, rfl⟩

/-- A call in a period that has been granted grants nothing. -/
theorem ensureMonthlyTokens_of_touched {subscription : Option Subscription}
    (h : Touched (currentBillingPeriodStart subscription (clock .billed)) (lastGrant row)) :
    (ensureMonthlyTokens userId clock row subscription).token =
        (getOrCreateBalance userId clock row).token ∧
      (ensureMonthlyTokens userId clock row subscription).recorded =
        (getOrCreateBalance userId clock row).recorded ∧
      (ensureMonthlyTokens userId clock row subscription).result =
        .ok (false, 0, (getOrCreateBalance userId clock row).token) := by
  have hfound := (getOrCreateBalance_grants userId clock row).2
  rw [← hfound, ← alreadyGranted_iff] at h
  simp only [ensureMonthlyTokens, if_pos h, and_self]

/-- A call in a period that has not been granted grants the plan's tokens. -/
theorem ensureMonthlyTokens_of_not_touched {subscription : Option Subscription} {amount : ℤ}
    (h : ¬ Touched (currentBillingPeriodStart subscription (clock .billed)) (lastGrant row))
    (hamount : PLAN_MONTHLY_TOKENS (planKey subscription) = some amount) :
    (∃ description, (ensureMonthlyTokens userId clock row subscription).recorded =
        (getOrCreateBalance userId clock row).recorded ++
          [recordTransaction userId amount .monthlyGrant description (clock .recorded)]) ∧
      (ensureMonthlyTokens userId clock row subscription).token.lastMonthlyGrantAt =
        some (clock .granted) ∧
      (ensureMonthlyTokens userId clock row subscription).result =
        .ok (true, amount, (ensureMonthlyTokens userId clock row subscription).token) := by
  have hfound := (getOrCreateBalance_grants userId clock row).2
  rw [← hfound, ← alreadyGranted_iff] at h
  simp only [ensureMonthlyTokens, if_neg h, hamount, and_true]
  exact ⟨_, rfl⟩

/-- The last grant after a call is the last one before it, or was made by the call. -/
theorem ensureMonthlyTokens_lastGrant (subscription : Option Subscription) :
    lastGrant (some (ensureMonthlyTokens userId clock row subscription).token) = lastGrant row ∨
      lastGrant (some (ensureMonthlyTokens userId clock row subscription).token) =
        some (clock .granted) := by
  have hfound := (getOrCreateBalance_grants userId clock row).2
  simp only [ensureMonthlyTokens, lastGrant_some]
  split_ifs
  · exact .inl hfound
  · cases PLAN_MONTHLY_TOKENS (planKey subscription) with
    | none => exact .inl hfound
    | some amount => exact .inr rfl

/-- A call grants no other amount than that of the plan of its subscription. -/
theorem ensureMonthlyTokens_amount {subscription : Option Subscription} {tx : TokenTransaction}
    (htx : tx ∈ (ensureMonthlyTokens userId clock row subscription).recorded)
    (htype : tx.type = .monthlyGrant) :
    PLAN_MONTHLY_TOKENS (planKey subscription) = some tx.amount := by
  have hfound : tx ∉ (getOrCreateBalance userId clock row).recorded := by
    intro hmem
    have hgrant : tx.createdAt ∈ grantsOf (getOrCreateBalance userId clock row).recorded :=
      List.mem_map_of_mem (List.mem_filter.mpr ⟨hmem, by simpa using htype⟩)
    simp [(getOrCreateBalance_grants userId clock row).1] at hgrant
  simp only [ensureMonthlyTokens] at htx
  split_ifs at htx with hgranted
  · exact absurd htx hfound
  · cases hamount : PLAN_MONTHLY_TOKENS (planKey subscription) with
    | none =>
      simp only [hamount] at htx
      exact absurd htx hfound
    | some amount =>
      simp only [hamount] at htx
      rcases List.mem_append.mp htx with hmem | hmem
      · exact absurd hmem hfound
      · obtain rfl := List.mem_singleton.mp hmem
        rfl

end Functions

/-- A plan that grants tokens: any but that of MCP subscriptions. -/
theorem exists_monthlyTokens {subscription : Option Subscription}
    (hplan : ∀ sub ∈ subscription, sub.isActive = true → sub.plan ≠ .basic) :
    ∃ amount, PLAN_MONTHLY_TOKENS (planKey subscription) = some amount := by
  unfold planKey
  cases hactive : subscription.filter (·.isActive) with
  | none => exact ⟨50, rfl⟩
  | some sub =>
    obtain ⟨hsub, hisActive⟩ := Option.filter_eq_some_iff.mp hactive
    have hne := hplan sub hsub hisActive
    cases hvalue : sub.plan with
    | basic => exact absurd hvalue hne
    | lite => exact ⟨400, by simp [hvalue, SubscriptionPlan.value, PLAN_MONTHLY_TOKENS]⟩
    | pro => exact ⟨2000, by simp [hvalue, SubscriptionPlan.value, PLAN_MONTHLY_TOKENS]⟩

/-! ## Histories of calls -/

/-- The instant of a call of `ensure_monthly_tokens`. -/
def TokenCall.visit? (call : TokenCall) : Option Datetime :=
  match call.function with
  | .ensureMonthlyTokens _ => some (call.clock .billed)
  | _ => none

/-- The instants of the calls of `ensure_monthly_tokens`. -/
def visits (calls : List TokenCall) : List Datetime := calls.filterMap TokenCall.visit?

/-- The function does not record a monthly grant under another name. -/
def TokenFunction.Typed : TokenFunction → Prop
  | .credit _ txType _ => txType ≠ .monthlyGrant
  | .debit _ txType _ => txType ≠ .monthlyGrant
  | _ => True

/-- A history of calls in which `ensure_monthly_tokens` has one subscription argument,
reads one instant in each call and is called in order of time. -/
structure OnePlan (subscription : Option Subscription) (calls : List TokenCall) : Prop where
  argument : ∀ call ∈ calls, ∀ sub, call.function = .ensureMonthlyTokens sub → sub = subscription
  instant : ∀ call ∈ calls, ∀ t ∈ call.visit?, ∀ read, call.clock read = t
  typed : ∀ call ∈ calls, call.function.Typed
  sorted : (visits calls).Pairwise (· ≤ ·)

namespace OnePlan

variable {subscription : Option Subscription} {call : TokenCall} {calls : List TokenCall}

theorem tail (h : OnePlan subscription (call :: calls)) : OnePlan subscription calls where
  argument c hc := h.argument c (List.mem_cons_of_mem _ hc)
  instant c hc := h.instant c (List.mem_cons_of_mem _ hc)
  typed c hc := h.typed c (List.mem_cons_of_mem _ hc)
  sorted := h.sorted.sublist ((List.sublist_cons_self call calls).filterMap _)

end OnePlan

/-- Other functions neither grant nor change what the row says about grants. -/
theorem TokenCall.run_of_no_visit {call : TokenCall} (h : call.visit? = none)
    (htyped : call.function.Typed) (row : Option UserToken) :
    grantsOf (call.run row).2 = [] ∧ lastGrant (some (call.run row).1) = lastGrant row := by
  obtain ⟨hgrants, hlast⟩ := getOrCreateBalance_grants call.userId call.clock row
  obtain ⟨token, recorded, hrun, hwrites⟩ := call.run_cases row
  rw [hrun, grantsOf_append, hgrants, List.nil_append]
  cases hwrites with
  | nothing => exact ⟨rfl, hlast⟩
  | credit hfunction =>
    rw [hfunction] at htyped
    exact ⟨grantsOf_record_ne htyped _ _ _ _, hlast⟩
  | creditReferralInviter => exact ⟨grantsOf_record_ne (by decide) _ _ _ _, hlast⟩
  | claimReferralNotification => exact ⟨rfl, hlast⟩
  | debit hfunction =>
    rw [hfunction] at htyped
    exact ⟨grantsOf_record_ne htyped _ _ _ _, hlast⟩
  | ensureMonthlyTokens text hfunction => simp [TokenCall.visit?, hfunction] at h
  | grantSignupBonus => exact ⟨grantsOf_record_ne (by decide) _ _ _ _, hlast⟩
  | claimSignupBonusNotification => exact ⟨rfl, hlast⟩

/-- Calls with one subscription argument grant at the visits served by a server that
remembers its last grant. -/
theorem grantsOf_runAll {subscription : Option Subscription} {calls : List TokenCall}
    (hplan : ∀ sub ∈ subscription, sub.isActive = true → sub.plan ≠ .basic)
    (hcalls : OnePlan subscription calls) (row : Option UserToken) :
    grantsOf (tokenTable.runAll row calls).2 =
      served (currentBillingPeriodStart subscription) (lastGrant row) (visits calls) := by
  -- By induction on the calls; the row remembers the last grant for those that follow.
  induction calls generalizing row with
  | nil => rfl
  | cons call calls ih =>
    rw [Table.runAll_cons, grantsOf_append, ih hcalls.tail]
    cases hvisit : call.visit? with
    | none =>
      obtain ⟨hgrants, hlast⟩ :=
        call.run_of_no_visit hvisit (hcalls.typed call List.mem_cons_self) row
      have hvisits : visits (call :: calls) = visits calls := List.filterMap_cons_none hvisit
      simp only [tokenTable, hgrants, hlast, hvisits, List.nil_append]
    | some t =>
      have hvisits : visits (call :: calls) = t :: visits calls :=
        List.filterMap_cons_some hvisit
      have hclock : ∀ read, call.clock read = t :=
        hcalls.instant call List.mem_cons_self t hvisit
      obtain ⟨sub, hfunction⟩ : ∃ sub, call.function = .ensureMonthlyTokens sub := by
        unfold TokenCall.visit? at hvisit
        split at hvisit
        · exact ⟨_, ‹_›⟩
        · cases hvisit
      obtain rfl := hcalls.argument call List.mem_cons_self sub hfunction
      -- The plan has an amount, so a call that finds the period untouched does grant.
      obtain ⟨amount, hamount⟩ := exists_monthlyTokens hplan
      obtain ⟨hfound, hlast⟩ := getOrCreateBalance_grants call.userId call.clock row
      rw [hvisits, served]
      simp only [tokenTable, TokenCall.run, hfunction, lastGrant_some]
      split_ifs with htouched
      · have htouched' : Touched (currentBillingPeriodStart sub (call.clock .billed))
            (lastGrant row) := by rwa [hclock]
        obtain ⟨htoken, hrecorded, -⟩ :=
          ensureMonthlyTokens_of_touched call.userId call.clock row htouched'
        simp only [Outcome.effect, htoken, hrecorded, hfound, hlast, List.nil_append]
      · have htouched' : ¬ Touched (currentBillingPeriodStart sub (call.clock .billed))
            (lastGrant row) := by rwa [hclock]
        obtain ⟨⟨description, hrecorded⟩, hgranted, -⟩ :=
          ensureMonthlyTokens_of_not_touched call.userId call.clock row htouched' hamount
        simp only [Outcome.effect, hrecorded, hgranted, grantsOf_append, hfound,
          grantsOf_record_grant, hclock, List.nil_append, List.singleton_append]

/-! ## Concurrent sessions -/

variable {τ : Type*} [DecidableEq τ] {s : TokenState τ}

/-- The committed monthly grants of a user in a billing period: one if the period has a
committed call of `ensure_monthly_tokens`, and none otherwise. -/
theorem countP_monthlyGrant (h : Reachable tokenTable s) (userId : UUID)
    (subscription : Option Subscription)
    (hplan : ∀ sub ∈ subscription, sub.isActive = true → sub.plan ≠ .basic)
    (hcalls : OnePlan subscription (s.calls.filter fun call => call.userId = userId)) (n : ℤ) :
    (s.log.countP fun tx => tx.userId = userId ∧ tx.type = .monthlyGrant ∧
        InPeriod (anchor (billingDay subscription)) n tx.createdAt) =
      if ∃ t ∈ visits (s.calls.filter fun call => call.userId = userId),
        InPeriod (anchor (billingDay subscription)) n t then 1 else 0 := by
  set day := billingDay subscription
  have hmono := anchor_strictMono day
  have hindex : ∀ t, InPeriod (anchor day) n t ↔ anchorIndex day t = n := fun t =>
    ⟨fun ht => (inPeriod_anchorIndex day t).unique hmono ht,
      fun ht => ht ▸ inPeriod_anchorIndex day t⟩
  have hreplay := h.committed userId
  have hgrants := grantsOf_runAll hplan hcalls none
  have hlog : grantsOf (s.log.filter fun tx => tx.userId = userId) =
      served (currentBillingPeriodStart subscription) none
        (visits (s.calls.filter fun call => call.userId = userId)) := by
    refine Eq.trans ?_ hgrants
    exact congrArg (fun p => grantsOf p.2) hreplay.symm
  have hserved := countP_served hmono (inPeriod_anchorIndex day)
    (currentBillingPeriodStart_eq_anchor subscription) n none
    (visits (s.calls.filter fun call => call.userId = userId)) (by simp) hcalls.sorted
  rw [← hlog] at hserved
  simp only [touched_none, not_false_eq_true, and_true, ← hindex] at hserved
  rw [← hserved, grantsOf, List.countP_map, List.filter_filter, List.countP_filter]
  congr 1
  funext tx
  simp only [Function.comp_apply, Bool.decide_and]
  grind

/-- A user without a subscription calls twice in January 2026, and once in March. -/
def freeCalls : List TokenCall :=
  [.utc 2026 1 10 9, .utc 2026 1 20 9, .utc 2026 3 1 9].map fun t =>
    ⟨7, fun _ => t, .ensureMonthlyTokens none⟩

theorem onePlan_freeCalls : OnePlan none (freeCalls.filter fun call => call.userId = 7) where
  argument := by simp [freeCalls]
  instant := by simp [freeCalls, TokenCall.visit?]
  typed := by simp [freeCalls, TokenFunction.Typed]
  sorted := by decide +kernel

/-- January and March have a grant each, and February has none. -/
theorem countP_monthlyGrant_free : ∃ s : TokenState Unit,
    Reachable tokenTable s ∧ s.calls = freeCalls ∧
    [monthIndex 2026 1, monthIndex 2026 2, monthIndex 2026 3].map (fun n =>
      s.log.countP fun tx => tx.userId = 7 ∧ tx.type = .monthlyGrant ∧
        InPeriod (anchor (billingDay none)) n tx.createdAt) = [1, 0, 1] := by
  obtain ⟨s, h, hcalls⟩ :=
    exists_reachable_calls tokenTable (show ∀ call ∈ freeCalls, tokenTable.locks call = true by
      simp [freeCalls, tokenTable, TokenCall.locks])
  have hcount := countP_monthlyGrant h 7 none (by simp) (hcalls ▸ onePlan_freeCalls)
  refine ⟨s, h, hcalls, ?_⟩
  rw [funext hcount, hcalls]
  decide +kernel

end Logit.Tokens
