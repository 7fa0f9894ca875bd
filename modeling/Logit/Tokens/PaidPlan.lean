import Logit.Payments.Activation
import Logit.Tokens.MonthlyGrant

/-!
# Grants of a paid plan

A payment activates a subscription for 31 days from an instant `s`. The monthly
anchors of that day cut these days in two: the period that starts at midnight of
the day of `s` itself, and the one that starts at the next anchor, which comes
before the subscription expires. The service remembers one last grant for all
plans, so a grant made earlier on the day of `s` counts as the grant of the first
period, and a call in each of the two periods is granted once.

## Main definitions

* `ensureCall` — a call of `ensure_monthly_tokens` for a user's active subscription
* `paidGrants` — the monthly grants of an amount among transactions
* `nextAnchor` — the first anchor after an activation

## Main results

* `grants_paid_plan_iff` — when the first call after an activation grants the plan's tokens
* `paidGrants_le_one_iff` — when calls before and after an activation grant them at most once
-/

namespace Logit.Tokens

open Calendar Concurrency Payments Python Schedule Security Subscriptions

/-! ## The periods of an activated subscription -/

/-- The first monthly anchor after an activation. -/
def nextAnchor (s : Datetime) : Datetime := anchor s.date.dayOfMonth (s.date.index + 1)

theorem lt_nextAnchor (s : Datetime) : s < nextAnchor s := lt_anchor_succ _ s

/-- A subscription outlives the next anchor of the day it was activated on. -/
theorem nextAnchor_le_expiry (s : Datetime) : nextAnchor s ≤ s.addDays 31 := by
  have hgap := dayNumber_anchor_succ_le s.date.dayOfMonth s.date.index
  have hself := dayNumber_anchorDate_self s.date
  rw [nextAnchor, anchor, Datetime.midnight_le_iff, Datetime.dayNumber_addDays]
  push_cast
  omega

/-- The paid days lie in two billing periods, before and after the next anchor. -/
theorem anchorIndex_of_paid {s t : Datetime} (hst : s ≤ t) (hte : t ≤ s.addDays 31) :
    anchorIndex s.date.dayOfMonth t =
      if t < nextAnchor s then s.date.index else s.date.index + 1 := by
  have hperiod := inPeriod_anchorIndex s.date.dayOfMonth t
  have hmono := anchor_strictMono s.date.dayOfMonth
  split_ifs with hlt
  · refine hperiod.unique hmono ⟨?_, hlt⟩
    rw [anchor_index_self]
    exact (Datetime.midnight_le s).trans hst
  · refine hperiod.unique hmono ⟨not_lt.mp hlt, ?_⟩
    -- Two anchors on, at least 56 days have passed since midnight of the activation.
    have hfirst := dayNumber_anchor_succ_ge s.date.dayOfMonth s.date.index
    have hsecond := dayNumber_anchor_succ_ge s.date.dayOfMonth (s.date.index + 1)
    have hself := dayNumber_anchorDate_self s.date
    have hday := Datetime.date_mono hte
    rw [Datetime.dayNumber_addDays] at hday
    rw [anchor, Datetime.lt_midnight_iff]
    push_cast at hday
    omega

section Activated

variable {settings : Settings} {encode : JwtEncode} {subscriptions activated : SubscriptionTable}
  {s t : Datetime} {record paid : PaymentRecord} {amount : ℤ}

/-- Throughout the paid days the subscription is found, and after them it is not. -/
theorem getActiveSubscription_activated
    (hactivate : activateSubscription settings encode subscriptions s record =
      .ok (activated, paid))
    (htype : record.subscriptionType = "logit")
    (hamount : PLAN_MONTHLY_TOKENS record.plan = some amount) :
    ∃ sub : Subscription, sub.isActive = true ∧ sub.startedAt = s ∧
      planKey (some sub) = record.plan ∧ sub.plan ≠ .basic ∧
      ∀ t, getActiveSubscription activated record.userId .logit t =
        if t ≤ s.addDays 31 then some sub else none := by
  obtain ⟨type, plan, token, htype', hplan, -, rfl⟩ := activateSubscription_ok hactivate
  obtain rfl : type = .logit := by
    rw [htype] at htype'
    exact (Option.some.inj htype').symm
  refine ⟨_, rfl, rfl, ?_, ?_, fun t => getActiveSubscription_of_row
    (setSubscription_self ..) rfl rfl⟩
  · simp only [planKey, Option.filter, if_true]
    exact SubscriptionPlan.value_of_ofValue? hplan
  · rintro rfl
    rw [← SubscriptionPlan.value_of_ofValue? hplan] at hamount
    simp [SubscriptionPlan.value, PLAN_MONTHLY_TOKENS] at hamount

/-! ## The first call after an activation -/

/-- The period of a call in the paid days has been granted if the last grant was made
on the day of the activation and the call comes before the next anchor. -/
theorem touched_periodStart_iff {sub : Subscription} (hactive : sub.isActive = true)
    (hstart : sub.startedAt = s) (hst : s ≤ t) (hte : t ≤ s.addDays 31) {last : Option Datetime}
    (hlast : ∀ g ∈ last, g ≤ s) :
    Touched (currentBillingPeriodStart (some sub) t) last ↔
      t < nextAnchor s ∧ Touched (.midnight s.date) last := by
  rw [currentBillingPeriodStart_eq_anchor, billingDay_active hactive, hstart,
    anchorIndex_of_paid hst hte]
  split_ifs with hlt
  · rw [anchor_index_self]
    exact ⟨fun h => ⟨hlt, h⟩, fun h => h.2⟩
  · refine ⟨?_, fun h => absurd h.1 hlt⟩
    rintro ⟨g, hg, hle⟩
    exact absurd (hle.trans (hlast g hg)) (not_le.mpr (lt_nextAnchor s))

/-- The first call after an activation grants the plan's tokens exactly if the last
earlier grant was made before the day of the activation, or the call comes at the next
anchor or later. -/
theorem grants_paid_plan_iff
    (hactivate : activateSubscription settings encode subscriptions s record =
      .ok (activated, paid))
    (htype : record.subscriptionType = "logit")
    (hamount : PLAN_MONTHLY_TOKENS record.plan = some amount)
    (row : Option UserToken) (hlast : ∀ g ∈ lastGrant row, g ≤ s)
    (hst : s ≤ t) (hte : t ≤ s.addDays 31) :
    (∃ token, (ensureMonthlyTokens record.userId (fun _ => t) row
        (getActiveSubscription activated record.userId .logit t)).result =
          .ok (true, amount, token)) ↔
      ¬ Touched (.midnight s.date) (lastGrant row) ∨ nextAnchor s ≤ t := by
  obtain ⟨sub, hactive, hstart, hplan, -, hsub⟩ :=
    getActiveSubscription_activated hactivate htype hamount
  rw [hsub t, if_pos hte]
  have htouched := touched_periodStart_iff hactive hstart hst hte hlast
  rw [← not_lt, ← not_and_or, and_comm, ← htouched]
  constructor
  · rintro ⟨token, hresult⟩ h
    rw [(ensureMonthlyTokens_of_touched record.userId (fun _ => t) row h).2.2] at hresult
    simp at hresult
  · intro h
    rw [← hplan] at hamount
    exact ⟨_, (ensureMonthlyTokens_of_not_touched record.userId (fun _ => t) row h hamount).2.2⟩

end Activated

/-! A user is granted the free plan's tokens at nine o'clock on 10 January 2026, pays for
the lite plan at ten, and calls at eleven and in February. -/

/-- A payment for the lite plan. -/
def litePayment : PaymentRecord :=
  { id := 1, userId := 7, subscriptionType := "logit", plan := "lite", amount := 6900,
    mulNo := some "m1", rebillNo := some "r1", payState := some 4, cardName := none,
    cardNumber := none, receiptUrl := none, subscriptionStartedAt := none,
    subscriptionExpiresAt := none, rawWebhookData := none, paidAt := some (.utc 2026 1 10 10) }

/-- The row of a user who was granted the free plan's tokens on 10 January at nine. -/
def grantedAtNine : UserToken :=
  { balance := 50, lastMonthlyGrantAt := some (.utc 2026 1 10 9), signupBonusGranted := false,
    unnotifiedSignupBonusAmount := 0, unnotifiedReferralAmount := 0,
    unnotifiedReferralCount := 0, updatedAt := .utc 2026 1 10 9 }

theorem le_of_mem_grantedAtNine :
    ∀ g ∈ lastGrant (some grantedAtNine), g ≤ Datetime.utc 2026 1 10 10 := by
  intro g hg
  obtain rfl : Datetime.utc 2026 1 10 9 = g := Option.some.inj hg
  decide

/-- The subscriptions once the payment has activated the user's first one. -/
def liteSubscriptions (s : Datetime) : SubscriptionTable :=
  setSubscription (fun _ _ => none) 7 .logit (activatedRow none .lite s)

/-- Settings without PayApp credentials and secrets. -/
def bareSettings : Settings := ⟨⟨"", 0⟩, none, none, none, "", ""⟩

theorem not_grants_paid_plan :
    ¬ ∀ (settings : Settings) (encode : JwtEncode) (subscriptions activated : SubscriptionTable)
        (s t : Datetime) (record paid : PaymentRecord) (amount : ℤ) (row : Option UserToken),
      activateSubscription settings encode subscriptions s record = .ok (activated, paid) →
      record.subscriptionType = "logit" → PLAN_MONTHLY_TOKENS record.plan = some amount →
      (∀ g ∈ lastGrant row, g ≤ s) → s ≤ t → t ≤ s.addDays 31 →
      ∃ token, (ensureMonthlyTokens record.userId (fun _ => t) row
        (getActiveSubscription activated record.userId .logit t)).result =
          .ok (true, amount, token) := by
  intro h
  obtain ⟨token, hresult⟩ := h bareSettings (fun _ _ => "") (fun _ _ => none)
    (liteSubscriptions _) (.utc 2026 1 10 10) (.utc 2026 1 10 11) litePayment _ 400
    (some grantedAtNine) rfl rfl rfl le_of_mem_grantedAtNine (by decide) (by decide +kernel)
  have hnothing : (ensureMonthlyTokens 7 (fun _ => .utc 2026 1 10 11) (some grantedAtNine)
      (getActiveSubscription (liteSubscriptions (.utc 2026 1 10 10)) 7 .logit
        (.utc 2026 1 10 11))).result =
        .ok (false, 0, grantedAtNine) := by
    decide +kernel
  exact absurd (hresult.symm.trans hnothing) (by simp)

/-- What the user is granted, with the subscription paid for at ten. -/
def grantedAt (t : Datetime) : Except TokenError (Bool × ℤ × UserToken) :=
  (ensureMonthlyTokens 7 (fun _ => t) (some grantedAtNine)
    (getActiveSubscription (liteSubscriptions (.utc 2026 1 10 10)) 7 .logit t)).result

/-- The first call is granted nothing on the day of the grant, and the plan's tokens in
February. -/
theorem grants_paid_plan_iff_second :
    (¬ ∃ token, grantedAt (.utc 2026 1 10 11) = .ok (true, 400, token)) ∧
      ∃ token, grantedAt (.utc 2026 2 10 9) = .ok (true, 400, token) := by
  have hactivate : activateSubscription bareSettings (fun _ _ => "") (fun _ _ => none)
      (.utc 2026 1 10 10) litePayment =
        .ok (liteSubscriptions (.utc 2026 1 10 10), paidPeriod litePayment (.utc 2026 1 10 10)) :=
    rfl
  constructor
  · refine (grants_paid_plan_iff hactivate rfl rfl (some grantedAtNine) le_of_mem_grantedAtNine
      (by decide) (by decide +kernel)).not.mpr ?_
    rintro (huntouched | hlater)
    · exact huntouched ⟨_, rfl, by decide⟩
    · exact absurd hlater (by decide +kernel)
  · exact (grants_paid_plan_iff hactivate rfl rfl (some grantedAtNine) le_of_mem_grantedAtNine
      (by decide) (by decide +kernel)).mpr (.inr (by decide +kernel))

/-! ## Calls before and after an activation -/

/-- A call of `ensure_monthly_tokens` at an instant. -/
def ensureCall (userId : UUID) (subscription : Option Subscription) (t : Datetime) : TokenCall :=
  ⟨userId, fun _ => t, .ensureMonthlyTokens subscription⟩

/-- Calls of `ensure_monthly_tokens`, each with the active subscription of its instant. -/
def ensureCalls (subscriptions : SubscriptionTable) (userId : UUID) (ts : List Datetime) :
    List TokenCall :=
  ts.map fun t => ensureCall userId (getActiveSubscription subscriptions userId .logit t) t

/-- The number of monthly grants of an amount. -/
def paidGrants (amount : ℤ) (txs : List TokenTransaction) : ℕ :=
  txs.countP fun tx => tx.type = .monthlyGrant ∧ tx.amount = amount

@[simp] theorem paidGrants_append (amount : ℤ) (txs more : List TokenTransaction) :
    paidGrants amount (txs ++ more) = paidGrants amount txs + paidGrants amount more :=
  List.countP_append

section Calls

variable {userId : UUID} {subscription : Option Subscription} {amount : ℤ} {ts : List Datetime}

theorem visits_ensureCall (userId : UUID) (subscription : Option Subscription)
    (ts : List Datetime) : visits (ts.map (ensureCall userId subscription)) = ts := by
  rw [visits, List.filterMap_map]
  exact List.filterMap_some

theorem onePlan_ensureCall (userId : UUID) (subscription : Option Subscription)
    (hsorted : ts.Pairwise (· ≤ ·)) :
    OnePlan subscription (ts.map (ensureCall userId subscription)) where
  argument call hcall sub hfunction := by
    obtain ⟨t, -, rfl⟩ := List.mem_map.mp hcall
    exact (TokenFunction.ensureMonthlyTokens.inj hfunction).symm
  instant call hcall t ht read := by
    obtain ⟨t', -, rfl⟩ := List.mem_map.mp hcall
    exact Option.some.inj ht
  typed call hcall := by
    obtain ⟨t, -, rfl⟩ := List.mem_map.mp hcall
    trivial
  sorted := by rwa [visits_ensureCall]

/-- Calls grant no other amount than that of the plan of their subscription. -/
theorem amount_of_ensureCalls (row : Option UserToken) :
    ∀ tx ∈ (tokenTable.runAll row (ts.map (ensureCall userId subscription))).2,
      tx.type = .monthlyGrant → PLAN_MONTHLY_TOKENS (planKey subscription) = some tx.amount := by
  induction ts generalizing row with
  | nil => simp
  | cons t ts ih =>
    intro tx htx htype
    rw [List.map_cons, Table.runAll_cons] at htx
    rcases List.mem_append.mp htx with htx | htx
    · exact ensureMonthlyTokens_amount userId (fun _ => t) row htx htype
    · exact ih _ tx htx htype

theorem paidGrants_of_ne (hne : PLAN_MONTHLY_TOKENS (planKey subscription) ≠ some amount)
    (row : Option UserToken) :
    paidGrants amount (tokenTable.runAll row (ts.map (ensureCall userId subscription))).2 = 0 := by
  rw [paidGrants, List.countP_eq_zero]
  intro tx htx hpaid
  obtain ⟨htype, hamount⟩ : tx.type = .monthlyGrant ∧ tx.amount = amount := by simpa using hpaid
  exact hne (hamount ▸ amount_of_ensureCalls row tx htx htype)

/-- Calls with one subscription grant its plan's amount at the visits that are served. -/
theorem paidGrants_of_eq (heq : PLAN_MONTHLY_TOKENS (planKey subscription) = some amount)
    (hplan : ∀ sub ∈ subscription, sub.isActive = true → sub.plan ≠ .basic)
    (hsorted : ts.Pairwise (· ≤ ·)) (row : Option UserToken) :
    paidGrants amount (tokenTable.runAll row (ts.map (ensureCall userId subscription))).2 =
      (served (currentBillingPeriodStart subscription) (lastGrant row) ts).length := by
  have hgrants := grantsOf_runAll hplan (onePlan_ensureCall userId subscription hsorted) row
  rw [visits_ensureCall] at hgrants
  rw [← hgrants, grantsOf, List.length_map, ← List.countP_eq_length_filter, paidGrants]
  refine List.countP_congr fun tx htx => ?_
  have hamount : tx.type = .monthlyGrant → tx.amount = amount := fun htype =>
    Option.some.inj ((amount_of_ensureCalls row tx htx htype).symm.trans heq)
  simpa using hamount

/-- The last grant after calls is the last one before them, or was made by one of them. -/
theorem lastGrant_ensureCalls (row : Option UserToken) :
    ∀ g ∈ lastGrant (tokenTable.runAll row (ts.map (ensureCall userId subscription))).1,
      g ∈ lastGrant row ∨ g ∈ ts := by
  -- By induction on the calls; each one keeps the last grant or makes it.
  induction ts generalizing row with
  | nil => exact fun g hg => .inl hg
  | cons t ts ih =>
    intro g hg
    rw [List.map_cons, Table.runAll_cons] at hg
    rcases ih _ g hg with hg | hg
    · have hcall := ensureMonthlyTokens_lastGrant userId (fun _ => t) row subscription
      rcases hcall with hsame | hnew
      · exact .inl (hsame ▸ hg)
      · refine .inr (List.mem_cons.mpr (.inl ?_))
        exact Option.some.inj (hg.symm.trans hnew)
    · exact .inr (List.mem_cons_of_mem t hg)

end Calls

/-- The grant of a paid plan differs from that of the free plan. -/
theorem freeTokens_ne {sub : Subscription} {amount : ℤ} (hactive : sub.isActive = true)
    (hplan : sub.plan ≠ .basic) (hamount : PLAN_MONTHLY_TOKENS (planKey (some sub)) = some amount) :
    PLAN_MONTHLY_TOKENS (planKey none) ≠ some amount := by
  simp only [planKey, Option.filter, hactive, if_true] at hamount
  cases hvalue : sub.plan with
  | basic => exact absurd hvalue hplan
  | lite =>
    rw [hvalue] at hamount
    rw [← hamount]
    decide
  | pro =>
    rw [hvalue] at hamount
    rw [← hamount]
    decide

/-- In the paid days, calls are granted once in each of the two billing periods in which
there is a call and which has not been granted. -/
theorem length_served_paid {s : Datetime} {sub : Subscription} (hactive : sub.isActive = true)
    (hstart : sub.startedAt = s) {last : Option Datetime} (hlast : ∀ g ∈ last, g ≤ s)
    {ts : List Datetime} (hsorted : ts.Pairwise (· ≤ ·))
    (hpaid : ∀ t ∈ ts, s ≤ t ∧ t ≤ s.addDays 31) :
    (served (currentBillingPeriodStart (some sub)) last ts).length =
      (if (∃ t ∈ ts, t < nextAnchor s) ∧ ¬ Touched (.midnight s.date) last then 1 else 0) +
        if ∃ t ∈ ts, nextAnchor s ≤ t then 1 else 0 := by
  set day := s.date.dayOfMonth with hday
  set n := s.date.index with hn
  have hbilling : billingDay (some sub) = day := by rw [billingDay_active hactive, hstart]
  have hindex : ∀ t ∈ ts, anchorIndex day t = if t < nextAnchor s then n else n + 1 :=
    fun t ht => anchorIndex_of_paid (hpaid t ht).1 (hpaid t ht).2
  have hstart' : ∀ t, currentBillingPeriodStart (some sub) t = anchor day (anchorIndex day t) :=
    fun t => hbilling ▸ currentBillingPeriodStart_eq_anchor (some sub) t
  have hcount := fun m => countP_served (anchor_strictMono day) (inPeriod_anchorIndex day)
    hstart' m last ts (fun g hg t ht => (hlast g hg).trans (hpaid t ht).1) hsorted
  have hfirst : (∃ t ∈ ts, anchorIndex day t = n) ↔ ∃ t ∈ ts, t < nextAnchor s := by
    refine exists_congr fun t => and_congr_right fun ht => ?_
    rw [hindex t ht]
    split_ifs with h <;> simp [h]
  have hsecond : (∃ t ∈ ts, anchorIndex day t = n + 1) ↔ ∃ t ∈ ts, nextAnchor s ≤ t := by
    refine exists_congr fun t => and_congr_right fun ht => ?_
    rw [hindex t ht, ← not_lt]
    split_ifs with h <;> simp [h]
  have hnew : ¬ Touched (nextAnchor s) last := by
    rintro ⟨g, hg, hle⟩
    exact absurd (hle.trans (hlast g hg)) (not_le.mpr (lt_nextAnchor s))
  rw [List.length_eq_countP_add_countP fun t => decide (anchorIndex day t = n), hcount n]
  have hrest : (served (currentBillingPeriodStart (some sub)) last ts).countP
        (fun t => ¬ decide (anchorIndex day t = n)) =
      (served (currentBillingPeriodStart (some sub)) last ts).countP
        (fun t => anchorIndex day t = n + 1) := by
    refine List.countP_congr fun t ht => ?_
    have hti := hindex t (served_subset last ts t ht)
    split_ifs at hti <;> simp [hti]
  rw [hrest, hcount (n + 1), ← anchor_index_self s]
  exact congrArg₂ (· + ·) (if_congr (and_congr_left' hfirst) rfl rfl)
    (if_congr ((and_iff_left hnew).trans hsecond) rfl rfl)

/-- Calls while no subscription is found. -/
theorem ensureCalls_none {subscriptions : SubscriptionTable} {userId : UUID} {ts : List Datetime}
    (h : ∀ t ∈ ts, getActiveSubscription subscriptions userId .logit t = none) :
    ensureCalls subscriptions userId ts = ts.map (ensureCall userId none) :=
  List.map_congr_left fun t ht => by rw [h t ht]

/-- Calls up to the expiry are given the subscription, later ones are not. -/
theorem ensureCalls_activated {activated : SubscriptionTable} {userId : UUID} {sub : Subscription}
    {expiry : Datetime} {ts : List Datetime} (hsorted : ts.Pairwise (· ≤ ·))
    (hsub : ∀ t, getActiveSubscription activated userId .logit t =
      if t ≤ expiry then some sub else none) :
    ensureCalls activated userId ts =
      (ts.filter fun t => t ≤ expiry).map (ensureCall userId (some sub)) ++
        (ts.filter fun t => expiry < t).map (ensureCall userId none) := by
  conv_lhs => rw [ensureCalls, ← filter_le_append_filter_lt hsorted expiry, List.map_append]
  congr 1
  · refine List.map_congr_left fun t ht => ?_
    rw [hsub t, if_pos (by simpa using (List.mem_filter.mp ht).2)]
  · refine List.map_congr_left fun t ht => ?_
    rw [hsub t, if_neg (by simpa using (List.mem_filter.mp ht).2)]

/-- After an activation, calls grant the plan's tokens once in each of its two billing periods
in which there is a call and which has not been granted; calls after the expiry grant the free
plan's. -/
theorem paidGrants_activated {activated : SubscriptionTable} {userId : UUID} {sub : Subscription}
    {s : Datetime} {amount : ℤ} (hactive : sub.isActive = true) (hstart : sub.startedAt = s)
    (hbasic : sub.plan ≠ .basic) (hamount : PLAN_MONTHLY_TOKENS (planKey (some sub)) = some amount)
    (hsub : ∀ t, getActiveSubscription activated userId .logit t =
      if t ≤ s.addDays 31 then some sub else none)
    (row : Option UserToken) (hlast : ∀ g ∈ lastGrant row, g ≤ s)
    {ts : List Datetime} (hsorted : ts.Pairwise (· ≤ ·)) (hpaid : ∀ t ∈ ts, s ≤ t) :
    paidGrants amount (tokenTable.runAll row (ensureCalls activated userId ts)).2 =
      (if (∃ t ∈ ts, t < nextAnchor s) ∧ ¬ Touched (.midnight s.date) (lastGrant row)
        then 1 else 0) +
        if ∃ t ∈ ts, nextAnchor s ≤ t ∧ t ≤ s.addDays 31 then 1 else 0 := by
  have hlive : ∀ t ∈ ts.filter fun t => t ≤ s.addDays 31, s ≤ t ∧ t ≤ s.addDays 31 := fun t ht =>
    ⟨hpaid t (List.mem_filter.mp ht).1, by simpa using (List.mem_filter.mp ht).2⟩
  have hfirst : (∃ t ∈ ts.filter fun t => t ≤ s.addDays 31, t < nextAnchor s) ↔
      ∃ t ∈ ts, t < nextAnchor s := by
    constructor
    · rintro ⟨t, ht, hlt⟩
      exact ⟨t, (List.mem_filter.mp ht).1, hlt⟩
    · rintro ⟨t, ht, hlt⟩
      have hexpiry := hlt.le.trans (nextAnchor_le_expiry s)
      exact ⟨t, List.mem_filter.mpr ⟨ht, by simpa using hexpiry⟩, hlt⟩
  have hsecond : (∃ t ∈ ts.filter fun t => t ≤ s.addDays 31, nextAnchor s ≤ t) ↔
      ∃ t ∈ ts, nextAnchor s ≤ t ∧ t ≤ s.addDays 31 := by
    constructor
    · rintro ⟨t, ht, hle⟩
      exact ⟨t, (List.mem_filter.mp ht).1, hle, (hlive t ht).2⟩
    · rintro ⟨t, ht, hle, hexpiry⟩
      exact ⟨t, List.mem_filter.mpr ⟨ht, by simpa using hexpiry⟩, hle⟩
  have hplan : ∀ other ∈ some sub, other.isActive = true → other.plan ≠ .basic :=
    fun other hother _ => Option.some.inj hother ▸ hbasic
  have hserved := length_served_paid hactive hstart hlast (hsorted.filter _) hlive
  simp only [hfirst, hsecond] at hserved
  rw [ensureCalls_activated hsorted hsub, Table.runAll_append, paidGrants_append,
    paidGrants_of_ne (freeTokens_ne hactive hbasic hamount), Nat.add_zero,
    paidGrants_of_eq hamount hplan (hsorted.filter _) row, hserved]

/-- Calls before and after an activation grant the paid plan's tokens at most once exactly
if the user was granted tokens on the day of the activation before it, or no call comes
between the activation and the next anchor, or none between that anchor and the expiry. -/
theorem paidGrants_le_one_iff {settings : Settings} {encode : JwtEncode}
    {subscriptions activated : SubscriptionTable} {s : Datetime} {record paid : PaymentRecord}
    {amount : ℤ}
    (hactivate : activateSubscription settings encode subscriptions s record =
      .ok (activated, paid))
    (htype : record.subscriptionType = "logit")
    (hamount : PLAN_MONTHLY_TOKENS record.plan = some amount)
    (row : Option UserToken) (hlast : ∀ g ∈ lastGrant row, g ≤ s)
    (before after : List Datetime) (hsorted : (before ++ s :: after).Pairwise (· ≤ ·))
    (hbefore : ∀ t ∈ before, getActiveSubscription subscriptions record.userId .logit t = none) :
    let free := tokenTable.runAll row (ensureCalls subscriptions record.userId before)
    let later := tokenTable.runAll free.1 (ensureCalls activated record.userId after)
    paidGrants amount (free.2 ++ later.2) ≤ 1 ↔
      Touched (.midnight s.date) (lastGrant free.1) ∨ (∀ t ∈ after, nextAnchor s ≤ t) ∨
        ∀ t ∈ after, t < nextAnchor s ∨ s.addDays 31 < t := by
  intro free later
  obtain ⟨-, hafter, hle⟩ := List.pairwise_append.mp hsorted
  obtain ⟨hsafter, hafterSorted⟩ := List.pairwise_cons.mp hafter
  obtain ⟨sub, hactive, hstart, hplan, hbasic, hsub⟩ :=
    getActiveSubscription_activated hactivate htype hamount
  rw [← hplan] at hamount
  have hfree : paidGrants amount free.2 = 0 := by
    simp only [free, ensureCalls_none hbefore]
    exact paidGrants_of_ne (freeTokens_ne hactive hbasic hamount) row
  have hlast' : ∀ g ∈ lastGrant free.1, g ≤ s := by
    simp only [free, ensureCalls_none hbefore]
    intro g hg
    rcases lastGrant_ensureCalls row g hg with hg | hg
    · exact hlast g hg
    · exact hle g hg s List.mem_cons_self
  have hlater := paidGrants_activated hactive hstart hbasic hamount hsub free.1 hlast'
    hafterSorted hsafter
  rw [paidGrants_append, hfree, Nat.zero_add, hlater]
  have hnone : (∀ t ∈ after, nextAnchor s ≤ t) ↔ ¬ ∃ t ∈ after, t < nextAnchor s := by
    simp only [not_exists, not_and, not_lt]
  have hnone' : (∀ t ∈ after, t < nextAnchor s ∨ s.addDays 31 < t) ↔
      ¬ ∃ t ∈ after, nextAnchor s ≤ t ∧ t ≤ s.addDays 31 := by
    simp only [not_exists, not_and, not_le, or_iff_not_imp_left, not_lt]
  rw [hnone, hnone']
  by_cases htouched : Touched (.midnight s.date) (lastGrant free.1)
  · -- The first period has been granted: at most the second grant is left.
    simp only [htouched, not_true_eq_false, and_false, if_false, true_or, iff_true]
    split_ifs <;> simp
  · simp only [htouched, not_false_eq_true, and_true, false_or]
    split_ifs with hone htwo htwo <;> simp [hone, htwo]

/-! A user pays for the lite plan at ten o'clock on 10 January 2026 and calls at eleven; the
subscription runs until ten o'clock on 10 February, and a call at nine on that day comes
after the next anchor. -/

theorem not_paidGrants_le_one :
    ¬ ∀ (settings : Settings) (encode : JwtEncode) (subscriptions activated : SubscriptionTable)
        (s : Datetime) (record paid : PaymentRecord) (amount : ℤ) (row : Option UserToken)
        (before after : List Datetime),
      activateSubscription settings encode subscriptions s record = .ok (activated, paid) →
      record.subscriptionType = "logit" → PLAN_MONTHLY_TOKENS record.plan = some amount →
      (∀ g ∈ lastGrant row, g ≤ s) → (before ++ s :: after).Pairwise (· ≤ ·) →
      (∀ t ∈ before, getActiveSubscription subscriptions record.userId .logit t = none) →
      let free := tokenTable.runAll row (ensureCalls subscriptions record.userId before)
      let later := tokenTable.runAll free.1 (ensureCalls activated record.userId after)
      paidGrants amount (free.2 ++ later.2) ≤ 1 := by
  intro h
  have hone := h bareSettings (fun _ _ => "") (fun _ _ => none)
    (liteSubscriptions (.utc 2026 1 10 10)) (.utc 2026 1 10 10) litePayment _ 400 none []
    [.utc 2026 1 10 11, .utc 2026 2 10 9] rfl rfl rfl (by simp [lastGrant])
    (by decide +kernel) (by simp)
  revert hone
  decide +kernel

theorem paidGrants_le_one_iff_first :
    let later := tokenTable.runAll none
      (ensureCalls (liteSubscriptions (.utc 2026 1 10 10)) 7
        [.utc 2026 1 10 11, .utc 2026 1 20 9])
    paidGrants 400 ([] ++ later.2) ≤ 1 := by
  have hactivate : activateSubscription bareSettings (fun _ _ => "") (fun _ _ => none)
      (.utc 2026 1 10 10) litePayment =
        .ok (liteSubscriptions (.utc 2026 1 10 10), paidPeriod litePayment (.utc 2026 1 10 10)) :=
    rfl
  exact (paidGrants_le_one_iff hactivate rfl rfl none (by simp [lastGrant]) []
    [.utc 2026 1 10 11, .utc 2026 1 20 9] (by decide +kernel) (by simp)).mpr
      (.inr (.inr (by decide +kernel)))

end Logit.Tokens
