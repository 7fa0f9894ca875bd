import Logit.Concurrency.Pool
import Logit.Payments.Entitlement
import Logit.Tokens.PaidPlan
import Mathlib.Algebra.Order.BigOperators.Group.List

/-!
# Limits of monthly grants

A request that shows the tokens of a user loads the subscription of the user first, and grants
the tokens of the billing period once it has locked their row. In between, reports of payments
activate subscriptions, cancellations end them, other requests grant tokens, and midnights pass.
Still a payment brings at most two grants of its plan: it has two billing periods, and whoever
grants in one of them has reached its start, which is then never reached again. And a grant comes
after a midnight that no earlier one has reached, so no day has two grants, and no month has two
of the free plan.

## Main definitions

* `Billing` — payments, subscriptions and tokens, and the clock
* `GrantTask`, `GrantAct`, `OtherEvent`, `grantRequests` — the requests, and what happens meanwhile
* `paidMilestones` — the starts of the billing periods that payments have paid for
* `Limited` — the limits of the grants of a user

## Main results

* `limited_of_reachable` — in every run, grants keep to their limits
-/

namespace Logit.Tokens

open Calendar Concurrency Payments Python Schedule Security Subscriptions

/-! ## Requests -/

/-- The tables of payments, subscriptions and tokens, and the instant it is. -/
structure Billing where
  now : Datetime
  db : Database
  rows : UUID → Option UserToken
  transactions : List TokenTransaction

/-- A call has left its row and its transactions. -/
def Billing.record (s : Billing) (userId : UUID) (effect : UserToken × List TokenTransaction) :
    Billing :=
  { s with
    rows := Function.update s.rows userId (some effect.1)
    transactions := s.transactions ++ effect.2 }

/-- Where a request stands that shows the tokens of a user, or takes some. -/
inductive GrantTask
  | loading (userId : UUID)
  /-- The subscription has been loaded at an instant. -/
  | ensuring (userId : UUID) (loadedAt : Datetime) (subscription : Option Subscription)
  | over

/-- One statement of a request. Whoever is about to grant has waited for the row, but not for
weeks. -/
inductive GrantAct : Billing → GrantTask → Billing → GrantTask → Prop
  | load {s : Billing} {userId : UUID} :
      GrantAct s (.loading userId) s (.ensuring userId s.now
        (getActiveSubscription s.db.subscriptions userId .logit s.now))
  | ensure {s : Billing} {userId : UUID} {loadedAt : Datetime} {subscription : Option Subscription}
      {answer : Bool × ℤ × UserToken} (hsoon : s.now ≤ loadedAt.addDays 24)
      (hok : (ensureMonthlyTokens userId (fun _ => s.now) (s.rows userId) subscription).result =
        .ok answer) :
      GrantAct s (.ensuring userId loadedAt subscription) (s.record userId
        (ensureMonthlyTokens userId (fun _ => s.now) (s.rows userId) subscription).effect) .over
  /-- The request is not let in, raises, or is rolled back. -/
  | fail {s : Billing} {task : GrantTask} : GrantAct s task s .over

/-- A request that starts. -/
def GrantTask.Starts : GrantTask → Prop
  | .loading _ => True
  | _ => False

variable (settings : Settings) (encode : JwtEncode)

/-- What happens between the statements of requests. -/
inductive OtherEvent : Billing → Billing → Prop
  | wait {s : Billing} {later : Datetime} (hle : s.now ≤ later) :
      OtherEvent s { s with now := later }
  /-- PayApp reports, users and administrators cancel, rows expire. -/
  | call {s : Billing} (call : Call) (hfinds : call.Finds s.db)
      (hnow : ∀ delivery, call = .handleWebhook delivery → delivery.activatedAt = s.now) :
      OtherEvent s { s with db := call.run settings encode s.db }
  | edit {s : Billing} (users : UUID → Bool) (plans : String → Option Plan) :
      OtherEvent s { s with db := { s.db with users, plans } }
  /-- Another function of the token service has been called. -/
  | tokens {s : Billing} (call : TokenCall) (hvisit : call.visit? = none)
      (htyped : call.function.Typed) :
      OtherEvent s (s.record call.userId (call.run (s.rows call.userId)))

/-- The requests that grant monthly tokens. -/
def grantRequests : Program Billing GrantTask :=
  ⟨OtherEvent settings encode, GrantTask.Starts, GrantAct⟩

/-- Nothing has been paid, and nobody has tokens. -/
structure Billing.Empty (s : Billing) : Prop where
  db : s.db.Empty
  rows : ∀ userId, s.rows userId = none
  transactions : s.transactions = []

/-! ## Limits -/

/-- The monthly grants of a user. -/
def Billing.grantsTo (s : Billing) (userId : UUID) : List TokenTransaction :=
  s.transactions.filter fun tx => tx.userId = userId ∧ tx.type = .monthlyGrant

/-- A payment for a plan of a user. -/
def PaysFor (userId : UUID) (plan : String) (record : PaymentRecord) : Prop :=
  record.userId = userId ∧ record.subscriptionType = "logit" ∧ record.plan = plan

instance (userId : UUID) (plan : String) : DecidablePred (PaysFor userId plan) := fun _ =>
  inferInstanceAs (Decidable (_ ∧ _ ∧ _))

/-- The limits of the monthly grants of a user. -/
structure Limited (s : Billing) (userId : UUID) : Prop where
  /-- There are at most two grants of a plan for each payment for it. -/
  paid : ∀ plan amount, plan ≠ "free" → PLAN_MONTHLY_TOKENS plan = some amount →
    (s.grantsTo userId).countP (·.amount = amount) ≤
      2 * s.db.payments.countP (PaysFor userId plan ·)
  /-- There is at most one grant of the free plan in a month. -/
  free : ∀ amount, PLAN_MONTHLY_TOKENS "free" = some amount → ∀ index : ℤ,
    (s.grantsTo userId).countP
      (fun tx => tx.amount = amount ∧ tx.createdAt.date.index = index) ≤ 1
  /-- There is at most one grant of any plan on a day. -/
  daily : ∀ date : Date, (s.grantsTo userId).countP (·.createdAt.date = date) ≤ 1

/-! ## Paid periods -/

/-- The starts of the billing periods that a payment has paid for. -/
def milestonesOf (record : PaymentRecord) : List Datetime :=
  match record.subscriptionStartedAt with
  | some s => [.midnight s.date, nextAnchor s]
  | none => []

/-- The starts of the billing periods that a user has paid for on a plan. -/
def paidMilestones (payments : List PaymentRecord) (userId : UUID) (plan : String) :
    List Datetime :=
  (payments.filter (PaysFor userId plan ·)).flatMap milestonesOf

/-- A period of a plan that a user has paid for has started at an instant. -/
def PaidFrom (payments : List PaymentRecord) (userId : UUID) (plan : String) (s : Datetime) :
    Prop :=
  ∃ record ∈ payments, PaysFor userId plan record ∧ record.subscriptionStartedAt = some s

variable {settings encode} {payments : List PaymentRecord} {userId : UUID} {plan : String}
  {s t : Datetime} {last : Option Datetime}

theorem length_milestonesOf_le (record : PaymentRecord) : (milestonesOf record).length ≤ 2 := by
  unfold milestonesOf
  split <;> simp

/-- Every payment has at most two milestones. -/
theorem length_paidMilestones_le (payments : List PaymentRecord) (userId : UUID) (plan : String) :
    (paidMilestones payments userId plan).length ≤ 2 * payments.countP (PaysFor userId plan ·) := by
  rw [paidMilestones, List.length_flatMap, List.countP_eq_length_filter, mul_comm]
  refine (List.sum_le_card_nsmul _ 2 fun n hn => ?_).trans_eq (by simp)
  obtain ⟨record, -, rfl⟩ := List.mem_map.mp hn
  exact length_milestonesOf_le record

@[simp] theorem paidMilestones_append (payments more : List PaymentRecord) (userId : UUID)
    (plan : String) : paidMilestones (payments ++ more) userId plan =
      paidMilestones payments userId plan ++ paidMilestones more userId plan := by
  simp [paidMilestones]

/-- The state of a payment does not matter. -/
theorem paysFor_restated {change : PaymentRecord → PaymentRecord} (h : Restates change)
    (record : PaymentRecord) :
    PaysFor userId plan (change record) ↔ PaysFor userId plan record := by
  obtain ⟨payState, data, hrecord⟩ := h record
  rw [hrecord]
  rfl

theorem milestonesOf_restated {change : PaymentRecord → PaymentRecord} (h : Restates change)
    (record : PaymentRecord) : milestonesOf (change record) = milestonesOf record := by
  obtain ⟨payState, data, hrecord⟩ := h record
  rw [hrecord]
  rfl

theorem paidMilestones_map {change : PaymentRecord → PaymentRecord} (h : Restates change)
    (payments : List PaymentRecord) (userId : UUID) (plan : String) :
    paidMilestones (payments.map change) userId plan = paidMilestones payments userId plan := by
  rw [paidMilestones, paidMilestones, List.filter_map, List.flatMap_map]
  simp only [Function.comp_def, paysFor_restated h, milestonesOf_restated h]

/-- What has been paid for is a milestone, and so is the next anchor. -/
theorem PaidFrom.mem (h : PaidFrom payments userId plan s) :
    Datetime.midnight s.date ∈ paidMilestones payments userId plan ∧
      nextAnchor s ∈ paidMilestones payments userId plan := by
  obtain ⟨record, hrecord, hpays, hstarted⟩ := h
  have hmem : record ∈ payments.filter (PaysFor userId plan ·) :=
    List.mem_filter.mpr ⟨hrecord, decide_eq_true hpays⟩
  have hmilestones : milestonesOf record = [.midnight s.date, nextAnchor s] := by
    rw [milestonesOf, hstarted]
  simp only [paidMilestones, List.mem_flatMap]
  exact ⟨⟨record, hmem, by simp [hmilestones]⟩, ⟨record, hmem, by simp [hmilestones]⟩⟩

/-- In the eight weeks after an activation, the billing period starts at one of its milestones. -/
theorem periodStart_mem {sub : Subscription} (hactive : sub.isActive = true)
    (hpaid : PaidFrom payments userId plan sub.startedAt) (hle : sub.startedAt ≤ t)
    (hsoon : t ≤ sub.startedAt.addDays 55) :
    currentBillingPeriodStart (some sub) t ∈ paidMilestones payments userId plan := by
  set day := sub.startedAt.date.dayOfMonth with hday
  have hperiod := inPeriod_anchorIndex day t
  have hmono := anchor_strictMono day
  have hstarted : anchor day sub.startedAt.date.index = .midnight sub.startedAt.date :=
    anchor_index_self sub.startedAt
  have hfirst : InPeriod (anchor day) sub.startedAt.date.index sub.startedAt :=
    ⟨hstarted ▸ Datetime.midnight_le _, lt_nextAnchor sub.startedAt⟩
  have hsecond : anchorIndex day t ≤ sub.startedAt.date.index + 1 := by
    by_contra hlate
    have hanchor : anchor day (sub.startedAt.date.index + 1 + 1) ≤ t :=
      (hmono.monotone (by omega)).trans hperiod.1
    have hgap := dayNumber_anchor_succ_ge day sub.startedAt.date.index
    have hgap' := dayNumber_anchor_succ_ge day (sub.startedAt.date.index + 1)
    have hself := dayNumber_anchorDate_self sub.startedAt.date
    rw [← hday] at hself
    have hlast := Datetime.date_mono hsoon
    rw [Datetime.dayNumber_addDays] at hlast
    rw [anchor, Datetime.midnight_le_iff] at hanchor
    push_cast at hlast
    omega
  rw [currentBillingPeriodStart_eq_anchor, billingDay_active hactive, ← hday]
  rcases (hfirst.index_mono hmono hperiod hle).eq_or_lt with hsame | hnext
  · rw [← hsame, hstarted]
    exact hpaid.mem.1
  · have hindex : anchorIndex day t = sub.startedAt.date.index + 1 := by omega
    rw [hindex]
    exact hpaid.mem.2

/-! ## Subscriptions -/

/-- A subscription runs for 31 days from its payment. -/
structure RunsFrom (payments : List PaymentRecord) (userId : UUID) (sub : Subscription) : Prop where
  paid : PaidFrom payments userId sub.plan.value sub.startedAt
  expiresAt_eq : sub.expiresAt = some (sub.startedAt.addDays 31)

theorem PaidFrom.extended {change : PaymentRecord → PaymentRecord} {more : List PaymentRecord}
    (h : PaidFrom payments userId plan s) (hchange : Restates change) :
    PaidFrom (payments.map change ++ more) userId plan s := by
  obtain ⟨record, hrecord, hpays, hstarted⟩ := h
  refine ⟨change record, List.mem_append_left _ (List.mem_map_of_mem hrecord),
    (paysFor_restated hchange record).mpr hpays, ?_⟩
  obtain ⟨payState, data, hsame⟩ := hchange record
  rw [hsame]
  exact hstarted

/-- The payments after a call are those before it, in other states, and perhaps another one. -/
theorem exists_payments_run (settings : Settings) (encode : JwtEncode) (db : Database)
    (call : Call) : ∃ change more, Restates change ∧
      (call.run settings encode db).payments = db.payments.map change ++ more := by
  rcases call.payments_cases settings encode db with
    ⟨change, hchange, hpayments⟩ | ⟨delivery, userId, type, record, -, hrecorded⟩
  · exact ⟨change, [], hchange, by rw [hpayments, List.append_nil]⟩
  · obtain ⟨sub, hafter⟩ := hrecorded.after_eq
    exact ⟨id, [record], fun record => ⟨record.payState, record.rawWebhookData, rfl⟩,
      by rw [hafter, List.map_id]⟩

/-- A subscription runs as before after a call, or from the payment that is reported. -/
theorem runsFrom_run {db : Database} {call : Call} {now : Datetime}
    (hnow : ∀ delivery, call = .handleWebhook delivery → delivery.activatedAt = now)
    (hruns : ∀ sub, db.subscriptions userId .logit = some sub →
      RunsFrom db.payments userId sub ∧ sub.startedAt ≤ now) {sub : Subscription}
    (hsub : (call.run settings encode db).subscriptions userId .logit = some sub) :
    RunsFrom (call.run settings encode db).payments userId sub ∧ sub.startedAt ≤ now := by
  obtain ⟨change, more, hchange, hpayments⟩ := exists_payments_run settings encode db call
  have hcarried : ∀ earlier, db.subscriptions userId .logit = some earlier →
      Subscription.paid sub = Subscription.paid earlier →
        RunsFrom (call.run settings encode db).payments userId sub ∧ sub.startedAt ≤ now := by
    intro earlier hearlier hsame
    obtain ⟨⟨hpaid, hexpires⟩, hle⟩ := hruns earlier hearlier
    simp only [Subscription.paid, Prod.mk.injEq] at hsame
    obtain ⟨hplan, hstarted, hexpiresAt⟩ := hsame
    rw [hpayments]
    refine ⟨⟨?_, ?_⟩, hstarted ▸ hle⟩
    · rw [hplan, hstarted]
      exact hpaid.extended hchange
    · rw [hexpiresAt, hstarted, hexpires]
  rcases call.run_cases settings encode db with
    hkept | ⟨delivery, user, type, granted, record, rfl, hgranted⟩
  · obtain ⟨earlier, hearlier, hsame, -⟩ :=
      not_grants_iff.mp (hkept.not_grants userId .logit) sub hsub
    exact hcarried earlier hearlier hsame
  · rcases paid_of_paymentWebhook hsub with ⟨earlier, hearlier, hsame⟩ | ⟨hstarted, hexpires⟩
    · exact hcarried earlier hearlier hsame
    · by_cases hown : userId = user ∧ .logit = type
      · obtain ⟨rfl, rfl⟩ := hown
        obtain ⟨huser, htype, hpaidAt⟩ := hgranted.paidFor
        have hrow := hgranted.after_eq
        rw [hrow] at hsub ⊢
        obtain rfl : granted = sub := by simpa using hsub
        have hrecord : record ∈ db.payments ++ [record] :=
          List.mem_append_right _ (List.mem_singleton_self _)
        refine ⟨⟨⟨record, hrecord, ⟨huser, htype, hgranted.plan_eq⟩, hgranted.period.1⟩, ?_⟩, ?_⟩
        · rw [hexpires, hstarted]
        · rw [hstarted, hnow delivery rfl]
      · have hrow := hgranted.after_eq
        rw [hrow] at hsub
        dsimp only at hsub
        rw [setSubscription_ne _ hown] at hsub
        exact hcarried sub hsub rfl

/-- A loaded subscription is active, runs from a payment, and has not run out. -/
theorem runsFrom_of_getActiveSubscription {subscriptions : SubscriptionTable} {now : Datetime}
    (hruns : ∀ sub, subscriptions userId .logit = some sub →
      RunsFrom payments userId sub ∧ sub.startedAt ≤ now) {sub : Subscription}
    (hsub : getActiveSubscription subscriptions userId .logit now = some sub) :
    sub.isActive = true ∧ RunsFrom payments userId sub ∧ sub.startedAt ≤ now ∧
      now ≤ sub.startedAt.addDays 31 := by
  obtain ⟨found, hfound⟩ : ∃ found, (subscriptions userId .logit).filter (·.isActive) =
      some found := by
    cases hrow : (subscriptions userId .logit).filter (·.isActive) with
    | none => simp [getActiveSubscription, hrow] at hsub
    | some found => exact ⟨found, rfl⟩
  obtain ⟨hrow, hactive⟩ := Option.filter_eq_some_iff.mp hfound
  obtain ⟨hfrom, hle⟩ := hruns found hrow
  rw [getActiveSubscription_of_row hrow hactive hfrom.expiresAt_eq] at hsub
  split_ifs at hsub with hrunning
  obtain rfl := Option.some.inj hsub
  exact ⟨hactive, hfrom, hle, hrunning⟩

/-! ## Grants -/

/-- A grant comes on a later day than another, and in a later month if it is one of the free
plan. -/
structure Apart (earlier later : TokenTransaction) : Prop where
  day : earlier.createdAt.date.dayNumber < later.createdAt.date.dayNumber
  month : PLAN_MONTHLY_TOKENS "free" = some later.amount →
    earlier.createdAt.date.index < later.createdAt.date.index

/-- What every event keeps of the grants of a user. -/
structure Granting (s : Billing) (userId : UUID) : Prop where
  runs : ∀ sub, s.db.subscriptions userId .logit = some sub →
    RunsFrom s.db.payments userId sub ∧ sub.startedAt ≤ s.now
  past : ∀ g ∈ lastGrant (s.rows userId), g ≤ s.now
  paid : ∀ plan amount, plan ≠ "free" → PLAN_MONTHLY_TOKENS plan = some amount →
    (s.grantsTo userId).countP (·.amount = amount) ≤
      reached (paidMilestones s.db.payments userId plan) (lastGrant (s.rows userId))
  last : ∀ tx ∈ s.grantsTo userId, ∃ g ∈ lastGrant (s.rows userId), tx.createdAt ≤ g
  apart : (s.grantsTo userId).Pairwise Apart

/-- What a request has loaded. -/
def GrantTask.Loaded (s : Billing) : GrantTask → Prop
  | .ensuring userId loadedAt subscription => loadedAt ≤ s.now ∧ ∀ sub ∈ subscription,
      sub.isActive = true ∧ RunsFrom s.db.payments userId sub ∧ sub.startedAt ≤ loadedAt ∧
        loadedAt ≤ sub.startedAt.addDays 31
  | _ => True

/-- Time goes on, and payments stay. -/
structure Goes (s s' : Billing) : Prop where
  now : s.now ≤ s'.now
  paid : ∀ userId plan started, PaidFrom s.db.payments userId plan started →
    PaidFrom s'.db.payments userId plan started

/-- The plans that grant tokens. -/
theorem plan_of_PLAN_MONTHLY_TOKENS {amount : ℤ} (h : PLAN_MONTHLY_TOKENS plan = some amount) :
    plan = "free" ∧ amount = 50 ∨ plan = "lite" ∧ amount = 400 ∨ plan = "pro" ∧ amount = 2000 := by
  unfold PLAN_MONTHLY_TOKENS at h
  split at h <;> simp_all

/-- No two plans grant the same amount. -/
theorem PLAN_MONTHLY_TOKENS_injective {other : String} {amount : ℤ}
    (h : PLAN_MONTHLY_TOKENS plan = some amount)
    (hother : PLAN_MONTHLY_TOKENS other = some amount) : plan = other := by
  rcases plan_of_PLAN_MONTHLY_TOKENS h with ⟨rfl, rfl⟩ | ⟨rfl, rfl⟩ | ⟨rfl, rfl⟩ <;>
    rcases plan_of_PLAN_MONTHLY_TOKENS hother with ⟨rfl, _⟩ | ⟨rfl, _⟩ | ⟨rfl, _⟩ <;>
    first | rfl | omega

theorem planKey_active {sub : Subscription} (hactive : sub.isActive = true) :
    planKey (some sub) = sub.plan.value := by
  simp [planKey, Option.filter, hactive]

section Steps

variable {s s' : Billing} {task task' : GrantTask}

theorem Goes.refl (s : Billing) : Goes s s := ⟨le_rfl, fun _ _ _ h => h⟩

theorem GrantTask.Loaded.later (h : task.Loaded s) (hgoes : Goes s s') : task.Loaded s' := by
  cases task with
  | ensuring userId loadedAt subscription =>
    refine ⟨h.1.trans hgoes.now, fun sub hsub => ?_⟩
    obtain ⟨hactive, hruns, hstarted, hrunning⟩ := h.2 sub hsub
    exact ⟨hactive, ⟨hgoes.paid _ _ _ hruns.paid, hruns.expiresAt_eq⟩, hstarted, hrunning⟩
  | _ => trivial

/-- Without grants there are no transactions of that type. -/
theorem filter_of_grantsOf {txs : List TokenTransaction} (h : grantsOf txs = []) (userId : UUID) :
    txs.filter (fun tx => tx.userId = userId ∧ tx.type = .monthlyGrant) = [] := by
  refine List.filter_eq_nil_iff.mpr fun tx htx hgrant => ?_
  obtain ⟨-, htype⟩ := of_decide_eq_true hgrant
  have hmem : tx.createdAt ∈ grantsOf txs :=
    List.mem_map_of_mem (List.mem_filter.mpr ⟨htx, decide_eq_true htype⟩)
  rw [h] at hmem
  cases hmem

/-- The grants of a user after a call. -/
theorem grantsTo_record (s : Billing) (user userId : UUID)
    (effect : UserToken × List TokenTransaction) :
    (s.record user effect).grantsTo userId = s.grantsTo userId ++
      effect.2.filter (fun tx => tx.userId = userId ∧ tx.type = .monthlyGrant) :=
  List.filter_append _ _

@[simp] theorem rows_record (s : Billing) (userId : UUID)
    (effect : UserToken × List TokenTransaction) :
    (s.record userId effect).rows = Function.update s.rows userId (some effect.1) := rfl

/-- A call that leaves the grants of the user, and the last one. -/
theorem Granting.same {effect : UserToken × List TokenTransaction} {user : UUID}
    (h : Granting s userId) (hgrants : (s.record user effect).grantsTo userId = s.grantsTo userId)
    (hlast : userId = user → lastGrant (some effect.1) = lastGrant (s.rows user)) :
    Granting (s.record user effect) userId := by
  have hrow : lastGrant ((s.record user effect).rows userId) = lastGrant (s.rows userId) := by
    by_cases hown : userId = user
    · rw [hown, rows_record, Function.update_self, hlast hown]
    · rw [rows_record, Function.update_of_ne hown]
  obtain ⟨hruns, hpast, hpaid, hlast, hapart⟩ := h
  refine ⟨hruns, ?_, ?_, ?_, ?_⟩
  · rwa [hrow]
  · rwa [hrow, hgrants]
  · rwa [hrow, hgrants]
  · rwa [hgrants]

/-- A call that grants nothing leaves the grants. -/
theorem Granting.record {effect : UserToken × List TokenTransaction} {user : UUID}
    (h : Granting s userId) (hnone : grantsOf effect.2 = [])
    (hlast : lastGrant (some effect.1) = lastGrant (s.rows user)) :
    Granting (s.record user effect) userId := by
  refine h.same ?_ fun _ => hlast
  rw [grantsTo_record, filter_of_grantsOf hnone, List.append_nil]

/-- The last grant was made before the midnight on which the new period starts. -/
theorem apart_of_not_touched {subscription : Option Subscription} {tx later : TokenTransaction}
    (hlast : ∃ g ∈ last, tx.createdAt ≤ g)
    (hnew : ¬ Touched (currentBillingPeriodStart subscription later.createdAt) last)
    (hactive : ∀ sub ∈ subscription, sub.isActive = true)
    (hamount : PLAN_MONTHLY_TOKENS (planKey subscription) = some later.amount) :
    Apart tx later := by
  obtain ⟨g, hg, hle⟩ := hlast
  have hbefore : tx.createdAt < currentBillingPeriodStart subscription later.createdAt :=
    hle.trans_lt (not_le.mp fun hstart => hnew ⟨g, hg, hstart⟩)
  have hafter := (inPeriod_currentBillingPeriodStart subscription later.createdAt).1
  rw [currentBillingPeriodStart_eq_anchor] at hbefore hafter
  rw [anchor, Datetime.lt_midnight_iff] at hbefore
  rw [anchor, Datetime.midnight_le_iff] at hafter
  refine ⟨hbefore.trans_le hafter, fun hfree => ?_⟩
  have hnone : subscription = none := by
    have hkey : planKey subscription = "free" := PLAN_MONTHLY_TOKENS_injective hamount hfree
    cases subscription with
    | none => rfl
    | some sub =>
      rw [planKey_active (hactive sub rfl)] at hkey
      cases hplan : sub.plan <;> simp [hplan, SubscriptionPlan.value] at hkey
  subst hnone
  have hfirst : billingDay none = 1 := rfl
  rw [hfirst, anchorIndex_one, dayNumber_anchorDate] at hbefore
  have hstart := tx.createdAt.date.monthStart_lt_dayNumber
  have hmonth : monthStart tx.createdAt.date.index < monthStart later.createdAt.date.index := by
    have hone : min ((1 : ℕ+) : ℕ) (lengthOf later.createdAt.date.index) ≤ 1 := min_le_left _ _
    omega
  exact monthStart_strictMono.lt_iff_lt.mp hmonth

/-- A grant in a period that has not been reached. -/
theorem Granting.grant {subscription : Option Subscription} {tx : TokenTransaction}
    (h : Granting s userId)
    (hsub : ∀ sub ∈ subscription, sub.isActive = true ∧ RunsFrom s.db.payments userId sub ∧
      sub.startedAt ≤ s.now ∧ s.now ≤ sub.startedAt.addDays 55)
    (hnew : ¬ Touched (currentBillingPeriodStart subscription s.now) (lastGrant (s.rows userId)))
    (hamount : PLAN_MONTHLY_TOKENS (planKey subscription) = some tx.amount)
    (hcreated : tx.createdAt = s.now) (hdb : s'.db = s.db) (hnow : s'.now = s.now)
    (hlast : lastGrant (s'.rows userId) = some s.now)
    (hgrants : s'.grantsTo userId = s.grantsTo userId ++ [tx]) : Granting s' userId := by
  obtain ⟨hruns, hpast, hpaid, hearlier, hapart⟩ := h
  refine ⟨?_, ?_, fun plan amount hplan hplanAmount => ?_, fun other hother => ?_, ?_⟩
  · rwa [hdb, hnow]
  · rw [hlast, hnow]
    exact fun g hg => (Option.some.inj hg).ge
  · rw [hdb, hlast, hgrants, List.countP_append, List.countP_singleton]
    have hcount := hpaid plan amount hplan hplanAmount
    have hmono := reached_le_reached hpast (paidMilestones s.db.payments userId plan)
    split_ifs with hsame
    · -- The grant is one of this plan, and reaches the start of a period that was paid for.
      have hkey : planKey subscription = plan :=
        PLAN_MONTHLY_TOKENS_injective hamount (of_decide_eq_true hsame ▸ hplanAmount)
      cases subscription with
      | none => exact absurd hkey.symm hplan
      | some sub =>
        obtain ⟨hactive, hfrom, hstarted, hsoon⟩ := hsub sub rfl
        rw [planKey_active hactive] at hkey
        have hmem := periodStart_mem hactive hfrom.paid hstarted hsoon
        rw [hkey] at hmem
        have hmore := reached_lt_reached hmem hnew
          (inPeriod_currentBillingPeriodStart (some sub) s.now).1 hpast
        omega
    · omega
  · rw [hlast]
    refine ⟨s.now, rfl, ?_⟩
    rcases List.mem_append.mp (hgrants ▸ hother) with hold | hthis
    · obtain ⟨g, hg, hle⟩ := hearlier other hold
      exact hle.trans (hpast g hg)
    · obtain rfl := List.mem_singleton.mp hthis
      exact hcreated.le
  · rw [hgrants]
    refine List.pairwise_append.mpr ⟨hapart, List.pairwise_singleton _ _, ?_⟩
    intro other hother later hlater
    obtain rfl := List.mem_singleton.mp hlater
    exact apart_of_not_touched (hearlier other hother) (hcreated ▸ hnew)
      (fun sub hmem => (hsub sub hmem).1) hamount

/-! ### Events -/

/-- A call that is no visit, a payment or a cancellation, or time that passes. -/
theorem Granting.event (h : Granting s userId) (hevent : OtherEvent settings encode s s') :
    Granting s' userId := by
  cases hevent with
  | wait hle =>
    obtain ⟨hruns, hpast, hpaid, hlast, hapart⟩ := h
    refine ⟨fun sub hsub => ?_, fun g hg => (hpast g hg).trans hle, hpaid, hlast, hapart⟩
    obtain ⟨hfrom, hstarted⟩ := hruns sub hsub
    exact ⟨hfrom, hstarted.trans hle⟩
  | call call hfinds hnow =>
    obtain ⟨hruns, hpast, hpaid, hlast, hapart⟩ := h
    refine ⟨fun sub hsub => runsFrom_run hnow hruns hsub, hpast,
      fun plan amount hplan hamount => ?_, hlast, hapart⟩
    obtain ⟨change, more, hchange, hpayments⟩ := exists_payments_run settings encode s.db call
    have hcount := hpaid plan amount hplan hamount
    rw [hpayments, paidMilestones_append, paidMilestones_map hchange, reached_append]
    exact hcount.trans (Nat.le_add_right _ _)
  | edit users plans =>
    obtain ⟨hruns, hpast, hpaid, hlast, hapart⟩ := h
    exact ⟨hruns, hpast, hpaid, hlast, hapart⟩
  | tokens call hvisit htyped =>
    obtain ⟨hnone, hlast⟩ := call.run_of_no_visit hvisit htyped (s.rows call.userId)
    exact h.record hnone hlast

theorem goes_of_event (hevent : OtherEvent settings encode s s') : Goes s s' := by
  cases hevent with
  | wait hle => exact ⟨hle, fun _ _ _ h => h⟩
  | call call hfinds hnow =>
    obtain ⟨change, more, hchange, hpayments⟩ := exists_payments_run settings encode s.db call
    refine ⟨le_rfl, fun userId plan started h => ?_⟩
    rw [hpayments]
    exact h.extended hchange
  | edit users plans => exact ⟨le_rfl, fun _ _ _ h => h⟩
  | tokens call hvisit htyped => exact ⟨le_rfl, fun _ _ _ h => h⟩

/-- A request that has loaded the subscription of its user grants within the limits. -/
theorem Granting.ensure {user : UUID} {loadedAt : Datetime} {subscription : Option Subscription}
    {answer : Bool × ℤ × UserToken} (h : Granting s userId)
    (hloaded : GrantTask.Loaded s (.ensuring user loadedAt subscription))
    (hsoon : s.now ≤ loadedAt.addDays 24)
    (hok : (ensureMonthlyTokens user (fun _ => s.now) (s.rows user) subscription).result =
      .ok answer) :
    Granting (s.record user
      (ensureMonthlyTokens user (fun _ => s.now) (s.rows user) subscription).effect) userId := by
  obtain ⟨hfound, hfoundLast⟩ := getOrCreateBalance_grants user (fun _ => s.now) (s.rows user)
  by_cases hnew : Touched (currentBillingPeriodStart subscription s.now) (lastGrant (s.rows user))
  · obtain ⟨htoken, hrecorded, -⟩ :=
      ensureMonthlyTokens_of_touched user (fun _ => s.now) (s.rows user) hnew
    refine h.record ?_ ?_
    · rw [Outcome.effect, hrecorded]
      exact hfound
    · rw [Outcome.effect, htoken]
      exact hfoundLast
  · cases hamount : PLAN_MONTHLY_TOKENS (planKey subscription) with
    | none =>
      have hnot : ¬ alreadyGranted
          (getOrCreateBalance user (fun _ => s.now) (s.rows user)).token.lastMonthlyGrantAt
            (currentBillingPeriodStart subscription s.now) = true := by
        rwa [alreadyGranted_iff, hfoundLast]
      simp only [ensureMonthlyTokens, if_neg hnot, hamount] at hok
      cases hok
    | some amount =>
      obtain ⟨⟨description, hrecorded⟩, hgranted, -⟩ :=
        ensureMonthlyTokens_of_not_touched user (fun _ => s.now) (s.rows user) hnew hamount
      set tx := recordTransaction user amount .monthlyGrant description s.now with htx
      have hgrants : (s.record user (ensureMonthlyTokens user (fun _ => s.now) (s.rows user)
          subscription).effect).grantsTo userId =
            s.grantsTo userId ++ if userId = user then [tx] else [] := by
        rw [grantsTo_record, Outcome.effect, hrecorded, List.filter_append,
          filter_of_grantsOf hfound, List.nil_append]
        congr 1
        simp [htx, recordTransaction, List.filter_cons, eq_comm]
      by_cases hown : userId = user
      · obtain rfl := hown
        rw [if_pos rfl] at hgrants
        refine h.grant (fun sub hsub => ?_) hnew hamount rfl rfl rfl ?_ hgrants
        · obtain ⟨hactive, hfrom, hstarted, hrunning⟩ := hloaded.2 sub hsub
          refine ⟨hactive, hfrom, hstarted.trans hloaded.1, ?_⟩
          rw [Datetime.le_iff_ticks, Datetime.ticks_addDays] at hrunning hsoon ⊢
          omega
        · rw [rows_record, Function.update_self]
          exact hgranted
      · rw [if_neg hown, List.append_nil] at hgrants
        exact h.same hgrants fun hsame => absurd hsame hown

/-- What a request has loaded holds, and every event keeps the grants. -/
theorem grantRequests_keeps : (grantRequests settings encode).Keeps Goes
    (fun s => ∀ userId, Granting s userId) GrantTask.Loaded where
  env hevent h := ⟨fun userId => (h userId).event hevent, goes_of_event hevent⟩
  start := by
    intro s task hstarts _
    cases task with
    | loading userId => trivial
    | _ => exact hstarts.elim
  act hact h hloaded := by
    cases hact with
    | @load userId =>
      refine ⟨h, .refl _, le_rfl, fun sub hsub => ?_⟩
      exact runsFrom_of_getActiveSubscription (h userId).runs hsub
    | ensure hsoon hok =>
      exact ⟨fun userId => (h userId).ensure hloaded hsoon hok, ⟨le_rfl, fun _ _ _ h => h⟩, trivial⟩
    | fail => exact ⟨h, .refl _, trivial⟩
  stable hgoes h := h.later hgoes

end Steps

/-! ## Every run -/

/-- Of things that are all apart from each other, only one is of a kind. -/
theorem countP_le_one {α : Type*} {r : α → α → Prop} {p : α → Bool} {l : List α}
    (h : l.Pairwise r) (hkind : ∀ a b, p a = true → p b = true → ¬ r a b) : l.countP p ≤ 1 := by
  induction l with
  | nil => simp
  | cons a l ih =>
    obtain ⟨hfirst, hrest⟩ := List.pairwise_cons.mp h
    rw [List.countP_cons]
    split_ifs with ha
    · have hnone : l.countP p = 0 :=
        List.countP_eq_zero.mpr fun b hb hpb => hkind a b ha hpb (hfirst b hb)
      omega
    · exact ih hrest

theorem Granting.limited {s : Billing} (h : Granting s userId) : Limited s userId where
  paid plan amount hplan hamount :=
    (h.paid plan amount hplan hamount).trans
      ((reached_le_length _ _).trans (length_paidMilestones_le _ userId plan))
  free amount hamount index := by
    refine countP_le_one h.apart fun earlier later hearlier hlater hapart => ?_
    obtain ⟨-, hearlier⟩ := of_decide_eq_true hearlier
    obtain ⟨rfl, hlater⟩ := of_decide_eq_true hlater
    have hmonth := hapart.month hamount
    omega
  daily date := by
    refine countP_le_one h.apart fun earlier later hearlier hlater hapart => ?_
    have hday := hapart.day
    rw [of_decide_eq_true hearlier, of_decide_eq_true hlater] at hday
    exact lt_irrefl _ hday

/-- However the requests of all users that grant monthly tokens are interleaved with payments,
cancellations and all else: a plan is granted at most twice for each payment for it, the free plan
at most once a month, and nothing twice on a day. -/
theorem limited_of_reachable {s : Billing} (hempty : s.Empty) {p : Pool Billing GrantTask}
    (h : Pool.Reachable (grantRequests settings encode) s p) (userId : UUID) :
    Limited p.shared userId := by
  have hinit : ∀ userId, Granting s userId := by
    intro userId
    have hgrants : s.grantsTo userId = [] := by
      rw [Billing.grantsTo, hempty.transactions]
      rfl
    refine ⟨fun sub hsub => ?_, fun g hg => ?_, ?_, ?_, ?_⟩
    · rw [hempty.db.2 userId .logit] at hsub
      cases hsub
    · rw [hempty.rows] at hg
      cases hg
    · simp [hgrants]
    · simp [hgrants]
    · simp [hgrants]
  exact ((grantRequests_keeps.of_reachable hinit h).1 userId).limited

/-! ### Two grants for one payment -/

/-- What a request leaves that runs alone. -/
def Billing.shown (s : Billing) (userId : UUID) : Billing :=
  s.record userId (ensureMonthlyTokens userId (fun _ => s.now) (s.rows userId)
    (getActiveSubscription s.db.subscriptions userId .logit s.now)).effect

theorem runs_shown {s : Billing} (answer : Bool × ℤ × UserToken)
    (hok : (ensureMonthlyTokens userId (fun _ => s.now) (s.rows userId)
      (getActiveSubscription s.db.subscriptions userId .logit s.now)).result = .ok answer) :
    (grantRequests settings encode).Runs (s, .loading userId) (s.shown userId, .over) := by
  have hsoon : s.now ≤ s.now.addDays 24 := by
    rw [Datetime.le_iff_ticks, Datetime.ticks_addDays]
    omega
  exact .step .load (.last (.ensure hsoon hok))

/-- The shop when its first charge is about to be reported. -/
def openedShop : Billing := ⟨.utc 2026 1 10 9, newShop, fun _ => none, []⟩

/-- The user of the first charge asks at once, and on the last day of the subscription. -/
theorem limited_of_reachable_twice : ∃ p,
    Pool.Reachable (grantRequests shop unsigned) openedShop p ∧
      (p.shared.grantsTo 7).countP (·.amount = 400) = 2 ∧
      p.shared.db.payments.countP (PaysFor 7 "lite" ·) = 1 ∧ Limited p.shared 7 := by
  have hempty : openedShop.Empty := ⟨⟨rfl, fun _ _ => rfl⟩, fun _ => rfl, rfl⟩
  let paid : Billing := { openedShop with
    db := Call.run shop unsigned newShop (.handleWebhook firstCharge.delivery) }
  have hpaid : OtherEvent shop unsigned openedShop paid :=
    .call (.handleWebhook firstCharge.delivery) trivial fun delivery hdelivery => by
      cases hdelivery
      rfl
  have hfirst : (grantRequests shop unsigned).Runs (paid, .loading 7) (paid.shown 7, .over) :=
    runs_shown (true, 400, ⟨400, some (.utc 2026 1 10 9), false, 0, 0, 0, .utc 2026 1 10 9⟩)
      (by decide +kernel)
  let later : Billing := { paid.shown 7 with now := .utc 2026 2 10 8 }
  have hlater : OtherEvent shop unsigned (paid.shown 7) later := .wait (by decide +kernel)
  have hsecond : (grantRequests shop unsigned).Runs (later, .loading 7) (later.shown 7, .over) :=
    runs_shown (true, 400, ⟨800, some (.utc 2026 2 10 8), false, 0, 0, 0, .utc 2026 2 10 8⟩)
      (by decide +kernel)
  have hreach := hsecond.reachable trivial
    ((hfirst.reachable trivial (.single (.env [] hpaid))).tail (.env _ hlater))
  exact ⟨_, hreach, by decide +kernel, by decide +kernel, limited_of_reachable hempty hreach 7⟩

end Logit.Tokens
