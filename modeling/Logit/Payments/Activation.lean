import Logit.Payments.Model

/-!
# Activating and deactivating subscriptions

A paid record activates the subscription of its user and type for 31 days from the
instant it is processed; a cancellation or refund notice deactivates it at once.

## Main definitions

* `activateSubscription` — what a paid record makes of the subscriptions
* `deactivateSubscription` — what a notice makes of them

## Main results

* `activateSubscription_ok` — the row and the record an activation leaves
-/

namespace Logit.Payments

open Calendar Python Subscriptions Security

/-- `SubscriptionType(value)`. -/
def subscriptionType (value : String) : Except PaymentError SubscriptionType :=
  match SubscriptionType.ofValue? value with
  | some type => .ok type
  | none => .error (.valueError ("'" ++ value ++ "' is not a valid SubscriptionType"))

/-- `SubscriptionPlan(value)`. -/
def subscriptionPlan (value : String) : Except PaymentError SubscriptionPlan :=
  match SubscriptionPlan.ofValue? value with
  | some plan => .ok plan
  | none => .error (.valueError ("'" ++ value ++ "' is not a valid SubscriptionPlan"))

/-- The row an activation leaves, before a token is issued. -/
def activatedRow (existing : Option Subscription) (plan : SubscriptionPlan) (now : Datetime) :
    Subscription :=
  match existing with
  | none =>
    { isActive := true, isAutoRenew := true, plan, token := none, startedAt := now,
      expiresAt := some (now.addDays 31) }
  | some sub =>
    { sub with
      isActive := true, isAutoRenew := true, plan, startedAt := now,
      expiresAt := some (now.addDays 31) }

/-- Activates the subscription a record has paid for; MCP subscriptions get a token at once. -/
def activateSubscription (settings : Settings) (encode : JwtEncode)
    (subscriptions : SubscriptionTable) (now : Datetime) (record : PaymentRecord) :
    Except PaymentError (SubscriptionTable × PaymentRecord) := do
  let subType ← subscriptionType record.subscriptionType
  let plan ← subscriptionPlan record.plan
  let expires := now.addDays 31
  let sub := activatedRow (subscriptions record.userId subType) plan now
  let sub ←
    -- The token runs out with the period that has been paid for.
    if subType = .mcp then
      match createMcpToken settings.toMcpSettings encode now record.userId.str (some expires) with
      | some token => pure { sub with token := some token }
      | none => throw (.valueError "MCP_JWT_SECRET is not configured")
    else pure sub
  return (setSubscription subscriptions record.userId subType sub,
    { record with subscriptionStartedAt := some now, subscriptionExpiresAt := some expires })

/-- The row a deactivation leaves; an MCP subscription loses its token. -/
def deactivatedRow (type : SubscriptionType) (sub : Subscription) : Subscription :=
  { sub with
    isActive := false
    isAutoRenew := false
    token := if type = .mcp then none else sub.token }

/-- Deactivates a subscription at once, if there is one. -/
def deactivateSubscription (subscriptions : SubscriptionTable) (userId : UUID)
    (type : SubscriptionType) : SubscriptionTable :=
  match subscriptions userId type with
  | none => subscriptions
  | some sub => setSubscription subscriptions userId type (deactivatedRow type sub)

/-- What an activation leaves of a record: the period it has paid for. -/
def paidPeriod (record : PaymentRecord) (now : Datetime) : PaymentRecord :=
  { record with
    subscriptionStartedAt := some now, subscriptionExpiresAt := some (now.addDays 31) }

theorem subscriptionType_eq_ok {value : String} {type : SubscriptionType} :
    subscriptionType value = .ok type ↔ SubscriptionType.ofValue? value = some type := by
  unfold subscriptionType
  cases SubscriptionType.ofValue? value with
  | none => simp
  | some found => simp

/-- An activation leaves an active row from now on for 31 days, changes no other row, and
notes the period on the record. -/
theorem activateSubscription_ok {settings : Settings} {encode : JwtEncode}
    {subscriptions after : SubscriptionTable} {now : Datetime} {record paid : PaymentRecord}
    (h : activateSubscription settings encode subscriptions now record = .ok (after, paid)) :
    ∃ type plan token, SubscriptionType.ofValue? record.subscriptionType = some type ∧
      SubscriptionPlan.ofValue? record.plan = some plan ∧ paid = paidPeriod record now ∧
      after = setSubscription subscriptions record.userId type
        { isActive := true, isAutoRenew := true, plan, token, startedAt := now,
          expiresAt := some (now.addDays 31) } := by
  unfold activateSubscription subscriptionType subscriptionPlan at h
  cases htype : SubscriptionType.ofValue? record.subscriptionType with
  | none => simp [htype, bind, Except.bind] at h
  | some type =>
    cases hplan : SubscriptionPlan.ofValue? record.plan with
    | none => simp [htype, hplan, bind, Except.bind] at h
    | some plan =>
      refine ⟨type, plan, ?_⟩
      have hrow : ∃ token, activatedRow (subscriptions record.userId type) plan now =
          { isActive := true, isAutoRenew := true, plan, token, startedAt := now,
            expiresAt := some (now.addDays 31) } := by
        unfold activatedRow
        split
        · exact ⟨none, rfl⟩
        · exact ⟨_, rfl⟩
      obtain ⟨token, hrow⟩ := hrow
      simp only [htype, hplan, hrow, bind, Except.bind, pure, Except.pure] at h
      split_ifs at h with hmcp
      · cases htoken : createMcpToken settings.toMcpSettings encode now record.userId.str
            (some (now.addDays 31)) with
        | none => simp [htoken, throw, throwThe, MonadExceptOf.throw] at h
        | some issued =>
          simp only [htoken, Except.ok.injEq, Prod.mk.injEq] at h
          exact ⟨some issued, rfl, rfl, h.2.symm, h.1.symm⟩
      · simp only [Except.ok.injEq, Prod.mk.injEq] at h
        exact ⟨token, rfl, rfl, h.2.symm, h.1.symm⟩

/-- Tokens are signed with a secret that is not empty. -/
theorem secret_of_activateSubscription {settings : Settings} {encode : JwtEncode}
    {subscriptions : SubscriptionTable} {now : Datetime} {record : PaymentRecord}
    {result : SubscriptionTable × PaymentRecord}
    (h : activateSubscription settings encode subscriptions now record = .ok result)
    (htype : SubscriptionType.ofValue? record.subscriptionType = some .mcp) :
    settings.MCP_JWT_SECRET ≠ "" := by
  intro hsecret
  unfold activateSubscription subscriptionType subscriptionPlan at h
  rw [htype] at h
  cases hplan : SubscriptionPlan.ofValue? record.plan <;>
    simp [hplan, createMcpToken, hsecret, bind, Except.bind, throw, throwThe,
      MonadExceptOf.throw] at h

end Logit.Payments
