import Logit.Calendar.Datetime
import Logit.Python.Uuid

/-!
# Subscriptions

A user has at most one subscription of each type, so the table is a function of
the two. A subscription's row is `Subscription`, without the columns of its key.

## Main definitions

* `SubscriptionType`, `SubscriptionPlan` — with the values stored for them
* `Subscription` — a row of the table
* `getActiveSubscription` — the active subscription of a user, unless it has expired
-/

namespace Logit.Subscriptions

open Calendar Python

/-- The product a subscription is for. -/
inductive SubscriptionType
  | mcp
  | logit
  deriving DecidableEq, Repr

namespace SubscriptionType

def value : SubscriptionType → String
  | mcp => "mcp"
  | logit => "logit"

/-- `SubscriptionType(value)`; `none` where Python raises `ValueError`. -/
def ofValue? : String → Option SubscriptionType
  | "mcp" => some mcp
  | "logit" => some logit
  | _ => none

@[simp] theorem ofValue?_value (type : SubscriptionType) : ofValue? type.value = some type := by
  cases type <;> rfl

theorem value_of_ofValue? {value : String} {type : SubscriptionType}
    (h : ofValue? value = some type) : type.value = value := by
  unfold ofValue? at h
  split at h
  · exact Option.some.inj h ▸ rfl
  · exact Option.some.inj h ▸ rfl
  · cases h

end SubscriptionType

/-- The plan a subscription is on. -/
inductive SubscriptionPlan
  /-- The plan of MCP subscriptions. -/
  | basic
  | lite
  | pro
  deriving DecidableEq, Repr

namespace SubscriptionPlan

def value : SubscriptionPlan → String
  | basic => "basic"
  | lite => "lite"
  | pro => "pro"

/-- `SubscriptionPlan(value)`; `none` where Python raises `ValueError`. -/
def ofValue? : String → Option SubscriptionPlan
  | "basic" => some basic
  | "lite" => some lite
  | "pro" => some pro
  | _ => none

@[simp] theorem ofValue?_value (plan : SubscriptionPlan) : ofValue? plan.value = some plan := by
  cases plan <;> rfl

theorem value_of_ofValue? {value : String} {plan : SubscriptionPlan}
    (h : ofValue? value = some plan) : plan.value = value := by
  unfold ofValue? at h
  split at h
  · exact Option.some.inj h ▸ rfl
  · exact Option.some.inj h ▸ rfl
  · exact Option.some.inj h ▸ rfl
  · cases h

end SubscriptionPlan

/-- A user's subscription of one type. -/
structure Subscription where
  isActive : Bool
  plan : SubscriptionPlan
  token : Option String
  /-- When false, the subscription runs until it expires and is not charged again. -/
  isAutoRenew : Bool
  startedAt : Datetime
  expiresAt : Option Datetime
  deriving DecidableEq, Repr

/-- The table of subscriptions: at most one row for each user and type. -/
abbrev SubscriptionTable := UUID → SubscriptionType → Option Subscription

/-- The active subscription of a user, or nothing if there is none or it has expired. -/
def getActiveSubscription (subscriptions : SubscriptionTable) (userId : UUID)
    (type : SubscriptionType) (now : Datetime) : Option Subscription :=
  match (subscriptions userId type).filter (·.isActive) with
  | none => none
  | some sub =>
    match sub.expiresAt with
    | some expiresAt => if expiresAt < now then none else some sub
    | none => some sub

/-- An active subscription with an expiry is found until it expires, and not after. -/
theorem getActiveSubscription_of_row {subscriptions : SubscriptionTable} {userId : UUID}
    {type : SubscriptionType} {now expiresAt : Datetime} {sub : Subscription}
    (hrow : subscriptions userId type = some sub) (hactive : sub.isActive = true)
    (hexpires : sub.expiresAt = some expiresAt) :
    getActiveSubscription subscriptions userId type now =
      if now ≤ expiresAt then some sub else none := by
  simp only [getActiveSubscription, hrow, Option.filter, hactive, if_true, hexpires]
  rcases lt_or_ge expiresAt now with h | h
  · rw [if_pos h, if_neg (not_le.mpr h)]
  · rw [if_neg (not_lt.mpr h), if_pos h]

end Logit.Subscriptions
