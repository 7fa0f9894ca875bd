import Logit.Security.McpToken
import Logit.Subscriptions.Model

/-!
# Subscription requests

What a user asks about subscriptions. A row that is active although it has expired is
written back as inactive when it is listed, and an MCP subscription without a token is
given one when the token is asked for; neither lengthens a period.

## Main definitions

* `syncExpired` — a row as it is written back when it is listed
* `getAllSubscriptions`, `getSubscriptionByType` — the rows of a user
* `getOrCreateMcpToken` — the token of a user with a paid MCP subscription

## Main results

* `filter_getSubscriptionByType` — a row listed as active is one that has not expired
-/

namespace Logit.Subscriptions

open Calendar Python Security

/-- A row, which is no longer active once it has expired. -/
def syncExpired (now : Datetime) (sub : Subscription) : Subscription :=
  if sub.isActive && sub.expiresAt.any (· < now) then { sub with isActive := false } else sub

/-- The table after the row of a user and type has been written. -/
def setRow (subscriptions : SubscriptionTable) (userId : UUID) (type : SubscriptionType)
    (row : Option Subscription) : SubscriptionTable := fun user ty =>
  if user = userId ∧ ty = type then row else subscriptions user ty

/-- The subscriptions of a user, by their types. -/
def getAllSubscriptions (subscriptions : SubscriptionTable) (userId : UUID) (now : Datetime) :
    (SubscriptionType → Option Subscription) × SubscriptionTable :=
  let subs := fun type => (subscriptions userId type).map (syncExpired now)
  (subs, fun user type => if user = userId then subs type else subscriptions user type)

/-- The subscription of a user of one type. -/
def getSubscriptionByType (subscriptions : SubscriptionTable) (userId : UUID)
    (type : SubscriptionType) (now : Datetime) : Option Subscription × SubscriptionTable :=
  let sub := (subscriptions userId type).map (syncExpired now)
  (sub, setRow subscriptions userId type sub)

/-- The token of a user, and whether there is none to be had; `none` where a token cannot be
signed and the source raises. -/
def getOrCreateMcpToken (settings : McpSettings) (encode : JwtEncode)
    (subscriptions : SubscriptionTable) (userId : UUID) (now issuedAt : Datetime) :
    Option ((String × Bool) × SubscriptionTable) :=
  match subscriptions userId .mcp with
  | none => some (("", true), subscriptions)
  | some sub =>
    if sub.plan ≠ .basic then some (("", true), subscriptions)
    else if !sub.isActive || sub.expiresAt.any (· < now) then some (("", true), subscriptions)
    else if sub.token.getD "" ≠ "" then some ((sub.token.getD "", false), subscriptions)
    else
      -- The token runs out with the subscription.
      (createMcpToken settings encode issuedAt userId.str sub.expiresAt).map fun token =>
        ((token, false), setRow subscriptions userId .mcp (some { sub with token := some token }))

variable {subscriptions after : SubscriptionTable} {userId : UUID} {type : SubscriptionType}
  {now : Datetime}

theorem setRow_apply (row : Option Subscription) (user : UUID) (ty : SubscriptionType) :
    setRow subscriptions userId type row user ty =
      if user = userId ∧ ty = type then row else subscriptions user ty :=
  rfl

/-- The row that is listed is active just if the subscription is. -/
theorem filter_getSubscriptionByType :
    (getSubscriptionByType subscriptions userId type now).1.filter (·.isActive) =
      getActiveSubscription subscriptions userId type now := by
  simp only [getSubscriptionByType, getActiveSubscription]
  cases hrow : subscriptions userId type with
  | none => rfl
  | some sub =>
    cases hactive : sub.isActive with
    | false => simp [Option.filter, syncExpired, hactive]
    | true =>
      cases hexpires : sub.expiresAt with
      | none => simp [Option.filter, syncExpired, hactive, hexpires]
      | some expiresAt =>
        by_cases hexpired : expiresAt < now
        · simp [Option.filter, syncExpired, hactive, hexpires, hexpired]
        · simp [Option.filter, syncExpired, hactive, hexpires, hexpired]

/-- A token that is asked for changes nothing but the token of the row. -/
theorem getOrCreateMcpToken_eq_some {settings : McpSettings} {encode : JwtEncode}
    {issuedAt : Datetime} {answer : String × Bool}
    (h : getOrCreateMcpToken settings encode subscriptions userId now issuedAt =
      some (answer, after)) :
    after = subscriptions ∨ ∃ sub token, subscriptions userId .mcp = some sub ∧
      after = setRow subscriptions userId .mcp (some { sub with token := some token }) := by
  unfold getOrCreateMcpToken at h
  split at h
  · simp only [Option.some.injEq, Prod.mk.injEq] at h
    exact .inl h.2.symm
  · next sub hsub =>
    split_ifs at h
    · simp only [Option.some.injEq, Prod.mk.injEq] at h
      exact .inl h.2.symm
    · simp only [Option.some.injEq, Prod.mk.injEq] at h
      exact .inl h.2.symm
    · simp only [Option.some.injEq, Prod.mk.injEq] at h
      exact .inl h.2.symm
    · obtain ⟨token, -, htoken⟩ := Option.map_eq_some_iff.mp h
      rw [Prod.mk.injEq] at htoken
      exact .inr ⟨sub, token, hsub, htoken.2.symm⟩

end Logit.Subscriptions
