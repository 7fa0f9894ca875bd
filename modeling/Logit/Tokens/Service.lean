import Logit.Calendar.Anchor
import Logit.Subscriptions.Model
import Logit.Tokens.Model

/-!
# The token service

The functions that read and write balances. Each of them locks the user's token
row, or creates it, and then works on that row alone, so a function is given the
row it finds and says what it leaves: the row, the transactions it has recorded
and its result. The instants it reads from the clock are given by the place that
reads them.

A function that raises an exception leaves the row as it has left it until then;
what becomes of it is for the session to decide.

## Main definitions

* `Outcome` — the row, transactions and result a function leaves
* `getOrCreateBalance` … `claimSignupBonusNotification` — the functions of the service
* `currentBillingPeriodStart` — the start of the billing period around an instant
-/

namespace Logit.Tokens

open Calendar Python Subscriptions

/-! ## Constants -/

/-- The cost of a chat message. -/
def CHAT_TOKEN_COST : ℤ := 5

/-- The cost of a draft. -/
def DRAFT_TOKEN_COST : ℤ := 10

/-- The tokens each plan grants every month; other plans are no keys of the table. -/
def PLAN_MONTHLY_TOKENS : String → Option ℤ
  | "free" => some 50
  | "lite" => some 400
  | "pro" => some 2000
  | _ => none

theorem PLAN_MONTHLY_TOKENS_pos {plan : String} {amount : ℤ}
    (h : PLAN_MONTHLY_TOKENS plan = some amount) : 0 < amount := by
  unfold PLAN_MONTHLY_TOKENS at h
  split at h
  · exact Option.some.inj h ▸ by decide
  · exact Option.some.inj h ▸ by decide
  · exact Option.some.inj h ▸ by decide
  · cases h

def SIGNUP_BONUS_TOKENS : ℤ := 50

def ATTENDANCE_TOKENS : ℤ := 3

def REFERRAL_TOKENS : ℤ := 10

/-- The tokens all attendances together may grant. -/
def ATTENDANCE_EVENT_TOTAL_POOL : ℤ := 30000

/-! ## Outcomes -/

/-- The exceptions of the service. -/
inductive TokenError
  | insufficientTokens (current required : ℤ)
  | keyError (plan : String)
  deriving DecidableEq, Repr

/-- The places of a call that read the clock. -/
inductive ClockRead
  /-- `updated_at` of a new row. -/
  | created
  /-- `created_at` of the transaction that goes with a new row. -/
  | initialized
  /-- The instant whose billing period is looked up. -/
  | billed
  /-- `last_monthly_grant_at`. -/
  | granted
  /-- `updated_at` of a changed row. -/
  | updated
  /-- `created_at` of the transaction a call records. -/
  | recorded
  deriving DecidableEq, Repr

/-- The instants a call reads from the clock. -/
abbrev Clock := ClockRead → Datetime

/-- What a function leaves: the token row, the transactions it has recorded, and its result. -/
structure Outcome (α : Type) where
  token : UserToken
  recorded : List TokenTransaction
  result : Except TokenError α
  deriving DecidableEq

variable (userId : UUID) (clock : Clock) (row : Option UserToken)

/-- A user's transaction at an instant. -/
def recordTransaction (amount : ℤ) (txType : TokenTransactionType) (description : Option String)
    (createdAt : Datetime) : TokenTransaction :=
  ⟨userId, amount, txType, description, createdAt⟩

/-- The user's token row; where there is none, a new one with a balance of zero. -/
def getOrCreateBalance : Outcome UserToken :=
  match row with
  | some token => ⟨token, [], .ok token⟩
  | none =>
    let token : UserToken :=
      { balance := 0, lastMonthlyGrantAt := none, signupBonusGranted := false,
        unnotifiedSignupBonusAmount := 0, unnotifiedReferralAmount := 0,
        unnotifiedReferralCount := 0, updatedAt := clock .created }
    ⟨token, [recordTransaction userId 0 .balanceInit "토큰 계정 생성" (clock .initialized)],
      .ok token⟩

/-! ## Granting and taking tokens -/

/-- Grants tokens and returns the new balance. -/
def credit (amount : ℤ) (txType : TokenTransactionType) (description : Option String) :
    Outcome ℤ :=
  let found := getOrCreateBalance userId clock row
  let token := { found.token with
    balance := found.token.balance + amount
    updatedAt := clock .updated }
  ⟨token, found.recorded ++
    [recordTransaction userId amount txType description (clock .recorded)], .ok token.balance⟩

/-- Python's `description or default`. -/
def descriptionOr (description : Option String) (default : String) : String :=
  match description with
  | some text => if text = "" then default else text
  | none => default

/-- Grants tokens to the inviter of a new user, who is told at the next balance query. -/
def creditReferralInviter (amount : ℤ) (description : Option String) : Outcome ℤ :=
  let found := getOrCreateBalance userId clock row
  let token := { found.token with
    balance := found.token.balance + amount
    unnotifiedReferralAmount := found.token.unnotifiedReferralAmount + amount
    unnotifiedReferralCount := found.token.unnotifiedReferralCount + 1
    updatedAt := clock .updated }
  ⟨token, found.recorded ++
    [recordTransaction userId amount .referralInviter
      (descriptionOr description "친구 초대 보상") (clock .recorded)], .ok token.balance⟩

/-- Reads and clears the referral rewards the user has not been told of. -/
def claimReferralNotification : Outcome (ℤ × ℤ) :=
  let found := getOrCreateBalance userId clock row
  let amount := found.token.unnotifiedReferralAmount
  let count := found.token.unnotifiedReferralCount
  let token :=
    if amount ≠ 0 ∨ count ≠ 0 then
      { found.token with
        unnotifiedReferralAmount := 0
        unnotifiedReferralCount := 0
        updatedAt := clock .updated }
    else found.token
  ⟨token, found.recorded, .ok (amount, count)⟩

/-- Takes tokens and returns the new balance, or raises when the balance is too small. -/
def debit (amount : ℤ) (txType : TokenTransactionType) (description : Option String) :
    Outcome ℤ :=
  let found := getOrCreateBalance userId clock row
  if found.token.balance < amount then
    -- A row created for this call stays, whatever becomes of the debit.
    ⟨found.token, found.recorded, .error (.insufficientTokens found.token.balance amount)⟩
  else
    let token := { found.token with
      balance := found.token.balance - amount
      updatedAt := clock .updated }
    ⟨token, found.recorded ++
      [recordTransaction userId (-amount) txType description (clock .recorded)],
      .ok token.balance⟩

/-! ## Monthly grants -/

/-- The start of the billing period around an instant, at midnight: the first of the month
without an active subscription, else the latest monthly anchor of the day the
subscription started on. -/
def currentBillingPeriodStart (subscription : Option Subscription) (now : Datetime) : Datetime :=
  match subscription.filter (·.isActive) with
  -- Free users are granted by the calendar month.
  | none => .midnight (.firstOf now.date.year now.date.month now.month_pos now.month_le)
  | some sub =>
    let day := sub.startedAt.date.dayOfMonth
    let periodStart := Datetime.midnight
      (clampedDate now.date.year now.date.month now.month_pos now.month_le day)
    if now < periodStart then
      -- This month's day is still to come: the period began in the month before.
      if hmonth : 1 < now.date.month then
        .midnight (clampedDate now.date.year (now.date.month - 1) (Datetime.lastMonth_pos hmonth)
          now.lastMonth_le day)
      else
        .midnight (clampedDate (now.date.year - 1) 12 Datetime.december_pos Datetime.december_le
          day)
    else periodStart

/-- The key of a subscription's plan in the table of monthly grants. -/
def planKey (subscription : Option Subscription) : String :=
  match subscription.filter (·.isActive) with
  | none => "free"
  | some sub => sub.plan.value

/-- The last monthly grant was in the billing period that starts at an instant, or later. -/
def alreadyGranted (lastMonthlyGrantAt : Option Datetime) (periodStart : Datetime) : Bool :=
  match lastMonthlyGrantAt with
  | none => false
  | some lastGrant => periodStart ≤ lastGrant

/-- Grants the tokens of the current billing period unless they have been granted.
Returns whether and how much it has granted, and the token row. -/
def ensureMonthlyTokens (subscription : Option Subscription) : Outcome (Bool × ℤ × UserToken) :=
  let found := getOrCreateBalance userId clock row
  let periodStart := currentBillingPeriodStart subscription (clock .billed)
  if alreadyGranted found.token.lastMonthlyGrantAt periodStart then
    ⟨found.token, found.recorded, .ok (false, 0, found.token)⟩
  else
    let plan := planKey subscription
    match PLAN_MONTHLY_TOKENS plan with
    -- MCP's plan has no entry in the table.
    | none => ⟨found.token, found.recorded, .error (.keyError plan)⟩
    | some amount =>
      let token := { found.token with
        balance := found.token.balance + amount
        lastMonthlyGrantAt := some (clock .granted)
        updatedAt := clock .updated }
      ⟨token, found.recorded ++
        [recordTransaction userId amount .monthlyGrant (plan ++ " 플랜 월 토큰 지급")
          (clock .recorded)], .ok (true, amount, token)⟩

/-! ## Signup bonus -/

/-- Grants the signup bonus once. -/
def grantSignupBonus : Outcome (Bool × ℤ) :=
  let found := getOrCreateBalance userId clock row
  if found.token.signupBonusGranted then ⟨found.token, found.recorded, .ok (false, 0)⟩
  else
    let token := { found.token with
      balance := found.token.balance + SIGNUP_BONUS_TOKENS
      signupBonusGranted := true
      unnotifiedSignupBonusAmount := SIGNUP_BONUS_TOKENS
      updatedAt := clock .updated }
    ⟨token, found.recorded ++
      [recordTransaction userId SIGNUP_BONUS_TOKENS .signupBonus "신규 가입 보너스"
        (clock .recorded)], .ok (true, SIGNUP_BONUS_TOKENS)⟩

/-- Reads and clears the signup bonus the user has not been told of. -/
def claimSignupBonusNotification : Outcome ℤ :=
  let found := getOrCreateBalance userId clock row
  let amount := found.token.unnotifiedSignupBonusAmount
  let token :=
    if amount ≠ 0 then
      { found.token with
        unnotifiedSignupBonusAmount := 0
        updatedAt := clock .updated }
    else found.token
  ⟨token, found.recorded, .ok amount⟩

end Logit.Tokens
