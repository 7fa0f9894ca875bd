import Logit.Calendar.Datetime
import Logit.Python.Uuid

/-!
# Token rows

The rows of the token system: a user's balance and monthly grant state, and the
record of every change of a balance.

## Main definitions

* `TokenTransactionType` — why a balance has changed
* `UserToken` — a user's balance
* `TokenTransaction` — one change of a balance
* `AttendanceLog` — a user's attendance on a date
* `ledgerSum` — what transactions add up to
-/

namespace Logit.Tokens

open Calendar Python

/-- Why a balance has changed. -/
inductive TokenTransactionType
  | balanceInit
  | monthlyGrant
  | signupBonus
  | attendance
  | referralInviter
  | referralInvitee
  | chatUsage
  | draftUsage
  | chatRefund
  | adminGrant
  | adminReset
  deriving DecidableEq, Repr

/-- A user's balance and the state of grants and notifications. -/
structure UserToken where
  balance : ℤ
  lastMonthlyGrantAt : Option Datetime
  signupBonusGranted : Bool
  unnotifiedSignupBonusAmount : ℤ
  unnotifiedReferralAmount : ℤ
  unnotifiedReferralCount : ℤ
  updatedAt : Datetime
  deriving DecidableEq, Repr

/-- One change of a balance: a positive amount was granted, a negative one taken. -/
structure TokenTransaction where
  userId : UUID
  amount : ℤ
  type : TokenTransactionType
  description : Option String
  createdAt : Datetime
  deriving DecidableEq, Repr

/-- A user's attendance on a date. -/
structure AttendanceLog where
  userId : UUID
  date : Date
  deriving DecidableEq, Repr

/-- What transactions add up to. -/
def ledgerSum (transactions : List TokenTransaction) : ℤ := (transactions.map (·.amount)).sum

@[simp] theorem ledgerSum_nil : ledgerSum [] = 0 := rfl

@[simp] theorem ledgerSum_cons (tx : TokenTransaction) (txs : List TokenTransaction) :
    ledgerSum (tx :: txs) = tx.amount + ledgerSum txs := by
  simp [ledgerSum]

@[simp] theorem ledgerSum_append (txs more : List TokenTransaction) :
    ledgerSum (txs ++ more) = ledgerSum txs + ledgerSum more := by
  simp [ledgerSum]

/-- The balance of a row; no row counts as none. -/
def getBalance : Option UserToken → ℤ
  | some token => token.balance
  | none => 0

@[simp] theorem getBalance_some (token : UserToken) : getBalance (some token) = token.balance := rfl

@[simp] theorem getBalance_none : getBalance none = 0 := rfl

end Logit.Tokens
