import Logit.Python.StrDict
import Logit.Security.McpToken
import Logit.Subscriptions.Model

/-!
# Payments

The rows and settings of the payment service. A payment record is made when PayApp
reports a payment as complete; the plans are rows an administrator may change.

## Main definitions

* `PaymentRecord` — a payment PayApp has reported
* `Plan`, `planKey` — a plan on offer, by what payments need of it, and its key
* `Settings` — the credentials of the service
* `Database` — the tables the payment service works on
* `PaymentError` — the exceptions of the service
* `PayAppAnswer` — what PayApp answers to a call
-/

namespace Logit.Payments

open Calendar Python Subscriptions Security

/-- A payment PayApp has reported. -/
structure PaymentRecord where
  id : UUID
  userId : UUID
  subscriptionType : String
  plan : String
  amount : ℤ
  /-- PayApp's number of the charge. -/
  mulNo : Option String
  /-- PayApp's number of the recurring registration the charge belongs to. -/
  rebillNo : Option String
  /-- 4: paid; 8 and 32: cancelled; 9 and 64: refunded. -/
  payState : Option ℤ
  cardName : Option String
  cardNumber : Option String
  receiptUrl : Option String
  subscriptionStartedAt : Option Datetime
  subscriptionExpiresAt : Option Datetime
  /-- `str` of the fields of the last report about the payment, kept as the fields. -/
  rawWebhookData : Option StrDict
  paidAt : Option Datetime
  deriving DecidableEq, Repr

/-- A plan on offer; its id is `type:plan`. -/
structure Plan where
  id : String
  name : String
  price : ℤ
  isActive : Bool
  deriving DecidableEq, Repr

/-- The key of a plan. -/
def planKey (type : SubscriptionType) (plan : SubscriptionPlan) : String :=
  type.value ++ ":" ++ plan.value

/-- The credentials of the service. -/
structure Settings extends McpSettings where
  PAYAPP_USERID : Option String
  PAYAPP_LINKKEY : Option String
  PAYAPP_LINKVAL : Option String
  PAYAPP_CALLBACK_URL : String
  FRONTEND_URL : String

/-- A setting has a value, and not the empty text. -/
def isSet (setting : Option String) : Bool := setting.getD "" ≠ ""

/-- The tables the payment service works on; plans are keyed by their id. -/
structure Database where
  /-- The users there are, whom payments refer to. -/
  users : UUID → Bool
  plans : String → Option Plan
  payments : List PaymentRecord
  subscriptions : SubscriptionTable

/-- The exceptions of the service. -/
inductive PaymentError
  | valueError (message : String)
  | runtimeError (message : String)
  | keyError (key : String)
  /-- `int` has refused a text. -/
  | invalidLiteral (text : String)
  /-- `compare_digest` has refused a text that is not ASCII. -/
  | typeError
  /-- `scalar_one_or_none` has found more than one row. -/
  | multipleResultsFound
  /-- A row refers to a user there is not. -/
  | integrityError
  deriving DecidableEq, Repr

/-- What PayApp answers to a call, by the fields the service reads; the answer to a call that
cannot be made is the error. -/
structure PayAppResult where
  state : Option String
  errno : Option String
  errorMessage : Option String
  rebillNo : Option String
  payurl : Option String
  deriving DecidableEq, Repr

abbrev PayAppAnswer := Except String PayAppResult

/-- The table after a user's subscription of one type has been written. -/
def setSubscription (subscriptions : SubscriptionTable) (userId : UUID) (type : SubscriptionType)
    (sub : Subscription) : SubscriptionTable := fun user ty =>
  if user = userId ∧ ty = type then some sub else subscriptions user ty

@[simp] theorem setSubscription_self (subscriptions : SubscriptionTable) (userId : UUID)
    (type : SubscriptionType) (sub : Subscription) :
    setSubscription subscriptions userId type sub userId type = some sub :=
  if_pos ⟨rfl, rfl⟩

end Logit.Payments
