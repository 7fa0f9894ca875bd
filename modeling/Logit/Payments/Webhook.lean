import Logit.Payments.Activation
import Logit.Python.Raise

/-!
# Webhooks

PayApp reports what becomes of a payment by posting a form. A report of a paid charge
makes a payment record and activates the subscription the charge is for; a report of a
cancellation or a refund deactivates it.

## Main definitions

* `WebhookForm` — a report, with the fields the service reads
* `verifyWebhook` — whether a report carries the credentials of the service
* `handlePaymentComplete`, `handlePaymentCancel` — the two kinds of reports
* `handleWebhook` — what the service answers, and what becomes of the database
* `paymentWebhook` — the database after a request, with nothing left of one that raises
* `Chargeable` — a report of a paid charge that passes all checks

## Main results

* `handleWebhook_ok` — what a report comes to
* `paymentWebhook_complete` — what a report of a paid charge does to the database
-/

namespace Logit.Payments

open Calendar Python Subscriptions Security

/-- The fields of a report, whatever they are. -/
abbrev WebhookForm := StrDict

namespace WebhookForm

variable (form : WebhookForm)

def userid : Option String := form.get "userid"

def linkkey : Option String := form.get "linkkey"

def linkval : Option String := form.get "linkval"

def rebillNo : Option String := form.get "rebill_no"

def mulNo : Option String := form.get "mul_no"

def payState : Option String := form.get "pay_state"

def price : Option String := form.get "price"

/-- The user the payment is for. -/
def var1 : Option String := form.get "var1"

/-- The key of the plan. -/
def var2 : Option String := form.get "var2"

def cardName : Option String := form.get "card_name"

def cardNum : Option String := form.get "card_num"

def csturl : Option String := form.get "csturl"

/-- The fields that are kept with a record. -/
def data : StrDict := form.without ["userid", "linkkey", "linkval"]

end WebhookForm

/-- A report, with what its handling draws from outside: the id of a new record, and the
instants its payment and its subscription are dated. -/
structure Delivery where
  form : WebhookForm
  recordId : UUID
  paidAt : Datetime
  activatedAt : Datetime
  deriving DecidableEq, Repr

/-- What PayApp is answered. -/
inductive WebhookReply
  | success
  | fail
  deriving DecidableEq, Repr

/-- `secrets.compare_digest` of two texts. -/
def compareDigest (a b : String) : Except PaymentError Bool :=
  -- Python compares texts in constant time only if they are ASCII, and else raises.
  if (a.toList ++ b.toList).all (·.toNat < 128) then .ok (a = b) else .error .typeError

/-- A report carries the credentials of the service. -/
def verifyWebhook (settings : Settings) (form : WebhookForm) : Except PaymentError Bool := do
  -- A text is compared only if those before it agree.
  if !(← compareDigest (form.userid.getD "") (settings.PAYAPP_USERID.getD "")) then
    return false
  if !(← compareDigest (form.linkkey.getD "") (settings.PAYAPP_LINKKEY.getD "")) then
    return false
  compareDigest (form.linkval.getD "") (settings.PAYAPP_LINKVAL.getD "")

/-- The records of a registration. -/
def recordsOf (payments : List PaymentRecord) (rebillNo : String) : List PaymentRecord :=
  payments.filter fun record => record.rebillNo = some rebillNo

/-- The payment record of a registration. -/
def paymentOfRebill (payments : List PaymentRecord) (rebillNo : String) :
    Except PaymentError (Option PaymentRecord) :=
  match recordsOf payments rebillNo with
  | [] => .ok none
  | [record] => .ok (some record)
  -- The query asks for one row or none.
  | _ => .error .multipleResultsFound

/-- The two parts of a plan key. -/
def planParts (planKey : String) : Except PaymentError (String × String) :=
  match split ':' planKey with
  | [type, plan] => .ok (type, plan)
  | [_] => .error (.valueError "not enough values to unpack (expected 2, got 1)")
  | _ => .error (.valueError "too many values to unpack (expected 2)")

/-- The record of a charge, before its subscription is activated. -/
def newRecord (delivery : Delivery) (userId : UUID) (subType plan : String) (amount : ℤ) :
    PaymentRecord where
  id := delivery.recordId
  userId := userId
  subscriptionType := subType
  plan := plan
  amount := amount
  mulNo := delivery.form.mulNo
  rebillNo := some (delivery.form.rebillNo.getD "")
  payState := some 4
  cardName := delivery.form.cardName
  cardNumber := delivery.form.cardNum
  receiptUrl := delivery.form.csturl
  subscriptionStartedAt := none
  subscriptionExpiresAt := none
  rawWebhookData := some delivery.form.data
  paidAt := some delivery.paidAt

variable (settings : Settings) (encode : JwtEncode)

/-- Adds the record of a charge that is in order, and activates its subscription. -/
def recordPayment (db : Database) (delivery : Delivery) (rebillNo : String)
    (mulNo : Option String) (userId : UUID) (dbPlan : Plan) :
    Except PaymentError (WebhookReply × Database) := do
  let form := delivery.form
  let (subType, plan) ← planParts (form.var2.getD "")
  let record : PaymentRecord :=
    { id := delivery.recordId, userId, subscriptionType := subType, plan,
      amount := dbPlan.price, mulNo, rebillNo := some rebillNo, payState := some 4,
      cardName := form.cardName, cardNumber := form.cardNum, receiptUrl := form.csturl,
      subscriptionStartedAt := none, subscriptionExpiresAt := none,
      rawWebhookData := some form.data, paidAt := some delivery.paidAt }
  -- The record is written when the subscription is looked up.
  let _ ← subscriptionType subType
  let _ ← subscriptionPlan plan
  if !db.users userId then throw .integrityError
  let (subscriptions, record) ←
    activateSubscription settings encode db.subscriptions delivery.activatedAt record
  return (.success, { db with payments := db.payments ++ [record], subscriptions })

/-- Handles a report of a paid charge. -/
def handlePaymentComplete (db : Database) (delivery : Delivery) (rebillNo : String)
    (mulNo : Option String) : Except PaymentError (WebhookReply × Database) := do
  let form := delivery.form
  -- A registration with a paid record is taken for a repeated report.
  let existing ← paymentOfRebill db.payments rebillNo
  if (existing.bind (·.paidAt)).isSome then return (.success, db)
  match UUID.parse (form.var1.getD "") with
  | none => return (.fail, db)
  | some userId =>
    match db.plans (form.var2.getD "") with
    | none => return (.fail, db)
    | some dbPlan =>
      if form.price.getD "" = "" then return (.fail, db)
      -- A price that is not a number is as wrong as another price.
      if int 10 (form.price.getD "") ≠ some dbPlan.price then return (.fail, db)
      recordPayment settings encode db delivery rebillNo mulNo userId dbPlan

/-- A record PayApp has reported another state of, with the fields of the report. -/
def PaymentRecord.stated (form : WebhookForm) (payState : ℤ) (record : PaymentRecord) :
    PaymentRecord :=
  { record with payState := some payState, rawWebhookData := some form.data }

/-- The record of a registration PayApp has reported another state of. -/
def restate (form : WebhookForm) (payState : ℤ) (rebillNo : String) (record : PaymentRecord) :
    PaymentRecord :=
  if record.rebillNo = some rebillNo then record.stated form payState else record

/-- Deactivates the subscription of a cancelled or refunded payment; without a record, the
subscription the report names. -/
def handlePaymentCancel (db : Database) (form : WebhookForm) (rebillNo : String) (payState : ℤ) :
    Except PaymentError (WebhookReply × Database) := do
  match ← paymentOfRebill db.payments rebillNo with
  | some record =>
    let subType ← subscriptionType record.subscriptionType
    return (.success,
      { db with
        payments := db.payments.map (restate form payState rebillNo)
        subscriptions := deactivateSubscription db.subscriptions record.userId subType })
  -- A payment cancelled before it was completed has no record.
  | none =>
    match UUID.parse (form.var1.getD ""),
        SubscriptionType.ofValue? ((split ':' (form.var2.getD "")).headD "") with
    | some userId, some subType =>
      return (.success,
        { db with subscriptions := deactivateSubscription db.subscriptions userId subType })
    | _, _ => return (.fail, db)

/-- Handles a report. -/
def handleWebhook (db : Database) (delivery : Delivery) :
    Except PaymentError (WebhookReply × Database) := do
  let form := delivery.form
  if !isSet settings.PAYAPP_USERID || !isSet settings.PAYAPP_LINKKEY ||
      !isSet settings.PAYAPP_LINKVAL then
    return (.fail, db)
  if !(← verifyWebhook settings form) then return (.fail, db)
  let rebillNo := form.rebillNo.getD ""
  match int 10 (form.payState.getD "0") with
  | none => throw (.invalidLiteral (form.payState.getD "0"))
  | some payState =>
    if payState = 4 then handlePaymentComplete settings encode db delivery rebillNo form.mulNo
    -- Cancelled or refunded.
    else if payState ∈ [8, 9, 32, 64] then handlePaymentCancel db form rebillNo payState
    else return (.success, db)

/-- The database after a report: nothing is left of a request that raises. -/
def paymentWebhook (db : Database) (delivery : Delivery) : Database :=
  match handleWebhook settings encode db delivery with
  | .ok (_, after) => after
  | .error _ => db

/-! ## What a report of a paid charge does -/

/-- The service is configured, and a report carries its credentials. -/
def Accepted (settings : Settings) (form : WebhookForm) : Prop :=
  (isSet settings.PAYAPP_USERID ∧ isSet settings.PAYAPP_LINKKEY ∧ isSet settings.PAYAPP_LINKVAL) ∧
    verifyWebhook settings form = .ok true

/-- A report of a paid charge passes the checks: it carries the credentials of the service, and
it names a user and a plan at the price the plan has. -/
structure Passes (settings : Settings) (db : Database) (form : WebhookForm) (userId : UUID)
    (type : SubscriptionType) (plan : SubscriptionPlan) (price : ℤ) : Prop where
  accepted : Accepted settings form
  complete : int 10 (form.payState.getD "0") = some 4
  user : UUID.parse (form.var1.getD "") = some userId
  plan : planParts (form.var2.getD "") = .ok (type.value, plan.value)
  priced : ∃ dbPlan, db.plans (form.var2.getD "") = some dbPlan ∧ dbPlan.price = price ∧
    int 10 (form.price.getD "") = some price

/-- A report that is recorded: it passes the checks, its registration has no paid record, its user
exists, and a token can be signed if one is issued. -/
structure Chargeable (settings : Settings) (db : Database) (form : WebhookForm) (userId : UUID)
    (type : SubscriptionType) : Prop where
  passes : ∃ plan price, Passes settings db form userId type plan price
  unpaid : ∃ existing, paymentOfRebill db.payments (form.rebillNo.getD "") = .ok existing ∧
    existing.bind (·.paidAt) = none
  user_exists : db.users userId = true
  secret : type = .mcp → settings.MCP_JWT_SECRET ≠ ""

/-- The record a report of a paid charge adds, and the subscription it activates. -/
structure RecordedFor (settings : Settings) (delivery : Delivery) (db after : Database)
    (userId : UUID) (type : SubscriptionType) (record : PaymentRecord) : Prop where
  chargeable : Chargeable settings db delivery.form userId type
  userId_eq : record.userId = userId
  type_eq : record.subscriptionType = type.value
  rebillNo_eq : record.rebillNo = some (delivery.form.rebillNo.getD "")
  paidAt_eq : record.paidAt = some delivery.paidAt
  after_eq : ∃ sub, after =
    { db with
      payments := db.payments ++ [record]
      subscriptions := setSubscription db.subscriptions userId type sub }

variable {settings encode} {db after : Database} {delivery : Delivery} {rebillNo : String}
  {mulNo : Option String} {reply : WebhookReply}

theorem recordsOf_of_paymentOfRebill {payments : List PaymentRecord} {rebillNo : String}
    {record : PaymentRecord} (h : paymentOfRebill payments rebillNo = .ok (some record)) :
    recordsOf payments rebillNo = [record] := by
  unfold paymentOfRebill at h
  split at h
  · cases h
  · next hone =>
    cases h
    exact hone
  · cases h

theorem recordsOf_eq_toList {payments : List PaymentRecord} {existing : Option PaymentRecord}
    (h : paymentOfRebill payments rebillNo = .ok existing) :
    recordsOf payments rebillNo = existing.toList := by
  cases existing with
  | none =>
    unfold paymentOfRebill at h
    split at h
    · next hnone => exact hnone
    · cases h
    · cases h
  | some record => exact recordsOf_of_paymentOfRebill h

/-- A payment is recorded with the subscription it activates. -/
theorem recordPayment_activates {userId : UUID} {dbPlan : Plan}
    (h : recordPayment settings encode db delivery rebillNo mulNo userId dbPlan =
      .ok (reply, after)) :
    ∃ subType plan subscriptions record,
      planParts (delivery.form.var2.getD "") = .ok (subType, plan) ∧ db.users userId = true ∧
      activateSubscription settings encode db.subscriptions delivery.activatedAt
        { id := delivery.recordId, userId, subscriptionType := subType, plan,
          amount := dbPlan.price, mulNo, rebillNo := some rebillNo, payState := some 4,
          cardName := delivery.form.cardName, cardNumber := delivery.form.cardNum,
          receiptUrl := delivery.form.csturl, subscriptionStartedAt := none,
          subscriptionExpiresAt := none, rawWebhookData := some delivery.form.data,
          paidAt := some delivery.paidAt } =
        .ok (subscriptions, record) ∧
      after = { db with payments := db.payments ++ [record], subscriptions } := by
  simp only [recordPayment, bind_eq_ok, Prod.exists] at h
  obtain ⟨subType, plan, hparts, _, -, _, -, h⟩ := h
  split_ifs at h with husers
  · obtain ⟨_, hthrow, -⟩ := bind_eq_ok.mp h
    exact (throw_eq_ok.mp hthrow).elim
  · obtain ⟨⟨subscriptions, record⟩, hactivated, h⟩ := bind_eq_ok.mp h
    rw [pure_eq_ok, Prod.mk.injEq] at h
    exact ⟨subType, plan, subscriptions, record, hparts, by simpa using husers, hactivated,
      h.2.symm⟩

/-- What a report of a paid charge comes to once its registration has been looked up. -/
theorem handlePaymentComplete_eq {existing : Option PaymentRecord}
    (h : paymentOfRebill db.payments rebillNo = .ok existing) :
    handlePaymentComplete settings encode db delivery rebillNo mulNo =
      if (existing.bind (·.paidAt)).isSome then pure (.success, db)
      else match UUID.parse (delivery.form.var1.getD "") with
        | none => pure (.fail, db)
        | some userId =>
          match db.plans (delivery.form.var2.getD "") with
          | none => pure (.fail, db)
          | some dbPlan =>
            if int 10 (delivery.form.price.getD "") = some dbPlan.price then
              recordPayment settings encode db delivery rebillNo mulNo userId dbPlan
            else pure (.fail, db) := by
  unfold handlePaymentComplete
  rw [h]
  refine if_congr Iff.rfl rfl ?_
  cases UUID.parse (delivery.form.var1.getD "") with
  | none => rfl
  | some userId =>
    dsimp only
    cases db.plans (delivery.form.var2.getD "") with
    | none => rfl
    | some dbPlan =>
      dsimp only
      by_cases hprice : int 10 (delivery.form.price.getD "") = some dbPlan.price
      · have hgiven : delivery.form.price.getD "" ≠ "" := by
          intro hempty
          rw [hempty] at hprice
          cases hprice
        rw [if_neg hgiven, if_pos hprice, if_neg (not_not.mpr hprice)]
      · rw [if_neg hprice, if_pos hprice]
        split_ifs <;> rfl

/-- A report of a paid charge changes nothing, or its registration has not been paid and it is
recorded. -/
theorem handlePaymentComplete_cases
    (h : handlePaymentComplete settings encode db delivery rebillNo mulNo = .ok (reply, after)) :
    after = db ∨ ∃ existing userId dbPlan,
      paymentOfRebill db.payments rebillNo = .ok existing ∧
      ¬ (existing.bind (·.paidAt)).isSome = true ∧
      UUID.parse (delivery.form.var1.getD "") = some userId ∧
      db.plans (delivery.form.var2.getD "") = some dbPlan ∧
      int 10 (delivery.form.price.getD "") = some dbPlan.price ∧
      recordPayment settings encode db delivery rebillNo mulNo userId dbPlan =
        .ok (reply, after) := by
  have hunchanged : ∀ answer, (pure (answer, db) : Except PaymentError _) = .ok (reply, after) →
      after = db := by
    intro answer hpure
    rw [pure_eq_ok, Prod.mk.injEq] at hpure
    exact hpure.2.symm
  simp only [handlePaymentComplete, bind_eq_ok] at h
  obtain ⟨existing, hexisting, h⟩ := h
  split_ifs at h with hpaid hprice
  · exact .inl (hunchanged _ h)
  · left
    split at h
    · exact hunchanged _ h
    · split at h <;> exact hunchanged _ h
  · split at h
    · exact .inl (hunchanged _ h)
    · next userId huser =>
      split at h
      · exact .inl (hunchanged _ h)
      · next dbPlan hplan =>
        split_ifs at h with hwrong
        · exact .inl (hunchanged _ h)
        · exact .inr ⟨existing, userId, dbPlan, hexisting, hpaid, huser, hplan,
            not_not.mp hwrong, h⟩

/-- A report of a paid charge changes nothing, or it passes all checks, adds one record and
activates the subscription it names. -/
theorem handlePaymentComplete_ok (haccepted : Accepted settings delivery.form)
    (hstate : int 10 (delivery.form.payState.getD "0") = some 4)
    (h : handlePaymentComplete settings encode db delivery (delivery.form.rebillNo.getD "") mulNo =
      .ok (reply, after)) :
    after = db ∨ ∃ userId type record,
      RecordedFor settings delivery db after userId type record := by
  rcases handlePaymentComplete_cases h with
    hunchanged | ⟨existing, userId, dbPlan, hexisting, hunpaid, huser, hdbPlan, hprice, hok⟩
  · exact .inl hunchanged
  · obtain ⟨subType, planValue, subscriptions, record, hparts, hexists, hactivated, rfl⟩ :=
      recordPayment_activates hok
    obtain ⟨type, plan, token, htype, hplan, rfl, rfl⟩ := activateSubscription_ok hactivated
    obtain rfl : type.value = subType := SubscriptionType.value_of_ofValue? htype
    obtain rfl : plan.value = planValue := SubscriptionPlan.value_of_ofValue? hplan
    have hpasses : Passes settings db delivery.form userId type plan dbPlan.price :=
      ⟨haccepted, hstate, huser, hparts, dbPlan, hdbPlan, rfl, hprice⟩
    have hsecret : type = .mcp → settings.MCP_JWT_SECRET ≠ "" := by
      rintro rfl
      exact secret_of_activateSubscription hactivated htype
    exact .inr ⟨userId, type, _, ⟨⟨plan, _, hpasses⟩, ⟨existing, hexisting, by simpa using hunpaid⟩,
      hexists, hsecret⟩, rfl, rfl, rfl, rfl, _, rfl⟩

/-- A report of a cancellation is about the registration that is recorded, or about the user and
plan it names, or it changes nothing. -/
theorem handlePaymentCancel_cases {form : WebhookForm} {payState : ℤ}
    (h : handlePaymentCancel db form rebillNo payState = .ok (reply, after)) :
    (∃ record type, paymentOfRebill db.payments rebillNo = .ok (some record) ∧
      subscriptionType record.subscriptionType = .ok type ∧ after =
        { db with
          payments := db.payments.map (restate form payState rebillNo)
          subscriptions := deactivateSubscription db.subscriptions record.userId type }) ∨
    (∃ userId type, paymentOfRebill db.payments rebillNo = .ok none ∧
      UUID.parse (form.var1.getD "") = some userId ∧
      SubscriptionType.ofValue? ((split ':' (form.var2.getD "")).headD "") = some type ∧ after =
        { db with subscriptions := deactivateSubscription db.subscriptions userId type }) ∨
    after = db := by
  obtain ⟨existing, hlookup, h⟩ := bind_eq_ok.mp h
  cases existing with
  | some record =>
    obtain ⟨type, htype, h⟩ := bind_eq_ok.mp h
    rw [pure_eq_ok, Prod.mk.injEq] at h
    exact .inl ⟨record, type, hlookup, htype, h.2.symm⟩
  | none =>
    dsimp only at h
    split at h
    · next userId type huser htype =>
      rw [pure_eq_ok, Prod.mk.injEq] at h
      exact .inr (.inl ⟨userId, type, hlookup, huser, htype, h.2.symm⟩)
    · rw [pure_eq_ok, Prod.mk.injEq] at h
      exact .inr (.inr h.2.symm)

/-- A report that carries the credentials is handled by its state. -/
theorem handleWebhook_accepted (h : Accepted settings delivery.form) :
    handleWebhook settings encode db delivery =
      match int 10 (delivery.form.payState.getD "0") with
      | none => throw (.invalidLiteral (delivery.form.payState.getD "0"))
      | some payState =>
        if payState = 4 then
          handlePaymentComplete settings encode db delivery (delivery.form.rebillNo.getD "")
            delivery.form.mulNo
        else if payState ∈ [8, 9, 32, 64] then
          handlePaymentCancel db delivery.form (delivery.form.rebillNo.getD "") payState
        else pure (.success, db) := by
  obtain ⟨⟨huserid, hlinkkey, hlinkval⟩, hverified⟩ := h
  unfold handleWebhook
  dsimp only
  rw [huserid, hlinkkey, hlinkval, hverified]
  rfl

/-- A report is refused or of no concern, or it carries the credentials and is handled. -/
theorem handleWebhook_ok (h : handleWebhook settings encode db delivery = .ok (reply, after)) :
    after = db ∨ Accepted settings delivery.form ∧
      ∃ payState, int 10 (delivery.form.payState.getD "0") = some payState ∧
        (payState = 4 ∧ handlePaymentComplete settings encode db delivery
            (delivery.form.rebillNo.getD "") delivery.form.mulNo = .ok (reply, after) ∨
          payState ∈ [8, 9, 32, 64] ∧ handlePaymentCancel db delivery.form
            (delivery.form.rebillNo.getD "") payState = .ok (reply, after)) := by
  have hunchanged : ∀ answer, (pure (answer, db) : Except PaymentError _) = .ok (reply, after) →
      after = db := by
    intro answer hpure
    rw [pure_eq_ok, Prod.mk.injEq] at hpure
    exact hpure.2.symm
  rw [handleWebhook] at h
  split_ifs at h with hconfigured
  · exact .inl (hunchanged _ h)
  · obtain ⟨verified, hverified, h⟩ := bind_eq_ok.mp h
    cases verified with
    | false => exact .inl (hunchanged _ h)
    | true =>
      have haccepted : Accepted settings delivery.form :=
        ⟨by simpa [Bool.or_eq_true, and_assoc] using hconfigured, hverified⟩
      simp only [Bool.not_true, Bool.false_eq_true, if_false] at h
      split at h
      · exact (throw_eq_ok.mp h).elim
      · next payState hstate =>
        split_ifs at h with hfour hcancel
        · exact .inr ⟨haccepted, payState, hstate, .inl ⟨hfour, h⟩⟩
        · exact .inr ⟨haccepted, payState, hstate, .inr ⟨hcancel, h⟩⟩
        · exact .inl (hunchanged _ h)

/-- A request that reports a paid charge changes nothing, or it passes all checks, adds one record
and activates the subscription it names. -/
theorem paymentWebhook_complete (settings : Settings) (encode : JwtEncode) (db : Database)
    {delivery : Delivery} (hstate : int 10 (delivery.form.payState.getD "0") = some 4) :
    paymentWebhook settings encode db delivery = db ∨ ∃ userId type record,
      RecordedFor settings delivery db (paymentWebhook settings encode db delivery) userId type
        record := by
  unfold paymentWebhook
  cases hhandled : handleWebhook settings encode db delivery with
  | error e => exact .inl rfl
  | ok answer =>
    obtain ⟨reply, after⟩ := answer
    rcases handleWebhook_ok hhandled with rfl | ⟨haccepted, payState, hpayState, hkind⟩
    · exact .inl rfl
    · obtain rfl : 4 = payState := Option.some.inj (hstate.symm.trans hpayState)
      rcases hkind with ⟨-, hcomplete⟩ | ⟨hcancel, -⟩
      · exact handlePaymentComplete_ok haccepted hstate hcomplete
      · exact absurd hcancel (by decide)

end Logit.Payments
