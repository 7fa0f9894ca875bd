import Logit.Calendar.Iso
import Logit.Payments.Model
import Logit.Python.Raise

/-!
# Starting and cancelling recurring payments

A payment is started by registering it with PayApp, which charges the user from then on;
the service keeps nothing of it. A subscription is cancelled by cancelling, with PayApp,
the registration of the user's last payment.

## Main definitions

* `initiatePayment` — registers a payment for a plan
* `cancelSubscription` — cancels the registration of the last payment
* `LastPayment` — what the query for the last payment may find
-/

namespace Logit.Payments

open Calendar Python Subscriptions

/-! ## Starting a payment -/

/-- The plans a subscription of a type may be on. -/
def validPlan : SubscriptionType → SubscriptionPlan → Bool
  | .mcp, plan => plan = .basic
  | .logit, plan => plan ≠ .basic

/-- A request for a payment that has passed validation. -/
structure PaymentInitiateRequest where
  subscriptionType : SubscriptionType
  plan : SubscriptionPlan
  phone : String
  plan_valid : validPlan subscriptionType plan = true

structure PaymentInitiateResponse where
  payurl : String
  rebillNo : String
  deriving DecidableEq, Repr

/-- What PayApp is asked to register. -/
structure RebillRequest where
  goodName : String
  price : ℤ
  userId : String
  planKey : String
  feedbackUrl : String
  phone : String
  returnUrl : String
  /-- The day of the month PayApp charges on; today's if there is none. -/
  cycleDay : Option ℕ
  deriving DecidableEq, Repr

/-- The registration a user may ask for: none while a subscription of the type runs. -/
def initiateRequest (settings : Settings) (db : Database) (now : Datetime) (userId : UUID)
    (req : PaymentInitiateRequest) : Except PaymentError RebillRequest := do
  if !isSet settings.PAYAPP_USERID || !isSet settings.PAYAPP_LINKKEY then
    throw (.runtimeError "PayApp credentials are not configured.")
  let existing := (db.subscriptions userId req.subscriptionType).filter (·.isActive)
  match existing with
  | some sub =>
    if sub.isAutoRenew ∧ sub.expiresAt.all (now < ·) then
      throw (.valueError ("이미 자동갱신 중인 " ++ req.subscriptionType.value ++
        " 구독이 있습니다. 만료일: " ++
        match sub.expiresAt with
        | some expiresAt => strftime expiresAt.date "-" "-" ""
        | none => "무기한"))
    match sub.expiresAt with
    | some expiresAt =>
      if !sub.isAutoRenew ∧ now < expiresAt then
        throw (.valueError ("현재 구독이 " ++ strftime expiresAt.date "년 " "월 " "일" ++
          "에 종료됩니다. 종료 후 재구독해주세요."))
    | none => pure ()
  | none => pure ()
  let key := planKey req.subscriptionType req.plan
  match (db.plans key).filter (·.isActive) with
  | none => throw (.valueError ("지원하지 않는 플랜입니다: " ++ key))
  | some dbPlan =>
    let cycleDay := ((existing.bind (·.expiresAt)).filter (now < ·)).map (·.date.day)
    return { goodName := dbPlan.name, price := dbPlan.price, userId := userId.str, planKey := key,
             feedbackUrl := settings.PAYAPP_CALLBACK_URL, phone := req.phone,
             returnUrl := settings.FRONTEND_URL ++ "/payment/complete", cycleDay }

/-- Python's `text or default`, for a text that may be missing. -/
def textOr (text default : Option String) : Option String :=
  match text with
  | some value => if value = "" then default else text
  | none => default

/-- What is made of the answer to a registration. -/
def initiateAnswered : PayAppAnswer → Except PaymentError PaymentInitiateResponse
  | .error error => .error (.runtimeError ("PayApp 연결 오류: " ++ error))
  | .ok result =>
    if result.state ≠ some "1" then
      .error (.runtimeError ("PayApp 오류: " ++
        (textOr result.errorMessage result.errno).getD "알 수 없는 오류"))
    else
      match result.payurl, result.rebillNo with
      | none, _ => .error (.keyError "payurl")
      | some _, none => .error (.keyError "rebill_no")
      | some payurl, some rebillNo => .ok ⟨payurl, rebillNo⟩

/-- Registers a payment with PayApp; the database stays as it is. -/
def initiatePayment (settings : Settings) (registerRebill : RebillRequest → PayAppAnswer)
    (db : Database) (now : Datetime) (userId : UUID) (req : PaymentInitiateRequest) :
    Except PaymentError PaymentInitiateResponse := do
  let request ← initiateRequest settings db now userId req
  initiateAnswered (registerRebill request)

/-! ## Cancelling a subscription -/

/-- A record of a payment for a user's subscription of a type. -/
def PaidFor (userId : UUID) (type : SubscriptionType) (record : PaymentRecord) : Prop :=
  record.userId = userId ∧ record.subscriptionType = type.value ∧ record.paidAt.isSome = true

/-- What the query for the last payment may find: one of those paid last, or nothing if
there are none. -/
def LastPayment (payments : List PaymentRecord) (userId : UUID) (type : SubscriptionType) :
    Option PaymentRecord → Prop
  | none => ∀ record ∈ payments, ¬ PaidFor userId type record
  | some record => record ∈ payments ∧ PaidFor userId type record ∧
      ∀ other ∈ payments, PaidFor userId type other →
        ∀ paidAt ∈ record.paidAt, ∀ earlier ∈ other.paidAt, earlier ≤ paidAt

/-- The registration a user may cancel, given what the query for the last payment has found;
nothing where PayApp is not configured. -/
def cancelTarget (settings : Settings) (db : Database) (last : Option PaymentRecord)
    (userId : UUID) (type : SubscriptionType) : Except PaymentError (Option String) :=
  match (db.subscriptions userId type).filter (·.isActive) with
  | none => .error (.valueError ("활성화된 " ++ type.value ++ " 구독이 없습니다."))
  | some sub =>
    if !sub.isAutoRenew then
      .error (.valueError ("이미 취소 예약된 구독입니다. 만료일: " ++
        match sub.expiresAt with
        | some expiresAt => strftime expiresAt.date "-" "-" ""
        | none => "없음"))
    else if isSet settings.PAYAPP_USERID ∧ isSet settings.PAYAPP_LINKKEY then
      match last.bind (·.rebillNo) with
      | none => .error (.runtimeError
          "결제 기록(rebill_no)을 찾을 수 없어 PayApp 취소를 진행할 수 없습니다.")
      | some rebillNo =>
        -- A number that is empty is as good as none.
        if rebillNo = "" then .error (.runtimeError
          "결제 기록(rebill_no)을 찾을 수 없어 PayApp 취소를 진행할 수 없습니다.")
        else .ok (some rebillNo)
    else .ok none

/-- What is cancelled is the registration of the last payment. -/
theorem cancelTarget_some {settings : Settings} {db : Database} {last : Option PaymentRecord}
    {userId : UUID} {type : SubscriptionType} {rebillNo : String}
    (h : cancelTarget settings db last userId type = .ok (some rebillNo)) :
    ∃ record, last = some record ∧ record.rebillNo = some rebillNo := by
  unfold cancelTarget at h
  split at h
  · cases h
  · split_ifs at h
    · split at h
      · cases h
      · next found hfound =>
        split_ifs at h
        obtain rfl : found = rebillNo := by simpa using h
        exact Option.bind_eq_some_iff.mp hfound
    · cases h

/-- The registration of the last payment for a subscription that is renewed is cancelled. -/
theorem cancelTarget_renewed {settings : Settings} {db : Database} {record : PaymentRecord}
    {userId : UUID} {type : SubscriptionType} {sub : Subscription} {rebillNo : String}
    (hrow : db.subscriptions userId type = some sub) (hactive : sub.isActive = true)
    (hrenew : sub.isAutoRenew = true) (hrebillNo : record.rebillNo = some rebillNo)
    (hne : rebillNo ≠ "")
    (hconfigured : isSet settings.PAYAPP_USERID ∧ isSet settings.PAYAPP_LINKKEY) :
    cancelTarget settings db (some record) userId type = .ok (some rebillNo) := by
  simp [cancelTarget, hrow, Option.filter, hactive, hrenew, hrebillNo, hne, hconfigured]

/-- Where PayApp is configured, there is always something to cancel. -/
theorem cancelTarget_ne_none {settings : Settings} {db : Database} {last : Option PaymentRecord}
    {userId : UUID} {type : SubscriptionType}
    (hconfigured : isSet settings.PAYAPP_USERID ∧ isSet settings.PAYAPP_LINKKEY) :
    cancelTarget settings db last userId type ≠ .ok none := by
  intro h
  unfold cancelTarget at h
  split at h
  · cases h
  · rw [if_pos hconfigured] at h
    split_ifs at h
    split at h
    · cases h
    · split_ifs at h
      cases h

/-- What is made of the answer to a cancellation. -/
def cancelAnswered : PayAppAnswer → Except PaymentError Unit
  | .error error => .error (.runtimeError ("PayApp 연결 오류: " ++ error))
  | .ok result =>
    if result.state ≠ some "1" then
      .error (.runtimeError ("PayApp 정기결제 취소 실패 (errno=" ++ result.errno.getD "" ++ "): " ++
        result.errorMessage.getD "알 수 없는 오류"))
    else .ok ()

/-- The subscriptions when a cancellation is over: the subscription is not renewed. -/
def stopRenewal (subscriptions : SubscriptionTable) (userId : UUID) (type : SubscriptionType) :
    SubscriptionTable :=
  match subscriptions userId type with
  | none => subscriptions
  | some sub => setSubscription subscriptions userId type { sub with isAutoRenew := false }

/-- Cancels the registration of the last payment and stops the renewal. -/
def cancelSubscription (settings : Settings) (cancelRebill : String → PayAppAnswer) (db : Database)
    (last : Option PaymentRecord) (userId : UUID) (type : SubscriptionType) :
    Except PaymentError Database := do
  match ← cancelTarget settings db last userId type with
  | some rebillNo => cancelAnswered (cancelRebill rebillNo)
  | none => pure ()
  return { db with subscriptions := stopRenewal db.subscriptions userId type }

/-- A call that returns has stopped the renewal, and has written nothing else. -/
theorem cancelSubscription_ok {settings : Settings} {cancelRebill : String → PayAppAnswer}
    {db after : Database} {last : Option PaymentRecord} {userId : UUID} {type : SubscriptionType}
    (h : cancelSubscription settings cancelRebill db last userId type = .ok after) :
    after = { db with subscriptions := stopRenewal db.subscriptions userId type } := by
  obtain ⟨target, -, h⟩ := bind_eq_ok.mp h
  cases target with
  | none => exact (pure_eq_ok.mp h).symm
  | some rebillNo =>
    obtain ⟨_, -, h⟩ := bind_eq_ok.mp h
    exact (pure_eq_ok.mp h).symm

end Logit.Payments
