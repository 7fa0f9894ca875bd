import Logit.Payments.Cancellation
import Logit.Payments.Notices

/-!
# Honouring what was offered

A payment is registered with PayApp at the price its plan has then, and the service keeps
nothing of it that it reads again. When PayApp reports a charge, its price is compared with
the price the plan has now, as a guard against forged prices. So the first charge of a
registration is honoured just if the plan is there at the price of the registration then,
whatever has happened to the table of plans in between.

## Main definitions

* `FirstNotice` — the first report of a charge of a registration
* `Honoured` — a report is answered with success, and what was asked for has been bought

## Main results

* `initiateRequest_ok` — what a user registers
* `honoured_iff` — when the first charge of a registration is honoured
-/

namespace Logit.Payments

open Calendar Python Security Subscriptions

variable {settings : Settings} {encode : JwtEncode} {seen db : Database} {now : Datetime}
  {userId : UUID} {req : PaymentInitiateRequest} {request : RebillRequest} {delivery : Delivery}

/-- What follows the checks of the credentials and of the running subscription. -/
theorem rebillRequest_ok {cycleDay : Option ℕ}
    (h : (match (seen.plans (planKey req.subscriptionType req.plan)).filter (·.isActive) with
      | none => throw (.valueError
          ("지원하지 않는 플랜입니다: " ++ planKey req.subscriptionType req.plan))
      | some dbPlan => pure
        { goodName := dbPlan.name, price := dbPlan.price, userId := userId.str,
          planKey := planKey req.subscriptionType req.plan,
          feedbackUrl := settings.PAYAPP_CALLBACK_URL, phone := req.phone,
          returnUrl := settings.FRONTEND_URL ++ "/payment/complete", cycleDay } :
        Except PaymentError RebillRequest) = .ok request) :
    request.userId = userId.str ∧ request.planKey = planKey req.subscriptionType req.plan ∧
      ∃ dbPlan, seen.plans request.planKey = some dbPlan ∧ dbPlan.price = request.price := by
  split at h
  · exact (throw_eq_ok.mp h).elim
  · next dbPlan hplan =>
    obtain rfl := pure_eq_ok.mp h
    exact ⟨rfl, rfl, dbPlan, (Option.filter_eq_some_iff.mp hplan).1, rfl⟩

/-- What a user registers: a plan that is on offer, at its price. -/
theorem initiateRequest_ok (h : initiateRequest settings seen now userId req = .ok request) :
    request.userId = userId.str ∧ request.planKey = planKey req.subscriptionType req.plan ∧
      ∃ dbPlan, seen.plans request.planKey = some dbPlan ∧ dbPlan.price = request.price := by
  unfold initiateRequest at h
  dsimp only at h
  split_ifs at h
  · exact (throw_eq_ok.mp h).elim
  · cases hexisting : (seen.subscriptions userId req.subscriptionType).filter (·.isActive) with
    | none =>
      rw [hexisting] at h
      exact rebillRequest_ok h
    | some sub =>
      simp only [hexisting] at h
      split_ifs at h
      · exact (throw_eq_ok.mp h).elim
      · cases hexpires : sub.expiresAt with
        | none =>
          simp only [hexpires] at h
          exact rebillRequest_ok h
        | some expiresAt =>
          simp only [hexpires] at h
          split_ifs at h
          · exact (throw_eq_ok.mp h).elim
          · exact rebillRequest_ok h

/-- A payment has been registered with PayApp, which has answered. -/
structure Registers (settings : Settings) (registerRebill : RebillRequest → PayAppAnswer)
    (seen : Database) (now : Datetime) (userId : UUID) (req : PaymentInitiateRequest)
    (request : RebillRequest) (response : PaymentInitiateResponse) : Prop where
  request_eq : initiateRequest settings seen now userId req = .ok request
  response_eq : initiateAnswered (registerRebill request) = .ok response

/-- A report with the credentials of the service of the first charge of a registration: it has
the user, the plan and the price that were registered, and no charge has been recorded. -/
structure FirstNotice (settings : Settings) (db : Database) (request : RebillRequest)
    (rebillNo : String) (delivery : Delivery) : Prop where
  accepted : Accepted settings delivery.form
  complete : int 10 (delivery.form.payState.getD "0") = some 4
  rebillNo_eq : delivery.form.rebillNo = some rebillNo
  var1_eq : delivery.form.var1 = some request.userId
  var2_eq : delivery.form.var2 = some request.planKey
  price_eq : int 10 (delivery.form.price.getD "") = some request.price
  unrecorded : recordsOf db.payments rebillNo = []

/-- The record of a charge for what has been asked for, and the subscription that has been paid:
both are for the plan, from the report on for 31 days. -/
structure Bought (delivery : Delivery) (userId : UUID) (req : PaymentInitiateRequest) (price : ℤ)
    (rebillNo : String) (record : PaymentRecord) (sub : Subscription) : Prop where
  paidFor : PaidFor userId req.subscriptionType record
  plan_eq : record.plan = req.plan.value
  amount_eq : record.amount = price
  rebillNo_eq : record.rebillNo = some rebillNo
  period : PeriodOf record sub
  subscribed : sub.plan = req.plan
  active : sub.isActive = true
  startedAt_eq : sub.startedAt = delivery.activatedAt
  expiresAt_eq : sub.expiresAt = some (delivery.activatedAt.addDays 31)

/-- A report is answered with success, and what has been asked for is recorded and activated. -/
def Honoured (settings : Settings) (encode : JwtEncode) (db : Database) (delivery : Delivery)
    (userId : UUID) (req : PaymentInitiateRequest) (price : ℤ) (rebillNo : String) : Prop :=
  ∃ record sub, Bought delivery userId req price rebillNo record sub ∧
    handleWebhook settings encode db delivery = .ok (.success,
      { db with
        payments := db.payments ++ [record]
        subscriptions := setSubscription db.subscriptions userId req.subscriptionType sub })

/-- A report of a charge at another price than the plan has, or of a plan there is not, is
refused. -/
theorem handlePaymentComplete_refused {rebillNo : String} {mulNo : Option String}
    (hnone : paymentOfRebill db.payments rebillNo = .ok none)
    (huser : UUID.parse (delivery.form.var1.getD "") = some userId)
    (hprice : ∀ dbPlan, db.plans (delivery.form.var2.getD "") = some dbPlan →
      int 10 (delivery.form.price.getD "") ≠ some dbPlan.price) :
    handlePaymentComplete settings encode db delivery rebillNo mulNo = .ok (.fail, db) := by
  simp only [handlePaymentComplete, hnone, huser, bind, Except.bind, Option.bind_none,
    Option.isSome_none, Bool.false_eq_true, if_false]
  cases hplan : db.plans (delivery.form.var2.getD "") with
  | none => rfl
  | some dbPlan =>
    dsimp only
    rw [if_pos (hprice dbPlan hplan)]
    split_ifs <;> rfl

/-- The first charge of a registration is honoured if and only if the plan is there at the price
of the registration when it is reported; otherwise the report is refused, and changes nothing. -/
theorem honoured_iff {registerRebill : RebillRequest → PayAppAnswer}
    {response : PaymentInitiateResponse}
    (hregisters : Registers settings registerRebill seen now userId req request response)
    (hnotice : FirstNotice settings db request response.rebillNo delivery)
    (huser : db.users userId = true)
    (hsecret : req.subscriptionType = .mcp → settings.MCP_JWT_SECRET ≠ "") :
    (Honoured settings encode db delivery userId req request.price response.rebillNo ↔
      ∃ dbPlan, db.plans request.planKey = some dbPlan ∧ dbPlan.price = request.price) ∧
    (¬ Honoured settings encode db delivery userId req request.price response.rebillNo →
      handleWebhook settings encode db delivery = .ok (.fail, db)) := by
  obtain ⟨huserId, hkey, -⟩ := initiateRequest_ok hregisters.request_eq
  obtain ⟨haccepted, hcomplete, hrebillNo, hvar1, hvar2, hprice, hunrecorded⟩ := hnotice
  have hnone : paymentOfRebill db.payments (delivery.form.rebillNo.getD "") = .ok none := by
    rw [hrebillNo, Option.getD_some, paymentOfRebill, hunrecorded]
  have hparse : UUID.parse (delivery.form.var1.getD "") = some userId := by
    rw [hvar1, Option.getD_some, huserId, UUID.parse_str]
  have hhandled := handleWebhook_complete encode db haccepted hcomplete
  by_cases hplan : ∃ dbPlan, db.plans request.planKey = some dbPlan ∧ dbPlan.price = request.price
  · obtain ⟨dbPlan, hdbPlan, hsame⟩ := id hplan
    have hpasses : Passes settings db delivery.form userId req.subscriptionType req.plan
        request.price := by
      refine ⟨haccepted, hcomplete, hparse, ?_, dbPlan, ?_, hsame, hprice⟩
      · rw [hvar2, Option.getD_some, hkey, planParts_planKey]
      · rw [hvar2, Option.getD_some, hdbPlan]
    obtain ⟨token, hfirst⟩ := handlePaymentComplete_first encode hpasses hnone rfl huser hsecret
    have hhonoured : Honoured settings encode db delivery userId req request.price
        response.rebillNo := by
      refine ⟨_, _, ⟨⟨rfl, rfl, rfl⟩, rfl, rfl, ?_, ⟨rfl, rfl⟩, rfl, rfl, rfl, rfl⟩,
        hhandled.trans hfirst⟩
      rw [paidPeriod, newRecord, hrebillNo, Option.getD_some]
    exact ⟨iff_of_true hhonoured hplan, fun hnot => absurd hhonoured hnot⟩
  · have hrefused : handleWebhook settings encode db delivery = .ok (.fail, db) := by
      rw [hhandled]
      refine handlePaymentComplete_refused hnone hparse fun dbPlan hdbPlan hother => hplan ?_
      rw [hvar2, Option.getD_some] at hdbPlan
      exact ⟨dbPlan, hdbPlan, Option.some.inj (hother.symm.trans hprice)⟩
    refine ⟨iff_of_false ?_ hplan, fun _ => hrefused⟩
    rintro ⟨record, sub, -, hsuccess⟩
    rw [hrefused] at hsuccess
    cases hsuccess

/-! ### A plan that gets dearer -/

/-- The answer of PayApp to the registration. -/
def registered : PayAppAnswer := .ok ⟨some "1", none, none, some "R1", some "https://pay"⟩

/-- The shop after its plan has been given another price. -/
def repricedShop (price : ℤ) : Database :=
  { newShop with
    plans := fun id =>
      if id = "logit:lite" then some ⟨"logit:lite", "Logit Lite 구독", price, true⟩ else none }

/-- The first charge of the registration, made a month later. -/
def dueCharge : Charge shop newShop.users newShop.plans :=
  liteCharge "R1" "M1" (.utc 2026 2 10 9)

/-- PayApp reports the first charge of the registration. -/
theorem firstNotice_repriced (price : ℤ) :
    FirstNotice shop (repricedShop price) liteRequest "R1" dueCharge.delivery where
  accepted := ⟨dueCharge.configured, dueCharge.verified⟩
  complete := dueCharge.paid
  rebillNo_eq := rfl
  var1_eq := rfl
  var2_eq := rfl
  price_eq := dueCharge.price_eq
  unrecorded := rfl

theorem registers_lite : Registers shop (fun _ => registered) newShop (.utc 2026 1 10 8) 7
    ⟨.logit, .lite, "01012345678", rfl⟩ liteRequest ⟨"https://pay", "R1"⟩ :=
  ⟨initiateRequest_lite, rfl⟩

/-- The plan has its price when the charge is reported. -/
theorem honoured_iff_lite : Honoured shop unsigned (repricedShop 6900) dueCharge.delivery 7
    ⟨.logit, .lite, "01012345678", rfl⟩ 6900 "R1" :=
  (honoured_iff registers_lite (firstNotice_repriced 6900) rfl nofun).1.mpr ⟨_, rfl, rfl⟩

/-- The plan costs more when the charge is reported. -/
theorem not_honoured :
    ¬ ∀ (settings : Settings) (encode : JwtEncode) (registerRebill : RebillRequest → PayAppAnswer)
      (seen : Database) (plans : String → Option Plan) (now : Datetime) (userId : UUID)
      (req : PaymentInitiateRequest) (request : RebillRequest)
      (response : PaymentInitiateResponse) (delivery : Delivery), seen.users userId = true →
      (req.subscriptionType = .mcp → settings.MCP_JWT_SECRET ≠ "") →
      Registers settings registerRebill seen now userId req request response →
      FirstNotice settings { seen with plans } request response.rebillNo delivery →
      Honoured settings encode { seen with plans } delivery userId req request.price
        response.rebillNo := by
  intro hclaim
  have hhonoured := hclaim shop unsigned (fun _ => registered) newShop (repricedShop 7900).plans _
    7 _ _ _ _ rfl nofun registers_lite (firstNotice_repriced 7900)
  obtain ⟨record, sub, -, hsuccess⟩ := hhonoured
  have hrefused : handleWebhook shop unsigned (repricedShop 7900) dueCharge.delivery =
      .ok (.fail, repricedShop 7900) := by
    rw [handleWebhook_charge]
    refine handlePaymentComplete_refused rfl dueCharge.user_eq fun dbPlan hdbPlan hprice => ?_
    obtain rfl : (⟨"logit:lite", "Logit Lite 구독", 7900, true⟩ : Plan) = dbPlan :=
      Option.some.inj hdbPlan
    exact absurd (Option.some.inj (dueCharge.price_eq.symm.trans hprice)) (by decide)
  rw [show { newShop with plans := (repricedShop 7900).plans } = repricedShop 7900 from rfl,
    hrefused] at hsuccess
  cases hsuccess

end Logit.Payments
