import Logit.Payments.Webhook
import Logit.Schedule.FirstOfKey

/-!
# Recording charges

PayApp charges a registration every month and reports each charge under a number of its
own, perhaps more than once. The service drops a report when the registration already has
a paid record, so of each registration it records the first charge reported: every charge
is recorded once, and extends the subscription, only while no registration is charged
twice.

## Main definitions

* `Charge` — a sound report of a paid charge
* `deliverAll` — the database after a sequence of reports
* `ChargedOnce` — every charge has one record, and its first report starts a period

## Main results

* `exists_chargeable_iff` — a report of a paid charge that changes anything passes all checks
* `payments_deliverAll` — the records are those of the first charge of every registration
* `chargedOnce_iff` — charges are recorded once if and only if no registration is charged twice
-/

namespace Logit.Payments

open Calendar Python Schedule Security Subscriptions

/-- A report of a paid charge that carries the credentials of the service, a user there is,
and a plan at its price. -/
structure Charge (settings : Settings) (users : UUID → Bool) (plans : String → Option Plan) where
  delivery : Delivery
  /-- The recurring registration. -/
  rebillNo : String
  /-- The single charge. -/
  mulNo : String
  user : UUID
  type : SubscriptionType
  plan : SubscriptionPlan
  offered : Plan
  configured : isSet settings.PAYAPP_USERID ∧ isSet settings.PAYAPP_LINKKEY ∧
    isSet settings.PAYAPP_LINKVAL
  verified : verifyWebhook settings delivery.form = .ok true
  paid : int 10 (delivery.form.payState.getD "0") = some 4
  rebillNo_eq : delivery.form.rebillNo = some rebillNo
  mulNo_eq : delivery.form.mulNo = some mulNo
  user_eq : UUID.parse (delivery.form.var1.getD "") = some user
  user_exists : users user = true
  planKey_eq : delivery.form.var2 = some (planKey type plan)
  offered_eq : plans (planKey type plan) = some offered
  price_eq : int 10 (delivery.form.price.getD "") = some offered.price
  secret : type = .mcp → settings.MCP_JWT_SECRET ≠ ""

variable {settings : Settings} {encode : JwtEncode} {db : Database} {users : UUID → Bool}
  {plans : String → Option Plan}

namespace Charge

variable (charge : Charge settings users plans)

/-- The record a charge is given before its subscription is activated. -/
def newRecord : PaymentRecord where
  id := charge.delivery.recordId
  userId := charge.user
  subscriptionType := charge.type.value
  plan := charge.plan.value
  amount := charge.offered.price
  mulNo := some charge.mulNo
  rebillNo := some charge.rebillNo
  payState := some 4
  cardName := charge.delivery.form.cardName
  cardNumber := charge.delivery.form.cardNum
  receiptUrl := charge.delivery.form.csturl
  subscriptionStartedAt := none
  subscriptionExpiresAt := none
  rawWebhookData := some charge.delivery.form.data
  paidAt := some charge.delivery.paidAt

/-- The record of a charge. -/
def record : PaymentRecord := paidPeriod charge.newRecord charge.delivery.activatedAt

/-- The subscription a charge pays for, with some token. -/
def period (token : Option String) : Subscription where
  isActive := true
  isAutoRenew := true
  plan := charge.plan
  token := token
  startedAt := charge.delivery.activatedAt
  expiresAt := some (charge.delivery.activatedAt.addDays 31)

end Charge

theorem planParts_planKey (type : SubscriptionType) (plan : SubscriptionPlan) :
    planParts (planKey type plan) = .ok (type.value, plan.value) := by
  cases type <;> cases plan <;> decide

/-- An activation succeeds on known values, if MCP tokens can be signed. -/
theorem activateSubscription_exists (encode : JwtEncode) (subscriptions : SubscriptionTable)
    (now : Datetime) (record : PaymentRecord) {type : SubscriptionType} {plan : SubscriptionPlan}
    (htype : record.subscriptionType = type.value) (hplan : record.plan = plan.value)
    (hsecret : type = .mcp → settings.MCP_JWT_SECRET ≠ "") :
    ∃ result, activateSubscription settings encode subscriptions now record = .ok result := by
  simp only [activateSubscription, subscriptionType, subscriptionPlan, htype, hplan,
    SubscriptionType.ofValue?_value, SubscriptionPlan.ofValue?_value, bind, Except.bind]
  split_ifs with hmcp
  · simp only [createMcpToken, if_neg (hsecret hmcp)]
    exact ⟨_, rfl⟩
  · exact ⟨_, rfl⟩

/-- An accepted report of a paid charge is handled as one. -/
theorem handleWebhook_complete (encode : JwtEncode) (db : Database) {delivery : Delivery}
    (haccepted : Accepted settings delivery.form)
    (hcomplete : int 10 (delivery.form.payState.getD "0") = some 4) :
    handleWebhook settings encode db delivery =
      handlePaymentComplete settings encode db delivery (delivery.form.rebillNo.getD "")
        delivery.form.mulNo := by
  rw [handleWebhook_accepted haccepted, hcomplete]
  exact if_pos rfl

/-- The first charge of a registration is recorded at the price of its plan, and starts a
period. -/
theorem handlePaymentComplete_first (encode : JwtEncode) {delivery : Delivery} {userId : UUID}
    {type : SubscriptionType} {plan : SubscriptionPlan} {price : ℤ}
    {existing : Option PaymentRecord}
    (hpasses : Passes settings db delivery.form userId type plan price)
    (hexisting : paymentOfRebill db.payments (delivery.form.rebillNo.getD "") = .ok existing)
    (hunpaid : existing.bind (·.paidAt) = none) (hexists : db.users userId = true)
    (hsecret : type = .mcp → settings.MCP_JWT_SECRET ≠ "") :
    ∃ token, handlePaymentComplete settings encode db delivery (delivery.form.rebillNo.getD "")
        delivery.form.mulNo = .ok (.success,
      { db with
        payments := db.payments ++ [paidPeriod
          (newRecord delivery userId type.value plan.value price) delivery.activatedAt]
        subscriptions := setSubscription db.subscriptions userId type
          { isActive := true, isAutoRenew := true, plan, token, startedAt := delivery.activatedAt,
            expiresAt := some (delivery.activatedAt.addDays 31) } }) := by
  obtain ⟨-, -, huser, hparts, dbPlan, hdbPlan, rfl, hprice⟩ := hpasses
  obtain ⟨⟨after, paid⟩, hactivated⟩ := activateSubscription_exists encode db.subscriptions
    delivery.activatedAt (newRecord delivery userId type.value plan.value dbPlan.price) rfl rfl
    hsecret
  have hrecord : recordPayment settings encode db delivery (delivery.form.rebillNo.getD "")
      delivery.form.mulNo userId dbPlan = .ok (.success,
        { db with payments := db.payments ++ [paid], subscriptions := after }) := by
    rw [newRecord] at hactivated
    simp [recordPayment, hparts, subscriptionType, subscriptionPlan, hexists, hactivated, bind,
      Except.bind, pure, Except.pure]
  obtain ⟨type', plan', token, htype, hplan, rfl, rfl⟩ := activateSubscription_ok hactivated
  obtain rfl : type = type' := by simpa [newRecord] using htype
  obtain rfl : plan = plan' := by simpa [newRecord] using hplan
  refine ⟨token, ?_⟩
  rw [handlePaymentComplete_eq hexisting, hunpaid, huser, hdbPlan]
  simp only [Option.isSome_none, Bool.false_eq_true, if_false, if_pos hprice]
  exact hrecord

/-- A report that passes all checks is recorded. -/
theorem Chargeable.recordedFor (encode : JwtEncode) {delivery : Delivery} {userId : UUID}
    {type : SubscriptionType} (h : Chargeable settings db delivery.form userId type) :
    ∃ record, RecordedFor settings delivery db (paymentWebhook settings encode db delivery) userId
      type record := by
  obtain ⟨plan, price, hpasses⟩ := h.passes
  obtain ⟨existing, hexisting, hunpaid⟩ := h.unpaid
  obtain ⟨token, hcomplete⟩ :=
    handlePaymentComplete_first encode hpasses hexisting hunpaid h.user_exists h.secret
  have hafter := handleWebhook_complete encode db hpasses.accepted hpasses.complete
  rw [hcomplete] at hafter
  refine ⟨paidPeriod (newRecord delivery userId type.value plan.value price) delivery.activatedAt,
    h, rfl, rfl, rfl, rfl, ?_⟩
  rw [paymentWebhook, hafter]
  exact ⟨_, rfl⟩

/-- The reports of paid charges that change anything are those that pass all checks. -/
theorem exists_chargeable_iff (encode : JwtEncode) {delivery : Delivery}
    (hstate : int 10 (delivery.form.payState.getD "0") = some 4) :
    (∃ userId type, Chargeable settings db delivery.form userId type) ↔
      paymentWebhook settings encode db delivery ≠ db := by
  constructor
  · rintro ⟨userId, type, h⟩ hsame
    obtain ⟨record, hrecorded⟩ := h.recordedFor encode
    obtain ⟨sub, hafter⟩ := hrecorded.after_eq
    have hlength := congrArg (fun db : Database => db.payments.length) (hsame.symm.trans hafter)
    simp at hlength
  · intro hchanged
    rcases paymentWebhook_complete settings encode db hstate with
      hsame | ⟨userId, type, record, hrecorded⟩
    · exact absurd hsame hchanged
    · exact ⟨userId, type, hrecorded.chargeable⟩

theorem handleWebhook_charge (charge : Charge settings users plans) :
    handleWebhook settings encode db charge.delivery =
      handlePaymentComplete settings encode db charge.delivery charge.rebillNo
        (some charge.mulNo) := by
  rw [handleWebhook_complete encode db ⟨charge.configured, charge.verified⟩ charge.paid,
    charge.rebillNo_eq, charge.mulNo_eq]
  rfl

theorem Charge.newRecord_eq (charge : Charge settings users plans) :
    charge.newRecord = Payments.newRecord charge.delivery charge.user charge.type.value
      charge.plan.value charge.offered.price := by
  simp only [Charge.newRecord, Payments.newRecord, charge.mulNo_eq, charge.rebillNo_eq,
    Option.getD_some]

/-- The report of a charge passes the checks. -/
theorem Charge.passes (charge : Charge settings db.users db.plans) :
    Passes settings db charge.delivery.form charge.user charge.type charge.plan
      charge.offered.price where
  accepted := ⟨charge.configured, charge.verified⟩
  complete := charge.paid
  user := charge.user_eq
  plan := by rw [charge.planKey_eq, Option.getD_some, planParts_planKey]
  priced := ⟨charge.offered, by rw [charge.planKey_eq, Option.getD_some, charge.offered_eq], rfl,
    charge.price_eq⟩

/-- The first report of a registration records its charge and starts a period. -/
theorem paymentWebhook_first (encode : JwtEncode) (charge : Charge settings db.users db.plans)
    (hnone : paymentOfRebill db.payments charge.rebillNo = .ok none) :
    ∃ token, paymentWebhook settings encode db charge.delivery =
      { db with
        payments := db.payments ++ [charge.record]
        subscriptions :=
          setSubscription db.subscriptions charge.user charge.type (charge.period token) } := by
  have hrebillNo : charge.delivery.form.rebillNo.getD "" = charge.rebillNo := by
    rw [charge.rebillNo_eq, Option.getD_some]
  obtain ⟨token, hcomplete⟩ := handlePaymentComplete_first encode charge.passes
    (hrebillNo ▸ hnone) rfl charge.user_exists charge.secret
  refine ⟨token, ?_⟩
  rw [paymentWebhook, handleWebhook_complete encode db ⟨charge.configured, charge.verified⟩
    charge.paid, hcomplete, ← charge.newRecord_eq]
  rfl

/-- A report of a registration with a paid record is dropped. -/
theorem paymentWebhook_repeated (charge : Charge settings db.users db.plans)
    {record : PaymentRecord}
    (hrecord : paymentOfRebill db.payments charge.rebillNo = .ok (some record))
    (hpaid : record.paidAt.isSome) :
    paymentWebhook settings encode db charge.delivery = db := by
  rw [paymentWebhook, handleWebhook_charge]
  simp [handlePaymentComplete, hrecord, hpaid, bind, Except.bind, pure, Except.pure]

/-! ## Sequences of reports -/

/-- The database after a sequence of reports, handled one after another. -/
def deliverAll (settings : Settings) (encode : JwtEncode) (db : Database)
    (charges : List (Charge settings users plans)) : Database :=
  charges.foldl (fun db charge => paymentWebhook settings encode db charge.delivery) db

@[simp] theorem deliverAll_nil :
    deliverAll settings encode db ([] : List (Charge settings users plans)) = db := rfl

theorem deliverAll_concat (charges : List (Charge settings users plans))
    (charge : Charge settings users plans) :
    deliverAll settings encode db (charges ++ [charge]) =
      paymentWebhook settings encode (deliverAll settings encode db charges) charge.delivery := by
  simp [deliverAll]

/-- What holds after a sequence of reports: the records are those of the first charge reported
of every registration. -/
structure Recorded (charges : List (Charge settings users plans)) (db : Database) : Prop where
  users_eq : db.users = users
  plans_eq : db.plans = plans
  payments_eq : db.payments = (firstOfKey (·.rebillNo) charges).map Charge.record

/-- The record of a registration is that of its first charge. -/
theorem paymentOfRebill_recorded {charges : List (Charge settings users plans)}
    (h : Recorded charges db) (rebillNo : String) :
    (rebillNo ∉ charges.map (·.rebillNo) ∧ paymentOfRebill db.payments rebillNo = .ok none) ∨
      ∃ charge ∈ charges, charge.rebillNo = rebillNo ∧
        paymentOfRebill db.payments rebillNo = .ok (some charge.record) := by
  have hfilter : recordsOf db.payments rebillNo =
      ((firstOfKey (·.rebillNo) charges).filter fun charge => charge.rebillNo = rebillNo).map
        Charge.record := by
    rw [recordsOf, h.payments_eq, List.filter_map]
    congr 2
    funext charge
    simp [Charge.record, Charge.newRecord, paidPeriod]
  by_cases hmem : rebillNo ∈ charges.map (·.rebillNo)
  · right
    obtain ⟨charge, hcharge, rfl⟩ := List.mem_map.mp (mem_map_firstOfKey.mpr hmem)
    refine ⟨charge, mem_of_mem_firstOfKey hcharge, rfl, ?_⟩
    have hone := filter_key_of_nodup nodup_map_firstOfKey hcharge
    simp only [paymentOfRebill, hfilter, hone, List.map_cons, List.map_nil]
  · left
    refine ⟨hmem, ?_⟩
    have hnone : (firstOfKey (·.rebillNo) charges).filter
        (fun charge => charge.rebillNo = rebillNo) = [] := by
      rw [List.filter_eq_nil_iff]
      intro charge hcharge heq
      exact hmem (of_decide_eq_true heq ▸ List.mem_map_of_mem (mem_of_mem_firstOfKey hcharge))
    simp only [paymentOfRebill, hfilter, hnone, List.map_nil]

/-- One more report: it is dropped if its registration has been reported before, and else
recorded. -/
theorem Recorded.step {charges : List (Charge settings users plans)} (h : Recorded charges db)
    (charge : Charge settings users plans) :
    Recorded (charges ++ [charge]) (paymentWebhook settings encode db charge.delivery) ∧
      (charge.rebillNo ∉ charges.map (·.rebillNo) → ∃ token,
        (paymentWebhook settings encode db charge.delivery).subscriptions charge.user charge.type =
          some (charge.period token)) := by
  obtain ⟨rfl, rfl, hpayments⟩ := h
  rcases paymentOfRebill_recorded ⟨rfl, rfl, hpayments⟩ charge.rebillNo with
    ⟨hnew, hnone⟩ | ⟨first, hfirst, hsame, hrecord⟩
  · obtain ⟨token, hafter⟩ := paymentWebhook_first encode charge hnone
    rw [hafter]
    refine ⟨⟨rfl, rfl, ?_⟩, fun _ => ⟨token, setSubscription_self _ _ _ _⟩⟩
    rw [firstOfKey_concat, if_neg (mem_map_firstOfKey.not.mpr hnew), List.map_append, ← hpayments]
    rfl
  · have hseen : charge.rebillNo ∈ charges.map (·.rebillNo) := hsame ▸ List.mem_map_of_mem hfirst
    rw [paymentWebhook_repeated charge hrecord rfl]
    refine ⟨⟨rfl, rfl, ?_⟩, fun hnew => absurd hseen hnew⟩
    rw [firstOfKey_concat, if_pos (mem_map_firstOfKey.mpr hseen)]
    exact hpayments

/-- From a database without payments, the records are those of the first charge reported of
every registration. -/
theorem payments_deliverAll (encode : JwtEncode) (hempty : db.payments = [])
    (charges : List (Charge settings db.users db.plans)) :
    Recorded charges (deliverAll settings encode db charges) := by
  induction charges using List.reverseRecOn with
  | nil => exact ⟨rfl, rfl, hempty⟩
  | append_singleton charges charge ih =>
    rw [deliverAll_concat]
    exact (ih.step charge).1

/-- The first charge reported of a registration starts a period. -/
theorem subscriptions_deliverAll (encode : JwtEncode) (hempty : db.payments = [])
    {charges : List (Charge settings db.users db.plans)}
    {charge : Charge settings db.users db.plans}
    (hnew : charge.rebillNo ∉ charges.map (·.rebillNo)) :
    ∃ token, (deliverAll settings encode db (charges ++ [charge])).subscriptions charge.user
      charge.type = some (charge.period token) := by
  rw [deliverAll_concat]
  exact ((payments_deliverAll encode hempty charges).step charge).2 hnew

/-! ## One record for each charge -/

/-- Every charge has exactly one record, there are no other records, and the first report of a
charge makes its subscription active for 31 days from the instant it is processed. -/
structure ChargedOnce (encode : JwtEncode) (db : Database)
    (charges : List (Charge settings users plans)) : Prop where
  recorded : ∀ mulNo ∈ charges.map (·.mulNo),
    (deliverAll settings encode db charges).payments.countP
      (fun record => record.mulNo = some mulNo) = 1
  only : ∀ record ∈ (deliverAll settings encode db charges).payments,
    ∃ mulNo ∈ charges.map (·.mulNo), record.mulNo = some mulNo
  activated : ∀ before charge after, charges = before ++ charge :: after →
    charge.mulNo ∉ before.map (·.mulNo) → ∃ sub,
      (deliverAll settings encode db (before ++ [charge])).subscriptions charge.user charge.type =
        some sub ∧
      sub.isActive = true ∧ sub.expiresAt = some (charge.delivery.activatedAt.addDays 31)

theorem countP_mulNo (charges : List (Charge settings users plans)) (mulNo : String) :
    (charges.map Charge.record).countP (fun record => record.mulNo = some mulNo) =
      (charges.map (·.mulNo)).count mulNo := by
  rw [List.countP_map, List.count, List.countP_map]
  congr 1
  funext charge
  simp only [Function.comp_apply, Charge.record, Charge.newRecord, paidPeriod, Option.some.injEq]
  rfl

/-- Charges are recorded exactly once if and only if no registration is charged twice. -/
theorem chargedOnce_iff (hempty : db.payments = [])
    (charges : List (Charge settings db.users db.plans))
    (hcharge : ∀ c ∈ charges, ∀ c' ∈ charges, c.mulNo = c'.mulNo → c.rebillNo = c'.rebillNo) :
    ChargedOnce encode db charges ↔
      ∀ c ∈ charges, ∀ c' ∈ charges, c.rebillNo = c'.rebillNo → c.mulNo = c'.mulNo := by
  have hrecorded := payments_deliverAll encode hempty charges
  have hiff := count_map_firstOfKey_iff hcharge
  constructor
  · intro h
    rw [← hiff]
    intro mulNo hmulNo
    rw [← countP_mulNo, ← hrecorded.payments_eq]
    exact h.recorded mulNo hmulNo
  · intro h
    refine ⟨?_, ?_, ?_⟩
    · intro mulNo hmulNo
      rw [hrecorded.payments_eq, countP_mulNo]
      exact hiff.mpr h mulNo hmulNo
    · intro record hrecord
      rw [hrecorded.payments_eq] at hrecord
      obtain ⟨charge, hmem, rfl⟩ := List.mem_map.mp hrecord
      exact ⟨charge.mulNo, List.mem_map_of_mem (mem_of_mem_firstOfKey hmem), rfl⟩
    · rintro before charge after rfl hfirst
      -- The first report of a charge is the first of its registration.
      have hnew : charge.rebillNo ∉ before.map (·.rebillNo) := by
        intro hseen
        obtain ⟨earlier, hearlier, hsame⟩ := List.mem_map.mp hseen
        have hmul := h earlier (by simp [hearlier]) charge (by simp) hsame
        exact hfirst (hmul ▸ List.mem_map_of_mem hearlier)
      obtain ⟨token, hrow⟩ := subscriptions_deliverAll encode hempty hnew
      exact ⟨charge.period token, hrow, rfl, rfl⟩

/-! ### A shop with one plan -/

/-- The settings of a shop. -/
def shop : Settings where
  MCP_JWT_SECRET := "secret"
  MCP_TOKEN_EXPIRE_DAYS := 365
  PAYAPP_USERID := some "shop"
  PAYAPP_LINKKEY := some "key"
  PAYAPP_LINKVAL := some "val"
  PAYAPP_CALLBACK_URL := "http://localhost:8000/api/v1/payments/webhook"
  FRONTEND_URL := "http://localhost:3000"

/-- A shop that sells one plan, before its first payment. -/
def newShop : Database where
  users _ := true
  plans id := if id = "logit:lite" then some ⟨"logit:lite", "Logit Lite 구독", 6900, true⟩ else none
  payments := []
  subscriptions _ _ := none

/-- A stand-in for the signature of tokens; the plan has none. -/
def unsigned : JwtEncode := fun _ secret => secret

/-- The answer to a call that succeeds. -/
def accepted : PayAppAnswer := .ok ⟨some "1", none, none, none, none⟩

theorem compareDigest_self {text : String} (h : text.toList.all (·.toNat < 128)) :
    compareDigest text text = .ok true := by
  simp_all [compareDigest]

theorem shop_configured :
    isSet shop.PAYAPP_USERID ∧ isSet shop.PAYAPP_LINKKEY ∧ isSet shop.PAYAPP_LINKVAL := by decide

theorem verifyWebhook_shop {form : WebhookForm} (huserid : form.userid = some "shop")
    (hlinkkey : form.linkkey = some "key") (hlinkval : form.linkval = some "val") :
    verifyWebhook shop form = .ok true := by
  simp [verifyWebhook, shop, huserid, hlinkkey, hlinkval,
    compareDigest_self (by decide : "shop".toList.all (·.toNat < 128)),
    compareDigest_self (by decide : "key".toList.all (·.toNat < 128)),
    compareDigest_self (by decide : "val".toList.all (·.toNat < 128)), bind, Except.bind]

/-- A report to the shop of a charge of the plan to one user. -/
def liteItems (rebillNo mulNo : String) : List (String × String) :=
  [("userid", "shop"), ("linkkey", "key"), ("linkval", "val"), ("rebill_no", rebillNo),
    ("mul_no", mulNo), ("pay_state", "4"), ("price", "6900"),
    ("var1", "00000000-0000-0000-0000-000000000007"), ("var2", "logit:lite")]

theorem nodup_liteItems (rebillNo mulNo : String) :
    ((liteItems rebillNo mulNo).map Prod.fst).Nodup := by
  change ["userid", "linkkey", "linkval", "rebill_no", "mul_no", "pay_state", "price", "var1",
    "var2"].Nodup
  decide

/-- A charge of the plan to one user, reported at an instant. -/
def liteCharge (rebillNo mulNo : String) (now : Datetime) :
    Charge shop newShop.users newShop.plans where
  delivery :=
    { form := ⟨liteItems rebillNo mulNo, nodup_liteItems rebillNo mulNo⟩
      recordId := 1, paidAt := now, activatedAt := now }
  rebillNo := rebillNo
  mulNo := mulNo
  user := 7
  type := .logit
  plan := .lite
  offered := ⟨"logit:lite", "Logit Lite 구독", 6900, true⟩
  configured := shop_configured
  verified := verifyWebhook_shop rfl rfl rfl
  paid := (by decide : int 10 "4" = some 4)
  rebillNo_eq := rfl
  mulNo_eq := rfl
  user_eq := (by decide +kernel : UUID.parse "00000000-0000-0000-0000-000000000007" = some 7)
  user_exists := rfl
  planKey_eq := rfl
  offered_eq := by decide
  price_eq := (by decide : int 10 "6900" = some 6900)
  secret := by decide

/-- A first charge that is reported twice. -/
def retriedCharge : List (Charge shop newShop.users newShop.plans) :=
  [liteCharge "R1" "M1" (.utc 2026 1 10 9), liteCharge "R1" "M1" (.utc 2026 1 10 10)]

theorem chargedOnce_iff_retried : ChargedOnce unsigned newShop retriedCharge :=
  (chargedOnce_iff rfl retriedCharge (by simp [retriedCharge, liteCharge])).mpr
    (by simp [retriedCharge, liteCharge])

/-- A first charge, and the next month's. -/
def renewedCharge : List (Charge shop newShop.users newShop.plans) :=
  [liteCharge "R1" "M1" (.utc 2026 1 10 9), liteCharge "R1" "M2" (.utc 2026 2 10 9)]

/-- The second monthly charge of a registration is not recorded. -/
theorem not_chargedOnce :
    ¬ ∀ (settings : Settings) (encode : JwtEncode) (db : Database)
      (charges : List (Charge settings db.users db.plans)), db.payments = [] →
      (∀ c ∈ charges, ∀ c' ∈ charges, c.mulNo = c'.mulNo → c.rebillNo = c'.rebillNo) →
      ChargedOnce encode db charges := by
  intro h
  have honce := h shop unsigned newShop renewedCharge rfl
    (by simp [renewedCharge, liteCharge])
  have hcount := honce.recorded "M2" (by simp [renewedCharge, liteCharge])
  rw [(payments_deliverAll _ rfl renewedCharge).payments_eq, countP_mulNo] at hcount
  revert hcount
  decide

end Logit.Payments
