import Logit.Concurrency.Pool
import Logit.Payments.Charges
import Logit.Payments.Registration

/-!
# Cancelling all payments

Payments are registered with PayApp, reports of paid charges arrive for registrations, and
users cancel. Starting a payment looks only at the subscription, and a cancellation cancels
only the registration paid last, so a user who pays for two registrations of one
subscription is left with one that nobody cancels. While no charge is paid beside another
that still runs, a cancellation that returns leaves nothing that charges the user.

## Main definitions

* `Billing` — the database, and what PayApp knows
* `Billing.Step` — a registration, a report, or a step of a cancellation
* `PaidAlone` — a report that is recorded adds no payment beside one that still runs

## Main results

* `initiatePayment_step`, `cancelSubscription_steps` — whole calls as steps
* `allStopped_of_returned` — after a cancellation all paid registrations have been cancelled
-/

namespace Logit.Payments

open Calendar Concurrency Python Schedule Security Subscriptions

/-! ## Runs -/

/-- A payment registered with PayApp. -/
structure Registration where
  rebillNo : String
  request : RebillRequest
  deriving DecidableEq, Repr

/-- A cancellation under way: it has looked up a registration, and PayApp may have confirmed
that it is cancelled. -/
structure Cancelling where
  userId : UUID
  type : SubscriptionType
  rebillNo : String
  confirmed : Bool
  deriving DecidableEq, Repr

/-- The database, and what PayApp knows. -/
structure Billing where
  db : Database
  registered : List Registration
  /-- The registrations PayApp has confirmed to be cancelled. -/
  cancelled : List String
  underWay : List Cancelling

/-- Nothing has been registered. -/
def Billing.start (db : Database) : Billing := ⟨db, [], [], []⟩

/-- What a step is seen as. -/
inductive Event
  | silent
  /-- A cancellation returns. -/
  | returned (userId : UUID) (type : SubscriptionType)
  deriving DecidableEq, Repr

/-- A report of a paid charge of a registration. -/
structure Reports (b : Billing) (delivery : Delivery) : Prop where
  complete : int 10 (delivery.form.payState.getD "0") = some 4
  registered : ∃ registration ∈ b.registered,
    delivery.form.rebillNo = some registration.rebillNo ∧
      delivery.form.var1 = some registration.request.userId ∧
      delivery.form.var2 = some registration.request.planKey

/-- The database with a subscription that is not renewed. -/
def Database.stopRenewal (db : Database) (userId : UUID) (type : SubscriptionType) : Database :=
  { db with subscriptions := Payments.stopRenewal db.subscriptions userId type }

variable (settings : Settings) (encode : JwtEncode) (guard : Billing → Delivery → Prop)

/-- A step of a run: a payment is registered, a report is handled if the guard lets it through,
or a cancellation looks up, asks PayApp, fails or returns. -/
inductive Billing.Step : Billing → Event → Billing → Prop
  /-- PayApp registers a payment under a new number; what the request has read of the database
  may have changed since. -/
  | register {b : Billing} {seen : Database} {now : Datetime} {userId : UUID}
      {req : PaymentInitiateRequest} {request : RebillRequest} {rebillNo : String}
      (hrequest : initiateRequest settings seen now userId req = .ok request)
      (hnew : ∀ registration ∈ b.registered, registration.rebillNo ≠ rebillNo) :
      Step b .silent { b with registered := ⟨rebillNo, request⟩ :: b.registered }
  | complete {b : Billing} {delivery : Delivery} (hreports : Reports b delivery)
      (hguard : guard b delivery) :
      Step b .silent { b with db := paymentWebhook settings encode b.db delivery }
  | lookUp {b : Billing} {last : Option PaymentRecord} {userId : UUID} {type : SubscriptionType}
      {rebillNo : String} (hlast : LastPayment b.db.payments userId type last)
      (htarget : cancelTarget settings b.db last userId type = .ok (some rebillNo)) :
      Step b .silent { b with underWay := ⟨userId, type, rebillNo, false⟩ :: b.underWay }
  | confirm {b : Billing} {before after : List Cancelling} {c : Cancelling} {answer : PayAppAnswer}
      (hunderWay : b.underWay = before ++ c :: after) (hopen : c.confirmed = false)
      (hanswer : cancelAnswered answer = .ok ()) :
      Step b .silent { b with
        cancelled := c.rebillNo :: b.cancelled
        underWay := before ++ { c with confirmed := true } :: after }
  | refuse {b : Billing} {before after : List Cancelling} {c : Cancelling} {answer : PayAppAnswer}
      {error : PaymentError} (hunderWay : b.underWay = before ++ c :: after)
      (hopen : c.confirmed = false) (hanswer : cancelAnswered answer = .error error) :
      Step b .silent { b with underWay := before ++ after }
  | finish {b : Billing} {before after : List Cancelling} {c : Cancelling}
      (hunderWay : b.underWay = before ++ c :: after) (hconfirmed : c.confirmed = true) :
      Step b (.returned c.userId c.type)
        { b with db := b.db.stopRenewal c.userId c.type, underWay := before ++ after }

/-- The states reached in runs whose reports the guard lets through. -/
inductive Billing.Reachable (db : Database) : Billing → Prop
  | start : Reachable db (.start db)
  | step {b b' : Billing} {event : Event} (h : Reachable db b)
      (hstep : Step settings encode guard b event b') : Reachable db b'

/-! ### Whole calls -/

variable {settings encode guard} {b b' : Billing} {event : Event}

/-- A call that starts a payment registers it. -/
theorem initiatePayment_step {registerRebill : RebillRequest → PayAppAnswer} {now : Datetime}
    {userId : UUID} {req : PaymentInitiateRequest} {response : PaymentInitiateResponse}
    (h : initiatePayment settings registerRebill b.db now userId req = .ok response)
    (hnew : ∀ registration ∈ b.registered, registration.rebillNo ≠ response.rebillNo) :
    ∃ request, b.Step settings encode guard .silent
      { b with registered := ⟨response.rebillNo, request⟩ :: b.registered } := by
  obtain ⟨request, hrequest, -⟩ := bind_eq_ok.mp h
  exact ⟨request, .register hrequest hnew⟩

/-- A call that cancels a subscription, with nothing in between, is three steps. -/
theorem cancelSubscription_steps (encode : JwtEncode) (guard : Billing → Delivery → Prop)
    {cancelRebill : String → PayAppAnswer}
    {last : Option PaymentRecord} {userId : UUID} {type : SubscriptionType} {after : Database}
    (hlast : LastPayment b.db.payments userId type last)
    (hconfigured : isSet settings.PAYAPP_USERID ∧ isSet settings.PAYAPP_LINKKEY)
    (h : cancelSubscription settings cancelRebill b.db last userId type = .ok after) :
    ∃ b₁ b₂ rebillNo, last.bind (·.rebillNo) = some rebillNo ∧
      b.Step settings encode guard .silent b₁ ∧
      b₁.Step settings encode guard .silent b₂ ∧
      b₂.Step settings encode guard (.returned userId type)
        { b with db := after, cancelled := rebillNo :: b.cancelled } := by
  obtain ⟨target, htarget, h⟩ := bind_eq_ok.mp h
  cases target with
  | none => exact absurd htarget (cancelTarget_ne_none hconfigured)
  | some rebillNo =>
    obtain ⟨_, hanswer, h⟩ := bind_eq_ok.mp h
    obtain rfl := pure_eq_ok.mp h
    let c : Cancelling := ⟨userId, type, rebillNo, false⟩
    have hlookUp : b.Step settings encode guard .silent { b with underWay := c :: b.underWay } :=
      .lookUp hlast htarget
    have hconfirm : Billing.Step settings encode guard { b with underWay := c :: b.underWay }
        .silent { b with
          cancelled := rebillNo :: b.cancelled
          underWay := { c with confirmed := true } :: b.underWay } :=
      .confirm (b := { b with underWay := c :: b.underWay }) (c := c)
        (show c :: b.underWay = [] ++ c :: b.underWay from rfl) rfl hanswer
    obtain ⟨record, hlastRecord, hrebillNo⟩ := cancelTarget_some htarget
    refine ⟨_, _, rebillNo, by simp [hlastRecord, hrebillNo], hlookUp, hconfirm,
      .finish (b := { b with
          cancelled := rebillNo :: b.cancelled
          underWay := { c with confirmed := true } :: b.underWay })
        (c := { c with confirmed := true })
        (show _ = [] ++ { c with confirmed := true } :: b.underWay from rfl) rfl⟩

/-! ## Payments beside one another -/

/-- The registration of a payment has been cancelled. -/
def Stopped (cancelled : List String) (record : PaymentRecord) : Prop :=
  ∀ rebillNo, record.rebillNo = some rebillNo → rebillNo ∈ cancelled

/-- Everything a user has paid for a subscription of a type has been cancelled. -/
def AllStopped (b : Billing) (userId : UUID) (type : SubscriptionType) : Prop :=
  ∀ record ∈ b.db.payments, PaidFor userId type record → Stopped b.cancelled record

/-- A report that is recorded finds the earlier payments for its subscription cancelled, paid
before it, and no cancellation under way. -/
def PaidAlone (settings : Settings) (b : Billing) (delivery : Delivery) : Prop :=
  ∀ userId type, Chargeable settings b.db delivery.form userId type →
    AllStopped b userId type ∧
    (∀ record ∈ b.db.payments, PaidFor userId type record →
      ∀ paidAt ∈ record.paidAt, paidAt < delivery.paidAt) ∧
    ∀ c ∈ b.underWay, ¬ (c.userId = userId ∧ c.type = type)

/-- A payment has been cancelled, or belongs to a registration. -/
def CoveredBy (cancelled : List String) (rebillNo : Option String) (record : PaymentRecord) :
    Prop :=
  Stopped cancelled record ∨ record.rebillNo = rebillNo

theorem CoveredBy.cons {cancelled : List String} {rebillNo : Option String}
    {record : PaymentRecord} (h : CoveredBy cancelled rebillNo record) (more : String) :
    CoveredBy (more :: cancelled) rebillNo record :=
  h.imp_left fun hstopped number hnumber => List.mem_cons_of_mem _ (hstopped number hnumber)

/-- What holds in a run in which payments are paid alone: only the registration paid last may
still run, and a cancellation under way is about it. -/
structure OneRunning (b : Billing) : Prop where
  /-- Payments not later than another have been cancelled, or are of its registration. -/
  payments : ∀ userId type, ∀ record ∈ b.db.payments, PaidFor userId type record →
    ∀ other ∈ b.db.payments, PaidFor userId type other →
      (∀ paidAt ∈ record.paidAt, ∀ earlier ∈ other.paidAt, earlier ≤ paidAt) →
        CoveredBy b.cancelled record.rebillNo other
  underWay : ∀ c ∈ b.underWay, ∀ record ∈ b.db.payments, PaidFor c.userId c.type record →
    CoveredBy b.cancelled (some c.rebillNo) record
  confirmed : ∀ c ∈ b.underWay, c.confirmed = true → c.rebillNo ∈ b.cancelled

namespace OneRunning

theorem start {db : Database} (hempty : db.payments = []) : OneRunning (.start db) := by
  refine ⟨?_, nofun, nofun⟩
  intro userId type record hrecord
  rw [Billing.start, hempty] at hrecord
  cases hrecord

/-- A new payment, paid after all the others have been cancelled. -/
theorem recorded {delivery : Delivery} {after : Database} {userId : UUID}
    {type : SubscriptionType} {record : PaymentRecord} (h : OneRunning b)
    (hrecorded : RecordedFor settings delivery b.db after userId type record)
    (hstopped : AllStopped b userId type)
    (hlater : ∀ record ∈ b.db.payments, PaidFor userId type record →
      ∀ paidAt ∈ record.paidAt, paidAt < delivery.paidAt)
    (hnone : ∀ c ∈ b.underWay, ¬ (c.userId = userId ∧ c.type = type)) :
    OneRunning { b with db := after } := by
  obtain ⟨sub, rfl⟩ := hrecorded.after_eq
  have hown : ∀ user ty, PaidFor user ty record → user = userId ∧ ty = type := by
    rintro user ty ⟨huser, htype, -⟩
    rw [hrecorded.userId_eq] at huser
    rw [hrecorded.type_eq] at htype
    refine ⟨huser.symm, ?_⟩
    have hvalue := SubscriptionType.ofValue?_value ty
    rw [← htype, SubscriptionType.ofValue?_value] at hvalue
    exact (Option.some.inj hvalue).symm
  refine ⟨?_, ?_, h.confirmed⟩
  · intro user ty paid hpaid hfor other hother hforOther hle
    rcases List.mem_append.mp hpaid with hold | hnew
    · rcases List.mem_append.mp hother with holdOther | hnewOther
      · exact h.payments user ty paid hold hfor other holdOther hforOther hle
      · -- An earlier payment is not later than the new one.
        obtain rfl := List.mem_singleton.mp hnewOther
        obtain ⟨rfl, rfl⟩ := hown user ty hforOther
        obtain ⟨paidAt, hpaidAt⟩ := Option.isSome_iff_exists.mp hfor.2.2
        have hlt := hlater paid hold hfor paidAt hpaidAt
        exact absurd (hle paidAt hpaidAt _ hrecorded.paidAt_eq) (not_le.mpr hlt)
    · obtain rfl := List.mem_singleton.mp hnew
      obtain ⟨rfl, rfl⟩ := hown user ty hfor
      rcases List.mem_append.mp hother with holdOther | hnewOther
      · exact .inl (hstopped other holdOther hforOther)
      · obtain rfl := List.mem_singleton.mp hnewOther
        exact .inr rfl
  · intro c hc paid hpaid hfor
    rcases List.mem_append.mp hpaid with hold | hnew
    · exact h.underWay c hc paid hold hfor
    · obtain rfl := List.mem_singleton.mp hnew
      exact absurd (hown _ _ hfor) (hnone c hc)

/-- A report in a run in which payments are paid alone. -/
theorem complete {delivery : Delivery} (h : OneRunning b)
    (hreports : Reports b delivery) (hguard : PaidAlone settings b delivery) :
    OneRunning { b with db := paymentWebhook settings encode b.db delivery } := by
  rcases paymentWebhook_complete settings encode b.db hreports.complete with
    hunchanged | ⟨userId, type, record, hrecorded⟩
  · rw [hunchanged]
    exact h
  · obtain ⟨hstopped, hlater, hnone⟩ := hguard userId type hrecorded.chargeable
    exact h.recorded hrecorded hstopped hlater hnone

/-- A cancellation looks up the registration paid last. -/
theorem lookUp {last : Option PaymentRecord} {userId : UUID} {type : SubscriptionType}
    {rebillNo : String} (h : OneRunning b) (hlast : LastPayment b.db.payments userId type last)
    (htarget : cancelTarget settings b.db last userId type = .ok (some rebillNo)) :
    OneRunning { b with underWay := ⟨userId, type, rebillNo, false⟩ :: b.underWay } := by
  obtain ⟨record, rfl, hrebillNo⟩ := cancelTarget_some htarget
  obtain ⟨hrecord, hfor, hlatest⟩ := hlast
  refine ⟨h.payments, ?_, ?_⟩
  · intro c hc other hother hforOther
    rcases List.mem_cons.mp hc with rfl | hc
    -- No payment is later than the one found, so all others are cancelled or of its registration.
    · have hcovered := h.payments userId type record hrecord hfor other hother hforOther
        fun paidAt hpaidAt => hlatest other hother hforOther paidAt hpaidAt
      rwa [hrebillNo] at hcovered
    · exact h.underWay c hc other hother hforOther
  · intro c hc hconfirmed
    rcases List.mem_cons.mp hc with rfl | hc
    · cases hconfirmed
    · exact h.confirmed c hc hconfirmed

/-- PayApp confirms that a registration is cancelled. -/
theorem confirm {before after : List Cancelling} {c : Cancelling} (h : OneRunning b)
    (hunderWay : b.underWay = before ++ c :: after) :
    OneRunning { b with
      cancelled := c.rebillNo :: b.cancelled
      underWay := before ++ { c with confirmed := true } :: after } := by
  have hcovers := h.underWay
  have hconfirmed := h.confirmed
  rw [hunderWay] at hcovers hconfirmed
  refine ⟨?_, forall_mem_middle hcovers ?_ ?_, forall_mem_middle hconfirmed ?_ ?_⟩
  · intro user ty record hrecord hfor other hother hforOther hle
    exact (h.payments user ty record hrecord hfor other hother hforOther hle).cons _
  · exact fun c' _ hcovered record hrecord hfor => (hcovered record hrecord hfor).cons _
  · exact fun hcovered record hrecord hfor => (hcovered record hrecord hfor).cons _
  · exact fun c' _ hconfirmed hc' => List.mem_cons_of_mem _ (hconfirmed hc')
  · exact fun _ _ => List.mem_cons_self

/-- A cancellation that is over. -/
theorem remove {before after : List Cancelling} {c : Cancelling} (h : OneRunning b)
    (hunderWay : b.underWay = before ++ c :: after) :
    OneRunning { b with underWay := before ++ after } := by
  have hmem : ∀ c ∈ before ++ after, c ∈ b.underWay := by
    intro c' hc'
    rw [hunderWay]
    exact List.mem_append.mpr ((List.mem_append.mp hc').imp_right (List.mem_cons_of_mem c))
  exact ⟨h.payments, fun c hc => h.underWay c (hmem c hc), fun c hc => h.confirmed c (hmem c hc)⟩

/-- One step of a run in which payments are paid alone. -/
theorem step (h : OneRunning b)
    (hstep : b.Step settings encode (PaidAlone settings) event b') :
    OneRunning b' := by
  cases hstep with
  | register hrequest hnew => exact ⟨h.payments, h.underWay, h.confirmed⟩
  | complete hreports hguard => exact h.complete hreports hguard
  | lookUp hlast htarget => exact h.lookUp hlast htarget
  | confirm hunderWay hopen hanswer => exact h.confirm hunderWay
  | refuse hunderWay hopen hanswer => exact h.remove hunderWay
  | finish hunderWay hconfirmed =>
    obtain ⟨hpayments, hothers, hconfirms⟩ := h.remove hunderWay
    exact ⟨hpayments, hothers, hconfirms⟩

end OneRunning

theorem oneRunning_of_reachable {db : Database} (hempty : db.payments = [])
    (h : Billing.Reachable settings encode (PaidAlone settings) db b) : OneRunning b := by
  -- By induction on the run; every step keeps one registration running at most.
  induction h with
  | start => exact OneRunning.start hempty
  | step _ hstep ih => exact ih.step hstep

/-- In a run in which payments are paid alone, when a cancellation returns, every registration
the user has paid for a subscription of the type has been cancelled. -/
theorem allStopped_of_returned {db : Database} (hempty : db.payments = [])
    (h : Billing.Reachable settings encode (PaidAlone settings) db b) {userId : UUID}
    {type : SubscriptionType}
    (hstep : b.Step settings encode (PaidAlone settings) (.returned userId type) b') :
    AllStopped b' userId type := by
  have hone := oneRunning_of_reachable hempty h
  cases hstep with
  | finish hunderWay hconfirmed =>
    rename_i before after c
    have hmem : c ∈ b.underWay := hunderWay ▸ List.mem_append_right _ List.mem_cons_self
    intro record hrecord hfor rebillNo hrebillNo
    rcases hone.underWay c hmem record hrecord hfor with hstopped | hsame
    · exact hstopped rebillNo hrebillNo
    · obtain rfl : rebillNo = c.rebillNo := Option.some.inj (hrebillNo.symm.trans hsame)
      exact hone.confirmed c hmem hconfirmed

/-! ### A user who pays twice -/

/-- The registration of the shop's plan. -/
def liteRequest : RebillRequest where
  goodName := "Logit Lite 구독"
  price := 6900
  userId := "00000000-0000-0000-0000-000000000007"
  planKey := "logit:lite"
  feedbackUrl := "http://localhost:8000/api/v1/payments/webhook"
  phone := "01012345678"
  returnUrl := "http://localhost:3000/payment/complete"
  cycleDay := none

theorem initiateRequest_lite : initiateRequest shop newShop (.utc 2026 1 10 8) 7
    ⟨.logit, .lite, "01012345678", rfl⟩ = .ok liteRequest := by
  decide +kernel

/-- The user has registered payments and paid some charges. -/
def paidBilling (numbers : List String) (charges : List (Charge shop newShop.users newShop.plans)) :
    Billing :=
  ⟨deliverAll shop unsigned newShop charges, numbers.map (⟨·, liteRequest⟩), [], []⟩

theorem reachable_lite : Billing.Reachable shop unsigned guard newShop (paidBilling [] []) := .start

theorem register_lite {numbers : List String} {rebillNo : String} (hnew : rebillNo ∉ numbers) :
    (paidBilling numbers []).Step shop unsigned guard .silent
      (paidBilling (rebillNo :: numbers) []) := by
  refine .register initiateRequest_lite ?_
  intro registration hregistration heq
  obtain ⟨number, hnumber, rfl⟩ := List.mem_map.mp hregistration
  exact hnew (heq ▸ hnumber)

theorem complete_lite {numbers : List String} {rebillNo mulNo : String} {now : Datetime}
    {charges : List (Charge shop newShop.users newShop.plans)} (hregistered : rebillNo ∈ numbers)
    (hguard : guard (paidBilling numbers charges) (liteCharge rebillNo mulNo now).delivery) :
    (paidBilling numbers charges).Step shop unsigned guard .silent
      (paidBilling numbers (charges ++ [liteCharge rebillNo mulNo now])) := by
  have hafter : paidBilling numbers (charges ++ [liteCharge rebillNo mulNo now]) =
      { paidBilling numbers charges with
        db := paymentWebhook shop unsigned (paidBilling numbers charges).db
          (liteCharge rebillNo mulNo now).delivery } := by
    simp only [paidBilling, deliverAll_concat]
  rw [hafter]
  refine .complete ⟨(liteCharge rebillNo mulNo now).paid, ?_⟩ hguard
  exact ⟨_, List.mem_map_of_mem hregistered, rfl, rfl, rfl⟩

theorem lastPayment_lite {rebillNo mulNo : String} {now : Datetime}
    {charges : List (Charge shop newShop.users newShop.plans)}
    (hnew : rebillNo ∉ charges.map (·.rebillNo))
    (hearlier : ∀ charge ∈ charges, charge.delivery.paidAt ≤ now) :
    LastPayment (deliverAll shop unsigned newShop
        (charges ++ [liteCharge rebillNo mulNo now])).payments 7 .logit
      (some (liteCharge rebillNo mulNo now).record) := by
  have hkept : firstOfKey (·.rebillNo) (charges ++ [liteCharge rebillNo mulNo now]) =
      firstOfKey (·.rebillNo) charges ++ [liteCharge rebillNo mulNo now] :=
    firstOfKey_concat.trans (if_neg (mem_map_firstOfKey.not.mpr hnew))
  rw [(payments_deliverAll unsigned rfl _).payments_eq, hkept, List.map_append]
  refine ⟨List.mem_append_right _ List.mem_cons_self, ⟨rfl, rfl, rfl⟩, ?_⟩
  intro other hother _ paidAt hpaidAt earlier hearlierAt
  obtain rfl : now = paidAt := Option.some.inj hpaidAt
  rcases List.mem_append.mp hother with hother | hother
  · obtain ⟨charge, hcharge, rfl⟩ := List.mem_map.mp hother
    obtain rfl : charge.delivery.paidAt = earlier := Option.some.inj hearlierAt
    exact hearlier charge (mem_of_mem_firstOfKey hcharge)
  · obtain rfl := List.mem_singleton.mp hother
    obtain rfl : now = earlier := Option.some.inj hearlierAt
    exact le_rfl

/-- The user cancels, and PayApp confirms that the registration paid last is cancelled. -/
theorem cancel_lite (guard : Billing → Delivery → Prop) (numbers : List String)
    (rebillNo mulNo : String) (now : Datetime)
    (charges : List (Charge shop newShop.users newShop.plans))
    (hnew : rebillNo ∉ charges.map (·.rebillNo)) (hne : rebillNo ≠ "")
    (hearlier : ∀ charge ∈ charges, charge.delivery.paidAt ≤ now) :
    let b := paidBilling numbers (charges ++ [liteCharge rebillNo mulNo now])
    ∃ b₁ b₂, b.Step shop unsigned guard .silent b₁ ∧ b₁.Step shop unsigned guard .silent b₂ ∧
      b₂.Step shop unsigned guard (.returned 7 .logit)
        { b with db := b.db.stopRenewal 7 .logit, cancelled := [rebillNo] } := by
  intro b
  obtain ⟨token, hrow⟩ : ∃ token, b.db.subscriptions 7 .logit =
      some ((liteCharge rebillNo mulNo now).period token) :=
    subscriptions_deliverAll unsigned rfl hnew
  have htarget : cancelTarget shop b.db (some (liteCharge rebillNo mulNo now).record) 7 .logit =
      .ok (some rebillNo) := cancelTarget_renewed hrow rfl rfl rfl hne (by decide)
  have hcancel : cancelSubscription shop (fun _ => accepted) b.db
      (some (liteCharge rebillNo mulNo now).record) 7 .logit = .ok (b.db.stopRenewal 7 .logit) := by
    rw [cancelSubscription, htarget]
    rfl
  obtain ⟨b₁, b₂, number, hnumber, hlookUp, hconfirm, hfinish⟩ :=
    cancelSubscription_steps unsigned guard (lastPayment_lite hnew hearlier) (by decide) hcancel
  obtain rfl : rebillNo = number := Option.some.inj hnumber
  exact ⟨b₁, b₂, hlookUp, hconfirm, hfinish⟩

/-- A report of the shop's plan for less than its price. -/
def underpaid : Delivery :=
  let delivery := (liteCharge "R2" "M2" (.utc 2026 1 10 10)).delivery
  { delivery with form := delivery.form.set "price" "100" }

theorem not_chargeable_underpaid {db : Database} (hplans : db.plans = newShop.plans)
    (userId : UUID) (type : SubscriptionType) :
    ¬ Chargeable shop db underpaid.form userId type := by
  intro h
  obtain ⟨plan, price, hpasses⟩ := h.passes
  obtain ⟨dbPlan, hdbPlan, rfl, hprice⟩ := hpasses.priced
  rw [hplans] at hdbPlan
  obtain rfl : (⟨"logit:lite", "Logit Lite 구독", 6900, true⟩ : Plan) = dbPlan :=
    Option.some.inj hdbPlan
  exact absurd hprice (by decide : int 10 "100" ≠ some 6900)

/-- A report that is refused changes nothing. -/
theorem underpaid_lite {numbers : List String}
    {charges : List (Charge shop newShop.users newShop.plans)} (hregistered : "R2" ∈ numbers) :
    (paidBilling numbers charges).Step shop unsigned (PaidAlone shop) .silent
      (paidBilling numbers charges) := by
  have hplans := (payments_deliverAll unsigned rfl charges).plans_eq
  have hcomplete : int 10 (underpaid.form.payState.getD "0") = some 4 :=
    (by decide : int 10 "4" = some 4)
  have hsame : paymentWebhook shop unsigned (paidBilling numbers charges).db underpaid =
      (paidBilling numbers charges).db := by
    by_contra hchanged
    obtain ⟨userId, type, h⟩ := (exists_chargeable_iff unsigned hcomplete).mpr hchanged
    exact not_chargeable_underpaid hplans userId type h
  have hstep : (paidBilling numbers charges).Step shop unsigned (PaidAlone shop) .silent
      { paidBilling numbers charges with
        db := paymentWebhook shop unsigned (paidBilling numbers charges).db underpaid } :=
    .complete ⟨hcomplete, _, List.mem_map_of_mem hregistered, rfl, rfl, rfl⟩
      fun userId type h => absurd h (not_chargeable_underpaid hplans userId type)
  rwa [hsame] at hstep

/-- A user registers two payments and pays for the first, the charge of the second is refused, and
the cancellation leaves nothing that charges the user. -/
theorem allStopped_of_returned_lite : ∃ b b' : Billing,
    b.Step shop unsigned (PaidAlone shop) (.returned 7 .logit) b' ∧
      b'.db.payments.map (·.rebillNo) = [some "R1"] ∧ AllStopped b' 7 .logit := by
  let first := liteCharge "R1" "M1" (.utc 2026 1 10 9)
  have hregister : (paidBilling [] []).Step shop unsigned (PaidAlone shop) .silent
      (paidBilling ["R1"] []) := register_lite List.not_mem_nil
  have hagain : (paidBilling ["R1"] []).Step shop unsigned (PaidAlone shop) .silent
      (paidBilling ["R2", "R1"] []) := register_lite (by decide)
  have halone : PaidAlone shop (paidBilling ["R2", "R1"] []) first.delivery := by
    refine fun _ _ _ => ⟨?_, ?_, ?_⟩
    · exact fun _ hrecord => absurd hrecord List.not_mem_nil
    · exact fun _ hrecord => absurd hrecord List.not_mem_nil
    · exact fun _ hc => absurd hc List.not_mem_nil
  have hpaid : (paidBilling ["R2", "R1"] []).Step shop unsigned (PaidAlone shop) .silent
      (paidBilling ["R2", "R1"] [first]) := complete_lite (by decide) halone
  have hrun := (((reachable_lite.step hregister).step hagain).step hpaid).step
    (underpaid_lite List.mem_cons_self)
  obtain ⟨b₁, b₂, hlookUp, hconfirm, hfinish⟩ := cancel_lite (PaidAlone shop) ["R2", "R1"] "R1"
    "M1" (.utc 2026 1 10 9) [] List.not_mem_nil (by decide)
    fun _ hc => absurd hc List.not_mem_nil
  have hempty : newShop.payments = [] := rfl
  have hstopped := allStopped_of_returned hempty ((hrun.step hlookUp).step hconfirm) hfinish
  refine ⟨_, _, hfinish, ?_, hstopped⟩
  change (deliverAll shop unsigned newShop [first]).payments.map (·.rebillNo) = _
  rw [(payments_deliverAll unsigned rfl _).payments_eq]
  rfl

/-- A user who has started two payments before the first report pays both, and the cancellation
leaves the first registration running. -/
theorem not_allStopped_of_returned :
    ¬ ∀ (settings : Settings) (encode : JwtEncode) (db : Database) (b b' : Billing) (userId : UUID)
      (type : SubscriptionType), db.payments = [] →
      Billing.Reachable settings encode (fun _ _ => True) db b →
      b.Step settings encode (fun _ _ => True) (.returned userId type) b' →
      AllStopped b' userId type := by
  intro h
  let first := liteCharge "R1" "M1" (.utc 2026 1 10 9)
  let second := liteCharge "R2" "M2" (.utc 2026 1 10 10)
  have hregister : (paidBilling [] []).Step shop unsigned (fun _ _ => True) .silent
      (paidBilling ["R1"] []) := register_lite List.not_mem_nil
  have hagain : (paidBilling ["R1"] []).Step shop unsigned (fun _ _ => True) .silent
      (paidBilling ["R2", "R1"] []) := register_lite (by decide)
  have hfirst : (paidBilling ["R2", "R1"] []).Step shop unsigned (fun _ _ => True) .silent
      (paidBilling ["R2", "R1"] [first]) := complete_lite (by decide) trivial
  have hsecond : (paidBilling ["R2", "R1"] [first]).Step shop unsigned (fun _ _ => True) .silent
      (paidBilling ["R2", "R1"] ([first] ++ [second])) := complete_lite (by decide) trivial
  have hpaid := (((reachable_lite.step hregister).step hagain).step hfirst).step hsecond
  obtain ⟨b₁, b₂, hlookUp, hconfirm, hfinish⟩ := cancel_lite (fun _ _ => True) ["R2", "R1"]
    "R2" "M2" (.utc 2026 1 10 10) [first] (by decide) (by decide) (by decide)
  have hstopped := h shop unsigned newShop _ _ 7 .logit rfl
    ((hpaid.step hlookUp).step hconfirm) hfinish
  have hrecord :
      first.record ∈ (deliverAll shop unsigned newShop ([first] ++ [second])).payments := by
    rw [(payments_deliverAll unsigned rfl _).payments_eq]
    exact List.mem_cons_self
  have hmem := hstopped first.record hrecord ⟨rfl, rfl, rfl⟩ "R1" rfl
  exact absurd hmem (by decide)

end Logit.Payments
