import Logit.Payments.Charges

/-!
# Refunds

An administrator refunds a payment by cancelling it with PayApp; the subscription is meant
to run until it expires. PayApp may then report the cancellation, and the service
deactivates the subscription of every payment reported so. The period therefore survives a
refund just when no such report is accepted.

## Main definitions

* `refundPayment` — cancels a payment with PayApp and marks its record
* `CancelReport` — a report of a cancellation or refund of a registration
* `reportAll` — the database after a sequence of reports
* `SamePeriod` — a subscription is as it was before

## Main results

* `paymentWebhook_cancel` — what a report of a cancellation does to the database
* `samePeriod_iff` — the period survives a refund if and only if no report is accepted
-/

namespace Logit.Payments

open Calendar Python Security Subscriptions

/-! ## Refunding a payment -/

/-- A record whose payment has been refunded. -/
def refunded (paymentId : UUID) (record : PaymentRecord) : PaymentRecord :=
  if record.id = paymentId then { record with payState := some 9 } else record

/-- The database with a payment marked as refunded. -/
def Database.withRefund (db : Database) (paymentId : UUID) : Database :=
  { db with payments := db.payments.map (refunded paymentId) }

/-- What is made of the answer to the cancellation of a payment. -/
def refundAnswered : PayAppAnswer → Except PaymentError Unit
  | .error error => .error (.runtimeError ("PayApp 연결 오류: " ++ error))
  | .ok result =>
    if result.state ≠ some "1" then
      .error (.runtimeError ("PayApp 환불 실패 (errno=" ++ result.errno.getD "" ++ "): " ++
        result.errorMessage.getD "알 수 없는 오류"))
    else .ok ()

/-- Refunds a payment: cancels it with PayApp and marks its record. -/
def refundPayment (settings : Settings) (cancelPayment : String → PayAppAnswer) (db : Database)
    (paymentId : UUID) : Except PaymentError Database :=
  match db.payments.find? fun record => record.id = paymentId with
  | none => .error (.valueError "결제 기록을 찾을 수 없습니다.")
  | some record =>
    if record.payState ≠ some 4 then
      .error (.valueError ("완료 상태(4)인 결제만 환불 가능합니다. 현재 pay_state=" ++
        match record.payState with
        | some payState => toString payState
        | none => "None"))
    else if !isSet record.mulNo then
      .error (.runtimeError "PayApp 거래번호(mul_no)가 없어 환불할 수 없습니다.")
    else if !isSet settings.PAYAPP_USERID || !isSet settings.PAYAPP_LINKKEY then
      .error (.runtimeError "PayApp credentials are not configured.")
    else do
      refundAnswered (cancelPayment (record.mulNo.getD ""))
      -- The type is read again for the log.
      let _ ← subscriptionType record.subscriptionType
      return db.withRefund paymentId

variable {settings : Settings} {encode : JwtEncode} {db after : Database}

theorem refundPayment_ok {cancelPayment : String → PayAppAnswer} {paymentId : UUID}
    (h : refundPayment settings cancelPayment db paymentId = .ok after) :
    after = db.withRefund paymentId := by
  unfold refundPayment at h
  split at h
  · cases h
  · split_ifs at h
    obtain ⟨_, -, h⟩ := bind_eq_ok.mp h
    obtain ⟨_, -, h⟩ := bind_eq_ok.mp h
    exact (pure_eq_ok.mp h).symm

/-! ## Reports of cancellations -/

/-- A report that a registration has been cancelled or refunded. -/
structure CancelReport (rebillNo : String) (delivery : Delivery) : Prop where
  rebillNo_eq : delivery.form.rebillNo.getD "" = rebillNo
  payState_mem : ∃ payState ∈ [8, 9, 32, 64],
    int 10 (delivery.form.payState.getD "0") = some payState

variable {delivery : Delivery} {rebillNo : String} {record : PaymentRecord}
  {type : SubscriptionType}

/-- A report that is not accepted changes nothing. -/
theorem paymentWebhook_refused (h : ¬ Accepted settings delivery.form) :
    paymentWebhook settings encode db delivery = db := by
  unfold paymentWebhook
  cases hhandled : handleWebhook settings encode db delivery with
  | error e => rfl
  | ok answer =>
    rcases handleWebhook_ok hhandled with hunchanged | ⟨haccepted, -⟩
    · exact hunchanged
    · exact absurd haccepted h

/-- An accepted report of a cancellation is handled as one. -/
theorem handleWebhook_cancelled {payState : ℤ} (h : Accepted settings delivery.form)
    (hstate : int 10 (delivery.form.payState.getD "0") = some payState)
    (hmem : payState ∈ [8, 9, 32, 64]) :
    handleWebhook settings encode db delivery =
      handlePaymentCancel db delivery.form (delivery.form.rebillNo.getD "") payState := by
  have hne : payState ≠ 4 := by
    rintro rfl
    exact absurd hmem (by decide)
  rw [handleWebhook_accepted h, hstate]
  exact (if_neg hne).trans (if_pos hmem)

theorem handleWebhook_cancel (encode : JwtEncode) (db : Database)
    (hreport : CancelReport rebillNo delivery) (h : Accepted settings delivery.form) :
    ∃ payState, handleWebhook settings encode db delivery =
      handlePaymentCancel db delivery.form rebillNo payState := by
  obtain ⟨rfl, payState, hmem, hpayState⟩ := hreport
  exact ⟨payState, handleWebhook_cancelled h hpayState hmem⟩

theorem recordsOf_map {change : PaymentRecord → PaymentRecord}
    (h : ∀ record, (change record).rebillNo = record.rebillNo) (payments : List PaymentRecord) :
    recordsOf (payments.map change) rebillNo = (recordsOf payments rebillNo).map change := by
  rw [recordsOf, List.filter_map, recordsOf]
  congr 2
  funext record
  simp [h]

theorem restate_rebillNo (form : WebhookForm) (payState : ℤ) (record : PaymentRecord) :
    (restate form payState rebillNo record).rebillNo = record.rebillNo := by
  unfold restate
  split <;> rfl

theorem refunded_rebillNo (paymentId : UUID) (record : PaymentRecord) :
    (refunded paymentId record).rebillNo = record.rebillNo := by
  unfold refunded
  split <;> rfl

/-- A registration with several records: its reports raise. -/
theorem paymentWebhook_ambiguous (hreport : CancelReport rebillNo delivery)
    (hsome : recordsOf db.payments rebillNo ≠ [])
    (hmany : ∀ record, recordsOf db.payments rebillNo ≠ [record]) :
    paymentWebhook settings encode db delivery = db := by
  by_cases haccepted : Accepted settings delivery.form
  · obtain ⟨payState, hhandled⟩ := handleWebhook_cancel encode db hreport haccepted
    have hmultiple : paymentOfRebill db.payments rebillNo = .error .multipleResultsFound := by
      unfold paymentOfRebill
      split
      · next hnone => exact absurd hnone hsome
      · next record hone => exact absurd hone (hmany record)
      · rfl
    rw [paymentWebhook, hhandled, handlePaymentCancel, hmultiple]
    rfl
  · exact paymentWebhook_refused haccepted

/-- The only record of a registration, by what reports read of it. -/
def OnlyRecord (payments : List PaymentRecord) (rebillNo : String) (userId : UUID)
    (type : SubscriptionType) : Prop :=
  ∃ record, recordsOf payments rebillNo = [record] ∧ record.userId = userId ∧
    record.subscriptionType = type.value

/-- An accepted report of a cancellation deactivates the subscription of the record. -/
theorem paymentWebhook_cancel (encode : JwtEncode) {userId : UUID}
    (hreport : CancelReport rebillNo delivery) (haccepted : Accepted settings delivery.form)
    (honly : OnlyRecord db.payments rebillNo userId type) :
    ∃ payState, paymentWebhook settings encode db delivery =
      { db with
        payments := db.payments.map (restate delivery.form payState rebillNo)
        subscriptions := deactivateSubscription db.subscriptions userId type } := by
  obtain ⟨payState, hhandled⟩ := handleWebhook_cancel encode db hreport haccepted
  obtain ⟨record, hone, rfl, htype⟩ := honly
  have hrecord : paymentOfRebill db.payments rebillNo = .ok (some record) := by
    rw [paymentOfRebill, hone]
  refine ⟨payState, ?_⟩
  simp [paymentWebhook, hhandled, handlePaymentCancel, hrecord, subscriptionType, htype, bind,
    Except.bind, pure, Except.pure]

/-! ## Sequences of reports -/

/-- The database after a sequence of reports. -/
def reportAll (settings : Settings) (encode : JwtEncode) (db : Database)
    (deliveries : List Delivery) : Database :=
  deliveries.foldl (paymentWebhook settings encode) db

/-- Reports that are not accepted, all of them, change nothing. -/
theorem reportAll_unchanged {deliveries : List Delivery}
    (h : ∀ delivery ∈ deliveries, paymentWebhook settings encode db delivery = db) :
    reportAll settings encode db deliveries = db := by
  induction deliveries with
  | nil => rfl
  | cons delivery deliveries ih =>
    rw [reportAll, List.foldl_cons, h delivery List.mem_cons_self]
    exact ih fun later hlater => h later (List.mem_cons_of_mem delivery hlater)

/-- A subscription that is not active. -/
def Ended (db : Database) (userId : UUID) (type : SubscriptionType) : Prop :=
  ∃ sub, db.subscriptions userId type = some sub ∧ sub.isActive = false

/-- One report of a cancellation: the registration keeps its only record, an ended subscription
stays so, and an accepted report ends it. -/
theorem OnlyRecord.step (settings : Settings) (encode : JwtEncode) {userId : UUID}
    {sub : Subscription} (h : OnlyRecord db.payments rebillNo userId type)
    (hreport : CancelReport rebillNo delivery) (hsub : db.subscriptions userId type = some sub) :
    OnlyRecord (paymentWebhook settings encode db delivery).payments rebillNo userId type ∧
      (∃ sub, (paymentWebhook settings encode db delivery).subscriptions userId type = some sub) ∧
      (Ended db userId type ∨ Accepted settings delivery.form →
        Ended (paymentWebhook settings encode db delivery) userId type) := by
  by_cases haccepted : Accepted settings delivery.form
  · obtain ⟨payState, hafter⟩ := paymentWebhook_cancel encode hreport haccepted h
    have hrow : (deactivateSubscription db.subscriptions userId type) userId type =
        some (deactivatedRow type sub) := by
      simp [deactivateSubscription, hsub]
    rw [hafter]
    refine ⟨?_, ⟨_, hrow⟩, fun _ => ⟨_, hrow, rfl⟩⟩
    obtain ⟨record, hone, huser, htype⟩ := h
    refine ⟨restate delivery.form payState rebillNo record, ?_, ?_, ?_⟩
    · rw [recordsOf_map (restate_rebillNo delivery.form payState), hone, List.map_singleton]
    · unfold restate
      split <;> exact huser
    · unfold restate
      split <;> exact htype
  · rw [paymentWebhook_refused haccepted]
    exact ⟨h, ⟨sub, hsub⟩, fun hended => hended.resolve_right haccepted⟩

/-- A sequence of reports ends the subscription if it has ended before or one is accepted. -/
theorem ended_reportAll (encode : JwtEncode) {userId : UUID} {deliveries : List Delivery}
    (h : OnlyRecord db.payments rebillNo userId type)
    (hreports : ∀ delivery ∈ deliveries, CancelReport rebillNo delivery)
    (hsub : ∃ sub, db.subscriptions userId type = some sub)
    (hended : Ended db userId type ∨ ∃ delivery ∈ deliveries, Accepted settings delivery.form) :
    Ended (reportAll settings encode db deliveries) userId type := by
  -- By induction on the reports; the registration keeps its only record throughout.
  induction deliveries generalizing db with
  | nil =>
    rcases hended with hended | ⟨delivery, hmem, -⟩
    · exact hended
    · cases hmem
  | cons delivery deliveries ih =>
    obtain ⟨sub, hsub⟩ := hsub
    obtain ⟨honly, hrow, hends⟩ := h.step settings encode (hreports delivery List.mem_cons_self)
      hsub
    apply ih honly (fun later hlater => hreports later (List.mem_cons_of_mem delivery hlater)) hrow
    rcases hended with hended | ⟨accepted, hmem, haccepted⟩
    · exact .inl (hends (.inl hended))
    · rcases List.mem_cons.mp hmem with rfl | hmem
      · exact .inl (hends (.inr haccepted))
      · exact .inr ⟨accepted, hmem, haccepted⟩

/-! ## The period after a refund -/

/-- A subscription runs as it did before; MCP subscriptions keep their token. -/
structure SamePeriod (type : SubscriptionType) (before after : Subscription) : Prop where
  isActive : after.isActive = before.isActive
  plan : after.plan = before.plan
  startedAt : after.startedAt = before.startedAt
  expiresAt : after.expiresAt = before.expiresAt
  token : type = .mcp → after.token = before.token

/-- A refund leaves the only record of a registration the only one. -/
theorem onlyRecord_withRefund (hone : recordsOf db.payments rebillNo = [record])
    (htype : record.subscriptionType = type.value) :
    OnlyRecord (db.withRefund record.id).payments rebillNo record.userId type := by
  refine ⟨refunded record.id record, ?_, ?_, ?_⟩
  · rw [Database.withRefund, recordsOf_map (refunded_rebillNo record.id), hone, List.map_singleton]
  · rw [refunded, if_pos rfl]
  · rw [refunded, if_pos rfl]
    exact htype

/-- With another record of the registration, every accepted report raises, also after a refund. -/
theorem reportAll_shared {deliveries : List Delivery} (paymentId : UUID)
    (hmem : record ∈ recordsOf db.payments rebillNo)
    (hshared : recordsOf db.payments rebillNo ≠ [record])
    (hreports : ∀ delivery ∈ deliveries, CancelReport rebillNo delivery) :
    reportAll settings encode (db.withRefund paymentId) deliveries = db.withRefund paymentId := by
  have hafter : recordsOf (db.withRefund paymentId).payments rebillNo =
      (recordsOf db.payments rebillNo).map (refunded paymentId) :=
    recordsOf_map (refunded_rebillNo paymentId) db.payments
  apply reportAll_unchanged
  intro delivery hdelivery
  apply paymentWebhook_ambiguous (hreports delivery hdelivery)
  · rw [hafter]
    exact List.ne_nil_of_mem (List.mem_map_of_mem hmem)
  · intro other heq
    rw [hafter, List.map_eq_singleton_iff] at heq
    obtain ⟨single, hsingle, -⟩ := heq
    rw [hsingle, List.mem_singleton] at hmem
    exact hshared (hmem ▸ hsingle)

/-- A subscription that has ended does not run as it did while it was active. -/
theorem SamePeriod.not_ended {userId : UUID} {before now : Subscription}
    (h : SamePeriod type before now) (hactive : before.isActive = true)
    (hnow : db.subscriptions userId type = some now) : ¬ Ended db userId type := by
  rintro ⟨ended, hended, hinactive⟩
  obtain rfl : now = ended := Option.some.inj (hnow.symm.trans hended)
  have hsame := h.isActive
  rw [hinactive, hactive] at hsame
  cases hsame

/-- After a refund, an active subscription runs as it did before if and only if none of the
reports is accepted, or the payment shares its registration with another record. -/
theorem samePeriod_iff {cancelPayment : String → PayAppAnswer} {deliveries : List Delivery}
    {sub : Subscription} (hrecord : record ∈ db.payments)
    (hrebillNo : record.rebillNo = some rebillNo) (htype : record.subscriptionType = type.value)
    (hsub : db.subscriptions record.userId type = some sub) (hactive : sub.isActive = true)
    (hrefund : refundPayment settings cancelPayment db record.id = .ok after)
    (hreports : ∀ delivery ∈ deliveries, CancelReport rebillNo delivery) :
    (∃ now, (reportAll settings encode after deliveries).subscriptions record.userId type =
        some now ∧ SamePeriod type sub now) ↔
      (∀ delivery ∈ deliveries, ¬ Accepted settings delivery.form) ∨
        recordsOf db.payments rebillNo ≠ [record] := by
  obtain rfl := refundPayment_ok hrefund
  by_cases hone : recordsOf db.payments rebillNo = [record]
  · constructor
    · rintro ⟨now, hnow, hsame⟩
      left
      intro delivery hdelivery haccepted
      apply hsame.not_ended hactive hnow
      exact ended_reportAll encode (onlyRecord_withRefund hone htype) hreports ⟨sub, hsub⟩
        (.inr ⟨delivery, hdelivery, haccepted⟩)
    · rintro (hrefused | hshared)
      · rw [reportAll_unchanged fun delivery hdelivery =>
          paymentWebhook_refused (hrefused delivery hdelivery)]
        exact ⟨sub, hsub, rfl, rfl, rfl, rfl, fun _ => rfl⟩
      · exact absurd hone hshared
  · have hmem : record ∈ recordsOf db.payments rebillNo := by
      simp [recordsOf, hrecord, hrebillNo]
    rw [reportAll_shared record.id hmem hone hreports]
    exact iff_of_true ⟨sub, hsub, rfl, rfl, rfl, rfl, fun _ => rfl⟩ (.inr hone)

/-! ### A refunded payment -/

/-- The shop's first charge. -/
def firstCharge : Charge shop newShop.users newShop.plans := liteCharge "R1" "M1" (.utc 2026 1 10 9)

/-- The shop after its first charge. -/
def paidShop : Database := deliverAll shop unsigned newShop [firstCharge]

/-- A report that the first charge has been refunded, with some `linkval`. -/
def refundReport (linkval : String) : Delivery :=
  { firstCharge.delivery with
    form := (firstCharge.delivery.form.set "linkval" linkval).set "pay_state" "9" }

theorem payments_paidShop : paidShop.payments = [firstCharge.record] :=
  (payments_deliverAll unsigned rfl [firstCharge]).payments_eq

theorem subscriptions_paidShop : ∃ token,
    paidShop.subscriptions firstCharge.record.userId .logit = some (firstCharge.period token) := by
  have hnew : firstCharge.rebillNo ∉ ([] : List (Charge shop newShop.users newShop.plans)).map
      (·.rebillNo) := List.not_mem_nil
  exact subscriptions_deliverAll unsigned rfl hnew

theorem refundPayment_paidShop : refundPayment shop (fun _ => accepted) paidShop
    firstCharge.record.id = .ok (paidShop.withRefund firstCharge.record.id) := by
  rw [refundPayment, payments_paidShop]
  rfl

theorem firstCharge_mem_paidShop : firstCharge.record ∈ paidShop.payments := by
  rw [payments_paidShop]
  exact List.mem_cons_self

theorem cancelReport_refundReport (linkval : String) :
    ∀ delivery ∈ [refundReport linkval], CancelReport "R1" delivery := by
  intro delivery hdelivery
  rw [List.mem_singleton.mp hdelivery]
  exact ⟨rfl, 9, by decide, (by decide : int 10 "9" = some 9)⟩

theorem not_accepted_forged : ¬ Accepted shop (refundReport "forged").form := by
  rintro ⟨-, hverified⟩
  exact absurd hverified (by decide)

theorem samePeriod_iff_forged : ∃ token now,
    (reportAll shop unsigned (paidShop.withRefund firstCharge.record.id)
      [refundReport "forged"]).subscriptions firstCharge.record.userId .logit = some now ∧
    SamePeriod .logit (firstCharge.period token) now := by
  obtain ⟨token, hsub⟩ := subscriptions_paidShop
  exact ⟨token, (samePeriod_iff firstCharge_mem_paidShop rfl rfl hsub rfl refundPayment_paidShop
    (cancelReport_refundReport "forged")).mpr
      (.inl (List.forall_mem_singleton.mpr not_accepted_forged))⟩

/-- PayApp reports the refund itself, and the subscription ends at once. -/
theorem not_samePeriod :
    ¬ ∀ (settings : Settings) (encode : JwtEncode) (cancelPayment : String → PayAppAnswer)
      (db after : Database) (record : PaymentRecord) (rebillNo : String) (type : SubscriptionType)
      (sub : Subscription) (deliveries : List Delivery), record ∈ db.payments →
      record.payState = some 4 → record.rebillNo = some rebillNo →
      record.subscriptionType = type.value →
      db.subscriptions record.userId type = some sub → sub.isActive = true →
      record.subscriptionStartedAt = some sub.startedAt →
      record.subscriptionExpiresAt = sub.expiresAt →
      refundPayment settings cancelPayment db record.id = .ok after →
      (∀ delivery ∈ deliveries, CancelReport rebillNo delivery) →
      ∃ now, (reportAll settings encode after deliveries).subscriptions record.userId type =
        some now ∧ SamePeriod type sub now := by
  intro h
  obtain ⟨token, hsub⟩ := subscriptions_paidShop
  have hreports := cancelReport_refundReport "val"
  have hone : recordsOf paidShop.payments "R1" = [firstCharge.record] := by
    rw [payments_paidShop]
    rfl
  have haccepted : Accepted shop (refundReport "val").form := ⟨by decide, firstCharge.verified⟩
  have honly : OnlyRecord (paidShop.withRefund firstCharge.record.id).payments "R1"
      firstCharge.record.userId .logit := onlyRecord_withRefund hone rfl
  have hended := ended_reportAll unsigned honly hreports ⟨_, hsub⟩
    (.inr ⟨_, List.mem_cons_self, haccepted⟩)
  obtain ⟨now, hnow, hsame⟩ := h shop unsigned (fun _ => accepted) paidShop _ firstCharge.record
    "R1" .logit (firstCharge.period token) [refundReport "val"] firstCharge_mem_paidShop rfl rfl
    rfl hsub rfl rfl rfl refundPayment_paidShop hreports
  exact hsame.not_ended rfl hnow hended

end Logit.Payments
