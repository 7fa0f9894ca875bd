import Logit.Payments.Refund
import Logit.Payments.Registration

/-!
# Notices of earlier payments

A report of a cancellation deactivates the subscription of its record's user and type. A
user pays for many periods of one subscription, and the report may be about any of them;
the service does not ask which. So a report leaves the periods of other payments alone
only if it is about the payment of the current period, or there is nothing left to
deactivate.

## Main definitions

* `Change`, `History` — what happens to payments and subscriptions
* `madeBy` — the payment that has made the current period of a subscription
* `Deactivated` — a deactivation leaves the row as it is

## Main results

* `Booked.of_history` — the period of a row is the one its last payment has paid for
* `changesOnlyOwn_iff` — when a report of a cancellation leaves other periods alone
-/

namespace Logit.Payments

open Calendar Python Security Subscriptions

/-! ## Histories -/

/-- What is paid for of a subscription. -/
def Subscription.paid (sub : Subscription) : SubscriptionPlan × Datetime × Option Datetime :=
  (sub.plan, sub.startedAt, sub.expiresAt)

/-- What other requests leave: payments, and the plan and the period of every subscription. -/
structure KeepsPeriods (before after : Database) : Prop where
  payments_eq : after.payments = before.payments
  paid_eq : ∀ userId type, (after.subscriptions userId type).map Subscription.paid =
    (before.subscriptions userId type).map Subscription.paid

variable (settings : Settings) (encode : JwtEncode)

/-- A change of payments or subscriptions. -/
inductive Change : Database → Database → Prop
  | reported (db : Database) (delivery : Delivery) :
      Change db (paymentWebhook settings encode db delivery)
  | refunded {db after : Database} {cancelPayment : String → PayAppAnswer} {paymentId : UUID}
      (h : refundPayment settings cancelPayment db paymentId = .ok after) : Change db after
  /-- Users stop the renewal, administrators deactivate, rows expire, tokens are issued, and
  users and plans change. -/
  | other {db after : Database} (h : KeepsPeriods db after) : Change db after

/-- A sequence of changes. -/
abbrev History : Database → Database → Prop := Relation.ReflTransGen (Change settings encode)

/-- The payment that has made the current period of a subscription: the one recorded last. -/
def madeBy (payments : List PaymentRecord) (userId : UUID) (type : SubscriptionType) :
    Option PaymentRecord :=
  (payments.filter fun record =>
    record.userId = userId ∧ record.subscriptionType = type.value).getLast?

/-- A deactivation would leave the row as it is. -/
def Deactivated (type : SubscriptionType) (sub : Subscription) : Prop :=
  sub.isActive = false ∧ sub.isAutoRenew = false ∧ (type = .mcp → sub.token = none)

variable {settings encode} {db after : Database} {userId : UUID} {type : SubscriptionType}

theorem deactivatedRow_eq_self {sub : Subscription} :
    deactivatedRow type sub = sub ↔ Deactivated type sub := by
  rcases sub with ⟨isActive, plan, token, isAutoRenew, startedAt, expiresAt⟩
  by_cases hmcp : type = .mcp <;> simp [deactivatedRow, Deactivated, hmcp, eq_comm]
  tauto

/-- A deactivation leaves a row as it is exactly if it has been deactivated. -/
theorem map_deactivatedRow_eq_self {row : Option Subscription} :
    row.map (deactivatedRow type) = row ↔ ∀ sub ∈ row, Deactivated type sub := by
  cases row with
  | none => simp
  | some sub => simp [deactivatedRow_eq_self]

theorem setSubscription_ne (subscriptions : SubscriptionTable) {user : UUID}
    {ty : SubscriptionType} (h : ¬ (user = userId ∧ ty = type)) (sub : Subscription) :
    setSubscription subscriptions userId type sub user ty = subscriptions user ty :=
  if_neg h

/-- The rows of a user and type after a deactivation. -/
theorem deactivateSubscription_apply (subscriptions : SubscriptionTable) (userId user : UUID)
    (type ty : SubscriptionType) :
    deactivateSubscription subscriptions userId type user ty =
      if user = userId ∧ ty = type then (subscriptions user ty).map (deactivatedRow ty)
      else subscriptions user ty := by
  unfold deactivateSubscription
  split_ifs with h
  · obtain ⟨rfl, rfl⟩ := h
    cases hrow : subscriptions user ty with
    | none => simp [hrow]
    | some sub => simp
  · cases subscriptions userId type with
    | none => rfl
    | some sub => exact setSubscription_ne subscriptions h _

theorem keepsPeriods_deactivate (db : Database) (userId : UUID) (type : SubscriptionType) :
    KeepsPeriods db
      { db with subscriptions := deactivateSubscription db.subscriptions userId type } := by
  refine ⟨rfl, fun user ty => ?_⟩
  simp only [deactivateSubscription_apply]
  split_ifs
  · rw [Option.map_map]
    rfl
  · rfl

/-- A cancellation by the user is among the other changes. -/
theorem Change.of_cancelSubscription {cancelRebill : String → PayAppAnswer}
    {last : Option PaymentRecord}
    (h : cancelSubscription settings cancelRebill db last userId type = .ok after) :
    Change settings encode db after := by
  obtain rfl := cancelSubscription_ok h
  refine .other ⟨rfl, fun user ty => ?_⟩
  unfold stopRenewal
  split
  · rfl
  · next sub hsub =>
    by_cases hrow : user = userId ∧ ty = type
    · obtain ⟨rfl, rfl⟩ := hrow
      simp [hsub, Subscription.paid]
    · simp only [setSubscription_ne _ hrow]

/-! ## Periods and payments -/

/-- A record with another state and the fields of another report, and nothing else changed. -/
def Restates (change : PaymentRecord → PaymentRecord) : Prop :=
  ∀ record, ∃ payState rawWebhookData, change record = { record with payState, rawWebhookData }

theorem Restates.rebillNo {change : PaymentRecord → PaymentRecord} (h : Restates change)
    (record : PaymentRecord) : (change record).rebillNo = record.rebillNo := by
  obtain ⟨payState, rawWebhookData, hrecord⟩ := h record
  rw [hrecord]

theorem restates_restate (form : WebhookForm) (payState : ℤ) (rebillNo : String) :
    Restates (restate form payState rebillNo) := by
  intro record
  unfold restate
  split_ifs
  · exact ⟨some payState, some form.data, rfl⟩
  · exact ⟨record.payState, record.rawWebhookData, rfl⟩

theorem restates_refunded (paymentId : UUID) : Restates (refunded paymentId) := by
  intro record
  unfold refunded
  split_ifs
  · exact ⟨some 9, record.rawWebhookData, rfl⟩
  · exact ⟨record.payState, record.rawWebhookData, rfl⟩

theorem madeBy_map {change : PaymentRecord → PaymentRecord} (h : Restates change)
    (payments : List PaymentRecord) (userId : UUID) (type : SubscriptionType) :
    madeBy (payments.map change) userId type = (madeBy payments userId type).map change := by
  rw [madeBy, madeBy, List.filter_map, List.getLast?_map]
  congr 3
  funext record
  obtain ⟨payState, rawWebhookData, hchange⟩ := h record
  simp [hchange]

theorem madeBy_concat (payments : List PaymentRecord) (record : PaymentRecord) :
    madeBy (payments ++ [record]) userId type =
      if record.userId = userId ∧ record.subscriptionType = type.value then some record
      else madeBy payments userId type := by
  unfold madeBy
  rw [List.filter_append]
  split_ifs with h
  · simp [h]
  · simp [h]

theorem mem_of_madeBy {payments : List PaymentRecord} {record : PaymentRecord}
    (h : madeBy payments userId type = some record) :
    record ∈ payments ∧ record.userId = userId ∧ record.subscriptionType = type.value := by
  have hmem := List.mem_filter.mp (List.mem_of_getLast? h)
  exact ⟨hmem.1, of_decide_eq_true hmem.2⟩

/-- A row runs for the period a record has paid for. -/
def PeriodOf (record : PaymentRecord) (sub : Subscription) : Prop :=
  record.subscriptionStartedAt = some sub.startedAt ∧ record.subscriptionExpiresAt = sub.expiresAt

/-- What holds in a history that starts without payments. -/
structure Booked (db : Database) : Prop where
  /-- A registration has one record. -/
  one : ∀ rebillNo, (recordsOf db.payments rebillNo).length ≤ 1
  paid : ∀ record ∈ db.payments, record.paidAt.isSome = true ∧
    ∃ type : SubscriptionType, record.subscriptionType = type.value
  /-- The period of a row is the one its last payment has paid for. -/
  period : ∀ userId type record, madeBy db.payments userId type = some record →
    ∃ sub, db.subscriptions userId type = some sub ∧ PeriodOf record sub

namespace Booked

theorem of_empty (h : db.payments = []) : Booked db where
  one rebillNo := by simp [h, recordsOf]
  paid record hrecord := by simp [h] at hrecord
  period userId type record hmade := by simp [h, madeBy] at hmade

theorem keepsPeriods (h : Booked db) (hkeeps : KeepsPeriods db after) : Booked after where
  one rebillNo := hkeeps.payments_eq ▸ h.one rebillNo
  paid := hkeeps.payments_eq ▸ h.paid
  period userId type record hmade := by
    rw [hkeeps.payments_eq] at hmade
    obtain ⟨sub, hsub, hstarted, hexpires⟩ := h.period userId type record hmade
    have hpaid := hkeeps.paid_eq userId type
    rw [hsub, Option.map_some, Option.map_eq_some_iff] at hpaid
    obtain ⟨now, hnow, hsame⟩ := hpaid
    simp only [Subscription.paid, Prod.mk.injEq] at hsame
    exact ⟨now, hnow, hsame.2.1 ▸ hstarted, hsame.2.2 ▸ hexpires⟩

theorem restated (h : Booked db) {change : PaymentRecord → PaymentRecord}
    (hchange : Restates change) : Booked { db with payments := db.payments.map change } where
  one rebillNo := by
    rw [recordsOf_map hchange.rebillNo, List.length_map]
    exact h.one rebillNo
  paid record hrecord := by
    obtain ⟨before, hbefore, rfl⟩ := List.mem_map.mp hrecord
    obtain ⟨payState, rawWebhookData, hrecord⟩ := hchange before
    rw [hrecord]
    exact h.paid before hbefore
  period userId type record hmade := by
    rw [madeBy_map hchange, Option.map_eq_some_iff] at hmade
    obtain ⟨before, hbefore, rfl⟩ := hmade
    obtain ⟨payState, rawWebhookData, hrecord⟩ := hchange before
    rw [hrecord]
    exact h.period userId type before hbefore

end Booked

variable {delivery : Delivery} {rebillNo : String}

/-- A payment that is recorded starts a period. -/
structure StartsPeriod (rebillNo : String) (db after : Database) (record : PaymentRecord)
    (type : SubscriptionType) (sub : Subscription) : Prop where
  rebillNo_eq : record.rebillNo = some rebillNo
  type_eq : record.subscriptionType = type.value
  paid : record.paidAt.isSome = true
  period : PeriodOf record sub
  after_eq : after =
    { db with
      payments := db.payments ++ [record]
      subscriptions := setSubscription db.subscriptions record.userId type sub }

theorem startsPeriod_of_recordPayment {mulNo : Option String} {dbPlan : Plan}
    {reply : WebhookReply}
    (h : recordPayment settings encode db delivery rebillNo mulNo userId dbPlan =
      .ok (reply, after)) :
    ∃ record type sub, StartsPeriod rebillNo db after record type sub := by
  obtain ⟨subType, plan, subscriptions, record, -, -, hactivated, rfl⟩ :=
    recordPayment_activates h
  obtain ⟨type, plan', token, htype, -, rfl, rfl⟩ := activateSubscription_ok hactivated
  refine ⟨_, type, _, ?_, ?_, ?_, ?_, rfl⟩
  · rfl
  · exact (SubscriptionType.value_of_ofValue? htype).symm
  · rfl
  · exact ⟨rfl, rfl⟩

theorem value_injective : Function.Injective SubscriptionType.value := by
  intro first second h
  have hvalue := SubscriptionType.ofValue?_value first
  rw [h, SubscriptionType.ofValue?_value] at hvalue
  exact (Option.some.inj hvalue).symm

/-- All records are paid, so a registration without a paid record has none. -/
theorem Booked.recordsOf_eq_nil (h : Booked db) {existing : Option PaymentRecord}
    (hexisting : paymentOfRebill db.payments rebillNo = .ok existing)
    (hunpaid : ¬ (existing.bind (·.paidAt)).isSome = true) :
    recordsOf db.payments rebillNo = [] := by
  rw [recordsOf_eq_toList hexisting]
  cases existing with
  | none => rfl
  | some record =>
    have hrecord : record ∈ recordsOf db.payments rebillNo := by
      rw [recordsOf_eq_toList hexisting]
      exact List.mem_singleton_self record
    exact absurd (h.paid record (List.mem_filter.mp hrecord).1).1 hunpaid

theorem Booked.recorded (h : Booked db) {record : PaymentRecord} {sub : Subscription}
    (hnone : recordsOf db.payments rebillNo = [])
    (hstarts : StartsPeriod rebillNo db after record type sub) : Booked after := by
  obtain ⟨hrebillNo, htype, hpaid, hperiod, rfl⟩ := hstarts
  refine ⟨fun number => ?_, fun other hother => ?_, fun user ty made hmade => ?_⟩
  · rw [recordsOf, List.filter_append, List.length_append]
    by_cases hnumber : number = rebillNo
    · rw [recordsOf] at hnone
      simp [hnumber, hnone, hrebillNo]
    · simpa [recordsOf, hrebillNo, Ne.symm hnumber] using h.one number
  · rcases List.mem_append.mp hother with hother | hother
    · exact h.paid other hother
    · obtain rfl := List.mem_singleton.mp hother
      exact ⟨hpaid, type, htype⟩
  · rw [madeBy_concat] at hmade
    by_cases hrow : record.userId = user ∧ record.subscriptionType = ty.value
    · -- The new payment has made the period of its own row.
      rw [if_pos hrow] at hmade
      obtain rfl := Option.some.inj hmade
      obtain rfl := value_injective (htype.symm.trans hrow.2)
      exact ⟨sub, if_pos ⟨hrow.1.symm, rfl⟩, hperiod⟩
    · rw [if_neg hrow] at hmade
      have hother : ¬ (user = record.userId ∧ ty = type) := fun heq =>
        hrow ⟨heq.1.symm, heq.2 ▸ htype⟩
      simpa only [setSubscription_ne _ hother] using h.period user ty made hmade

/-- What is left of a report of a cancellation: the record may be in another state, and a
subscription may be deactivated. -/
theorem handlePaymentCancel_ok {form : WebhookForm} {payState : ℤ} {reply : WebhookReply}
    (h : handlePaymentCancel db form rebillNo payState = .ok (reply, after)) :
    after = db ∨ ∃ userId type, ∃ change, Restates change ∧ after =
      { db with
        payments := db.payments.map change
        subscriptions := deactivateSubscription db.subscriptions userId type } := by
  rcases handlePaymentCancel_cases h with
    ⟨record, type, -, -, hafter⟩ | ⟨userId, type, -, -, -, hafter⟩ | hafter
  · exact .inr ⟨record.userId, type, restate form payState rebillNo, restates_restate _ _ _, hafter⟩
  · refine .inr ⟨userId, type, id, fun record => ⟨record.payState, record.rawWebhookData, rfl⟩, ?_⟩
    rw [List.map_id]
    exact hafter
  · exact .inl hafter

theorem Booked.reported (h : Booked db) (delivery : Delivery) :
    Booked (paymentWebhook settings encode db delivery) := by
  unfold paymentWebhook
  cases hhandled : handleWebhook settings encode db delivery with
  | error e => exact h
  | ok answer =>
    obtain ⟨reply, after⟩ := answer
    rcases handleWebhook_ok hhandled with
      rfl | ⟨-, payState, -, ⟨-, hcomplete⟩ | ⟨-, hcancel⟩⟩
    · exact h
    · rcases handlePaymentComplete_cases hcomplete with
        rfl | ⟨existing, userId, dbPlan, hexisting, hpaid, -, -, -, hok⟩
      · exact h
      · obtain ⟨record, type, sub, hstarts⟩ := startsPeriod_of_recordPayment hok
        exact h.recorded (h.recordsOf_eq_nil hexisting hpaid) hstarts
    · rcases handlePaymentCancel_ok hcancel with rfl | ⟨userId, type, change, hchange, rfl⟩
      · exact h
      · exact (h.restated hchange).keepsPeriods (keepsPeriods_deactivate _ userId type)

/-- One record for each registration, and the period of every row is that of its last payment. -/
theorem Booked.of_history {start : Database} (hempty : start.payments = [])
    (h : History settings encode start db) : Booked db := by
  induction h with
  | refl => exact .of_empty hempty
  | tail _ hchange ih =>
    cases hchange with
    | reported delivery => exact ih.reported delivery
    | refunded hrefund =>
      rw [refundPayment_ok hrefund]
      exact ih.restated (restates_refunded _)
    | other hkeeps => exact ih.keepsPeriods hkeeps

/-! ## Notices -/

theorem recordsOf_eq_singleton {record : PaymentRecord} (h : Booked db)
    (hrecord : record ∈ db.payments) (hrebillNo : record.rebillNo = some rebillNo) :
    recordsOf db.payments rebillNo = [record] := by
  have hmem : record ∈ recordsOf db.payments rebillNo := by simp [recordsOf, hrecord, hrebillNo]
  have hlength := h.one rebillNo
  cases hrecords : recordsOf db.payments rebillNo with
  | nil => rw [hrecords] at hmem; cases hmem
  | cons first rest =>
    rw [hrecords] at hmem hlength
    obtain rfl : rest = [] := List.eq_nil_of_length_eq_zero (by simpa using hlength)
    rw [List.mem_singleton.mp hmem]

/-- In a history that starts without payments, a report of a cancellation changes only the row
whose period its registration has made if and only if it is not accepted, or its record has made
the period of its row, or the row has been deactivated before. -/
theorem changesOnlyOwn_iff {start : Database} {record : PaymentRecord}
    (hempty : start.payments = []) (hrun : History settings encode start db)
    (hreport : CancelReport rebillNo delivery) (hrecord : record ∈ db.payments)
    (hrebillNo : record.rebillNo = some rebillNo) :
    (∀ userId type, (paymentWebhook settings encode db delivery).subscriptions userId type ≠
        db.subscriptions userId type →
      ∃ maker, madeBy db.payments userId type = some maker ∧ maker.rebillNo = some rebillNo) ↔
    (Accepted settings delivery.form → ∀ type, record.subscriptionType = type.value →
      madeBy db.payments record.userId type = some record ∨
        ∀ sub ∈ db.subscriptions record.userId type, Deactivated type sub) := by
  have hbooked := Booked.of_history hempty hrun
  have hone := recordsOf_eq_singleton hbooked hrecord hrebillNo
  obtain ⟨-, type, htype⟩ := hbooked.paid record hrecord
  by_cases haccepted : Accepted settings delivery.form
  · obtain ⟨payState, hafter⟩ := paymentWebhook_cancel encode hreport haccepted
      ⟨record, hone, rfl, htype⟩
    simp only [hafter, deactivateSubscription_apply]
    constructor
    · intro h _ ty hty
      obtain rfl := value_injective (htype.symm.trans hty)
      by_cases hdeactivated : ∀ sub ∈ db.subscriptions record.userId type, Deactivated type sub
      · exact .inr hdeactivated
      · obtain ⟨maker, hmaker, hsame⟩ := h record.userId type (by
          rwa [if_pos ⟨rfl, rfl⟩, ne_eq, map_deactivatedRow_eq_self])
        have hmem : maker ∈ recordsOf db.payments rebillNo := by
          simp [recordsOf, (mem_of_madeBy hmaker).1, hsame]
        rw [hone, List.mem_singleton] at hmem
        exact .inl (hmem ▸ hmaker)
    · intro h user ty hne
      split_ifs at hne with hrow
      · obtain ⟨rfl, rfl⟩ := hrow
        rcases h haccepted ty htype with hmade | hdeactivated
        · exact ⟨record, hmade, hrebillNo⟩
        · exact absurd (map_deactivatedRow_eq_self.mpr hdeactivated) hne
      · exact absurd rfl hne
  · rw [paymentWebhook_refused haccepted]
    exact iff_of_true (fun _ _ hne => absurd rfl hne) fun h => absurd h haccepted

/-! ### Two payments of one subscription -/

theorem history_deliverAll (encode : JwtEncode) (db : Database) {users : UUID → Bool}
    {plans : String → Option Plan} (charges : List (Charge settings users plans)) :
    History settings encode db (deliverAll settings encode db charges) := by
  induction charges using List.reverseRecOn with
  | nil => exact .refl
  | append_singleton charges charge ih =>
    rw [deliverAll_concat]
    exact ih.tail (.reported _ charge.delivery)

/-- A payment in March. -/
abbrev laterCharge : Charge shop newShop.users newShop.plans :=
  liteCharge "R2" "M2" (.utc 2026 3 1 9)

/-- A payment in January, and one for another registration in March. -/
def twoPayments : List (Charge shop newShop.users newShop.plans) :=
  [liteCharge "R1" "M1" (.utc 2026 1 10 9), laterCharge]

/-- The shop after both payments. -/
def twicePaidShop : Database := deliverAll shop unsigned newShop twoPayments

/-- A report that a charge has been refunded. -/
def refundNotice (rebillNo mulNo : String) : Delivery :=
  let delivery := (liteCharge rebillNo mulNo (.utc 2026 3 2 9)).delivery
  { delivery with form := delivery.form.set "pay_state" "9" }

theorem cancelReport_refundNotice (rebillNo mulNo : String) :
    CancelReport rebillNo (refundNotice rebillNo mulNo) :=
  ⟨rfl, 9, by decide, (by decide : int 10 "9" = some 9)⟩

theorem accepted_refundNotice (rebillNo mulNo : String) :
    Accepted shop (refundNotice rebillNo mulNo).form :=
  ⟨by decide, (liteCharge rebillNo mulNo (.utc 2026 3 2 9)).verified⟩

theorem payments_twicePaidShop : twicePaidShop.payments =
    [(liteCharge "R1" "M1" (.utc 2026 1 10 9)).record,
      laterCharge.record] :=
  (payments_deliverAll unsigned rfl twoPayments).payments_eq

theorem subscriptions_twicePaidShop : ∃ token,
    twicePaidShop.subscriptions 7 .logit = some (laterCharge.period token) := by
  have hnew : laterCharge.rebillNo ∉
      [liteCharge "R1" "M1" (.utc 2026 1 10 9)].map (·.rebillNo) := by decide
  exact subscriptions_deliverAll unsigned rfl hnew

/-- The user stops the renewal, and the later payment is refunded: its period ends. -/
theorem changesOnlyOwn_iff_later : ∃ after,
    cancelSubscription shop (fun _ => accepted) twicePaidShop (some laterCharge.record) 7 .logit =
      .ok after ∧
    Ended (paymentWebhook shop unsigned after (refundNotice "R2" "M2")) 7 .logit ∧
    ∀ userId type, (paymentWebhook shop unsigned after
        (refundNotice "R2" "M2")).subscriptions userId type ≠ after.subscriptions userId type →
      ∃ maker, madeBy after.payments userId type = some maker ∧ maker.rebillNo = some "R2" := by
  obtain ⟨token, hrow⟩ := subscriptions_twicePaidShop
  have htarget : cancelTarget shop twicePaidShop (some laterCharge.record) 7 .logit =
      .ok (some "R2") := cancelTarget_renewed hrow rfl rfl rfl (by decide) (by decide)
  obtain ⟨after, hcancel⟩ : ∃ after, cancelSubscription shop (fun _ => accepted) twicePaidShop
      (some laterCharge.record) 7 .logit = .ok after := by
    rw [cancelSubscription, htarget]
    exact ⟨_, rfl⟩
  have hrun : History shop unsigned newShop after :=
    (history_deliverAll unsigned newShop twoPayments).tail (.of_cancelSubscription hcancel)
  have hpayments : after.payments = twicePaidShop.payments := by rw [cancelSubscription_ok hcancel]
  have hmem : laterCharge.record ∈ after.payments := by
    rw [hpayments, payments_twicePaidShop]
    exact List.mem_cons_of_mem _ List.mem_cons_self
  have honly : OnlyRecord after.payments "R2" 7 .logit :=
    ⟨_, by rw [hpayments, payments_twicePaidShop]; rfl, rfl, rfl⟩
  have hsub : ∃ sub, after.subscriptions 7 .logit = some sub := by
    rw [cancelSubscription_ok hcancel, stopRenewal, hrow]
    exact ⟨_, rfl⟩
  have hended : Ended (reportAll shop unsigned after [refundNotice "R2" "M2"]) 7 .logit :=
    ended_reportAll unsigned honly
      (List.forall_mem_singleton.mpr (cancelReport_refundNotice "R2" "M2")) hsub
      (.inr ⟨_, List.mem_cons_self, accepted_refundNotice "R2" "M2"⟩)
  refine ⟨after, hcancel, hended, (changesOnlyOwn_iff rfl hrun (cancelReport_refundNotice "R2" "M2")
    hmem rfl).mpr fun _ type htype => .inl ?_⟩
  obtain rfl : .logit = type := value_injective htype
  rw [hpayments, payments_twicePaidShop]
  rfl

/-- A refund of the earlier payment ends the period of the later one. -/
theorem not_changesOnlyOwn :
    ¬ ∀ (settings : Settings) (encode : JwtEncode) (start db : Database) (delivery : Delivery)
      (rebillNo : String) (record : PaymentRecord), start.payments = [] →
      History settings encode start db → CancelReport rebillNo delivery →
      record ∈ db.payments → record.rebillNo = some rebillNo → ∀ userId type,
      (paymentWebhook settings encode db delivery).subscriptions userId type ≠
        db.subscriptions userId type →
      ∃ maker, madeBy db.payments userId type = some maker ∧ maker.rebillNo = some rebillNo := by
  intro h
  have hfirst : (liteCharge "R1" "M1" (.utc 2026 1 10 9)).record ∈ twicePaidShop.payments :=
    payments_twicePaidShop ▸ List.mem_cons_self
  obtain ⟨token, hrow⟩ := subscriptions_twicePaidShop
  have honly : OnlyRecord twicePaidShop.payments "R1" 7 .logit :=
    ⟨_, by rw [payments_twicePaidShop]; rfl, rfl, rfl⟩
  obtain ⟨payState, hafter⟩ := paymentWebhook_cancel unsigned
    (cancelReport_refundNotice "R1" "M1") (accepted_refundNotice "R1" "M1") honly
  obtain ⟨maker, hmaker, hrebillNo⟩ := h shop unsigned newShop twicePaidShop
    (refundNotice "R1" "M1") "R1" _ rfl (history_deliverAll unsigned newShop twoPayments)
    (cancelReport_refundNotice "R1" "M1") hfirst rfl 7 .logit (by
      rw [hafter]
      dsimp only
      rw [deactivateSubscription_apply, if_pos ⟨rfl, rfl⟩, ne_eq, map_deactivatedRow_eq_self]
      exact fun hdeactivated => Bool.noConfusion (hdeactivated _ hrow).1)
  rw [payments_twicePaidShop] at hmaker
  obtain rfl : laterCharge.record = maker := Option.some.inj hmaker
  exact absurd hrebillNo (by decide)

end Logit.Payments
