import Logit.Payments.Notices

/-!
# Reports in any order

PayApp reports that a charge is paid, and that it is cancelled or refunded, and a network
may deliver these reports in any order and more than once. A cancellation that arrives
before the charge has been recorded leaves nothing behind that the report of the paid
charge would find; so the subscription has ended when all reports are handled only if a
cancellation comes after the report that records the charge.

## Main definitions

* `PaidNotice`, `CancelNotice` — the reports about one charge
* `Off` — a subscription has ended, and an MCP subscription has no token
* `CancelledLater` — a cancellation is reported after the paid charge

## Main results

* `off_reportAll_iff` — when a sequence of reports leaves the subscription ended
-/

namespace Logit.Payments

open Calendar Python Security Subscriptions

variable {settings : Settings} {encode : JwtEncode} {db : Database} {users : UUID → Bool}
  {plans : String → Option Plan} {delivery : Delivery} {deliveries : List Delivery}

/-! ## Reports about one charge -/

/-- A report that a charge is paid, received at any time. -/
def PaidNotice (charge : Charge settings users plans) (delivery : Delivery) : Prop :=
  delivery.form = charge.delivery.form

/-- A report that a charge has been cancelled or refunded; PayApp repeats in it what the
registration is for. -/
structure CancelNotice (charge : Charge settings users plans) (delivery : Delivery) : Prop where
  report : CancelReport charge.rebillNo delivery
  accepted : Accepted settings delivery.form
  var1_eq : delivery.form.var1 = charge.delivery.form.var1
  var2_eq : delivery.form.var2 = charge.delivery.form.var2

/-- A subscription is not active, and an MCP subscription has no token. -/
def Off (db : Database) (userId : UUID) (type : SubscriptionType) : Prop :=
  ∀ sub ∈ db.subscriptions userId type,
    sub.isActive = false ∧ (type = .mcp → sub.token = none)

/-- A report of a cancellation comes after a report of the paid charge. -/
def CancelledLater (charge : Charge settings users plans) (deliveries : List Delivery) : Prop :=
  ∃ paid cancel, PaidNotice charge paid ∧ CancelNotice charge cancel ∧
    List.Sublist [paid, cancel] deliveries

variable {charge : Charge settings users plans}

theorem PaidNotice.not_cancelNotice (h : PaidNotice charge delivery) :
    ¬ CancelNotice charge delivery := by
  rintro ⟨⟨-, payState, hmem, hpayState⟩, -, -, -⟩
  rw [h, charge.paid] at hpayState
  obtain rfl := Option.some.inj hpayState
  exact absurd hmem (by decide)

theorem pair_sublist_concat {α : Type} {a b c : α} {l : List α} :
    List.Sublist [a, b] (l ++ [c]) ↔ List.Sublist [a, b] l ∨ a ∈ l ∧ b = c := by
  constructor
  · intro h
    obtain ⟨first, second, heq, hfirst, hsecond⟩ := List.sublist_append_iff.mp h
    rcases List.sublist_singleton.mp hsecond with rfl | rfl
    · rw [List.append_nil] at heq
      exact .inl (heq ▸ hfirst)
    · obtain ⟨rfl, hlast⟩ := List.append_inj' (show [a] ++ [b] = first ++ [c] from heq) rfl
      exact .inr ⟨List.singleton_sublist.mp hfirst, List.singleton_inj.mp hlast⟩
  · rintro (h | ⟨h, rfl⟩)
    · exact h.trans (List.sublist_append_left l [c])
    · exact (List.singleton_sublist.mpr h).append (.refl [b])

/-- One more report: there is a cancellation after a report of the paid charge if there was one
before, or the new one is a cancellation and the charge has been reported as paid. -/
theorem cancelledLater_concat :
    CancelledLater charge (deliveries ++ [delivery]) ↔ CancelledLater charge deliveries ∨
      CancelNotice charge delivery ∧ ∃ paid ∈ deliveries, PaidNotice charge paid := by
  unfold CancelledLater
  simp only [pair_sublist_concat]
  constructor
  · rintro ⟨paid, cancel, hpaid, hcancel, hbefore | ⟨hmem, rfl⟩⟩
    · exact .inl ⟨paid, cancel, hpaid, hcancel, hbefore⟩
    · exact .inr ⟨hcancel, paid, hmem, hpaid⟩
  · rintro (⟨paid, cancel, hpaid, hcancel, hbefore⟩ | ⟨hcancel, paid, hmem, hpaid⟩)
    · exact ⟨paid, cancel, hpaid, hcancel, .inl hbefore⟩
    · exact ⟨paid, delivery, hpaid, hcancel, .inr ⟨hmem, rfl⟩⟩

/-! ## One report -/

/-- A report of a paid charge is one of the same charge. -/
def Charge.again (charge : Charge settings users plans) (h : PaidNotice charge delivery) :
    Charge settings users plans :=
  { charge with
    delivery
    verified := h ▸ charge.verified
    paid := h ▸ charge.paid
    rebillNo_eq := h ▸ charge.rebillNo_eq
    mulNo_eq := h ▸ charge.mulNo_eq
    user_eq := h ▸ charge.user_eq
    planKey_eq := h ▸ charge.planKey_eq
    price_eq := h ▸ charge.price_eq }

/-- The registration of a charge has no record yet. -/
structure Awaiting (charge : Charge settings users plans) (db : Database) : Prop where
  users_eq : db.users = users
  plans_eq : db.plans = plans
  unrecorded : recordsOf db.payments charge.rebillNo = []

/-- The registration of a charge has one record, of a payment for the same subscription. -/
structure Kept (charge : Charge settings users plans) (db : Database) : Prop where
  users_eq : db.users = users
  plans_eq : db.plans = plans
  only : ∃ record, recordsOf db.payments charge.rebillNo = [record] ∧
    PaidFor charge.user charge.type record

theorem off_deactivate (db : Database) (userId : UUID) (type : SubscriptionType) :
    Off { db with subscriptions := deactivateSubscription db.subscriptions userId type }
      userId type := by
  intro sub hsub
  dsimp only at hsub
  rw [deactivateSubscription_apply, if_pos ⟨rfl, rfl⟩, Option.mem_def,
    Option.map_eq_some_iff] at hsub
  obtain ⟨before, -, rfl⟩ := hsub
  exact ⟨rfl, fun hmcp => if_pos hmcp⟩

variable (encode)

theorem Awaiting.paid (h : Awaiting charge db) (hdelivery : PaidNotice charge delivery) :
    Kept charge (paymentWebhook settings encode db delivery) ∧
      ¬ Off (paymentWebhook settings encode db delivery) charge.user charge.type := by
  obtain ⟨rfl, rfl, hnone⟩ := h
  have hlookup : paymentOfRebill db.payments charge.rebillNo = .ok none := by
    rw [paymentOfRebill, hnone]
  obtain ⟨token, hafter⟩ := paymentWebhook_first encode (charge.again hdelivery) hlookup
  rw [show (charge.again hdelivery).delivery = delivery from rfl] at hafter
  rw [hafter]
  refine ⟨⟨rfl, rfl, (charge.again hdelivery).record, ?_, rfl, rfl, rfl⟩, fun hoff => ?_⟩
  · have hnew : recordsOf [(charge.again hdelivery).record] charge.rebillNo =
        [(charge.again hdelivery).record] := by
      simp [recordsOf, Charge.record, Charge.newRecord, paidPeriod, Charge.again]
    rw [recordsOf, List.filter_append, ← recordsOf, ← recordsOf, hnone, hnew, List.nil_append]
  · exact Bool.noConfusion (hoff _ (setSubscription_self _ _ _ _)).1

theorem Awaiting.cancelled (h : Awaiting charge db) (hdelivery : CancelNotice charge delivery) :
    Awaiting charge (paymentWebhook settings encode db delivery) ∧
      Off (paymentWebhook settings encode db delivery) charge.user charge.type := by
  obtain ⟨payState, hhandled⟩ :=
    handleWebhook_cancel encode db hdelivery.report hdelivery.accepted
  have hlookup : paymentOfRebill db.payments charge.rebillNo = .ok none := by
    rw [paymentOfRebill, h.unrecorded]
  have htype : SubscriptionType.ofValue?
      ((split ':' (planKey charge.type charge.plan)).head?.getD "") = some charge.type := by
    cases charge.type <;> cases charge.plan <;> decide
  have hafter : paymentWebhook settings encode db delivery =
      { db with
        subscriptions := deactivateSubscription db.subscriptions charge.user charge.type } := by
    simp [paymentWebhook, hhandled, handlePaymentCancel, hlookup, hdelivery.var1_eq,
      hdelivery.var2_eq, charge.user_eq, charge.planKey_eq, htype, bind, Except.bind, pure,
      Except.pure]
  rw [hafter]
  exact ⟨⟨h.users_eq, h.plans_eq, h.unrecorded⟩, off_deactivate db charge.user charge.type⟩

theorem Kept.paid (h : Kept charge db) (hdelivery : PaidNotice charge delivery) :
    paymentWebhook settings encode db delivery = db := by
  obtain ⟨rfl, rfl, record, hone, hfor⟩ := h
  have hlookup : paymentOfRebill db.payments charge.rebillNo = .ok (some record) := by
    rw [paymentOfRebill, hone]
  exact paymentWebhook_repeated (charge.again hdelivery) hlookup hfor.2.2

theorem Kept.cancelled (h : Kept charge db) (hdelivery : CancelNotice charge delivery) :
    Kept charge (paymentWebhook settings encode db delivery) ∧
      Off (paymentWebhook settings encode db delivery) charge.user charge.type := by
  obtain ⟨rfl, rfl, record, hone, huser, htype, hpaid⟩ := h
  obtain ⟨payState, hafter⟩ := paymentWebhook_cancel encode hdelivery.report hdelivery.accepted
    ⟨record, hone, huser, htype⟩
  obtain ⟨state, data, hstate⟩ :=
    restates_restate delivery.form payState charge.rebillNo record
  rw [hafter]
  refine ⟨⟨rfl, rfl, restate delivery.form payState charge.rebillNo record, ?_, ?_⟩,
    off_deactivate
      { db with payments := db.payments.map (restate delivery.form payState charge.rebillNo) } _ _⟩
  · rw [recordsOf_map (restate_rebillNo delivery.form payState), hone, List.map_singleton]
  · rw [hstate]
    exact ⟨huser, htype, hpaid⟩

/-! ## Sequences of reports -/

theorem reportAll_concat (deliveries : List Delivery) (delivery : Delivery) :
    reportAll settings encode db (deliveries ++ [delivery]) =
      paymentWebhook settings encode (reportAll settings encode db deliveries) delivery := by
  simp [reportAll]

/-- Once the charge has its record, a cancellation ends the subscription for good. -/
theorem Kept.reportAll (h : Kept charge db)
    (hdeliveries : ∀ d ∈ deliveries, PaidNotice charge d ∨ CancelNotice charge d) :
    Kept charge (reportAll settings encode db deliveries) ∧
      ((∃ d ∈ deliveries, CancelNotice charge d) →
        Off (Payments.reportAll settings encode db deliveries) charge.user charge.type) := by
  induction deliveries using List.reverseRecOn with
  | nil => exact ⟨h, fun ⟨_, hmem, _⟩ => absurd hmem List.not_mem_nil⟩
  | append_singleton deliveries delivery ih =>
    obtain ⟨hkept, hoff⟩ := ih fun d hd => hdeliveries d (List.mem_append_left _ hd)
    rw [reportAll_concat]
    rcases hdeliveries delivery (List.mem_append_right _ List.mem_cons_self) with hpaid | hcancel
    · rw [hkept.paid encode hpaid]
      refine ⟨hkept, fun ⟨d, hmem, hcancelled⟩ => hoff ⟨d, ?_, hcancelled⟩⟩
      rcases List.mem_append.mp hmem with hmem | hmem
      · exact hmem
      · rw [List.mem_singleton.mp hmem] at hcancelled
        exact absurd hcancelled hpaid.not_cancelNotice
    · exact ⟨(hkept.cancelled encode hcancel).1, fun _ => (hkept.cancelled encode hcancel).2⟩

/-- Before a report of the paid charge nothing is recorded; after it, the subscription has ended
exactly if a cancellation has come later. -/
theorem Awaiting.reportAll (h : Awaiting charge db)
    (hdeliveries : ∀ d ∈ deliveries, PaidNotice charge d ∨ CancelNotice charge d) :
    (Awaiting charge (reportAll settings encode db deliveries) ∧
        ∀ d ∈ deliveries, ¬ PaidNotice charge d) ∨
      (Kept charge (Payments.reportAll settings encode db deliveries) ∧
        (∃ d ∈ deliveries, PaidNotice charge d) ∧
        (Off (Payments.reportAll settings encode db deliveries) charge.user charge.type ↔
          CancelledLater charge deliveries)) := by
  induction deliveries using List.reverseRecOn with
  | nil => exact .inl ⟨h, fun _ hmem => absurd hmem List.not_mem_nil⟩
  | append_singleton deliveries delivery ih =>
    have hlast := hdeliveries delivery (List.mem_append_right _ List.mem_cons_self)
    rw [reportAll_concat, cancelledLater_concat]
    rcases ih fun d hd => hdeliveries d (List.mem_append_left _ hd) with
      ⟨hawaiting, hnone⟩ | ⟨hkept, ⟨paid, hmem, hpaid⟩, hoff⟩
    · have hnever : ¬ CancelledLater charge deliveries := by
        rintro ⟨paid, cancel, hpaid, -, hbefore⟩
        exact hnone paid (hbefore.subset List.mem_cons_self) hpaid
      rcases hlast with hpaid | hcancel
      · obtain ⟨hkept, hon⟩ := hawaiting.paid encode hpaid
        refine .inr ⟨hkept, ⟨delivery, by simp, hpaid⟩, iff_of_false hon ?_⟩
        rintro (hlater | ⟨hcancel, -⟩)
        · exact hnever hlater
        · exact hpaid.not_cancelNotice hcancel
      · refine .inl ⟨(hawaiting.cancelled encode hcancel).1, fun d hd hpaid => ?_⟩
        rcases List.mem_append.mp hd with hd | hd
        · exact hnone d hd hpaid
        · rw [List.mem_singleton.mp hd] at hpaid
          exact hpaid.not_cancelNotice hcancel
    · right
      rcases hlast with hagain | hcancel
      · rw [hkept.paid encode hagain]
        refine ⟨hkept, ⟨paid, List.mem_append_left _ hmem, hpaid⟩, hoff.trans ?_⟩
        exact ⟨.inl, fun hlater => hlater.resolve_right fun hcancel =>
          hagain.not_cancelNotice hcancel.1⟩
      · obtain ⟨hstill, hended⟩ := hkept.cancelled encode hcancel
        exact ⟨hstill, ⟨paid, List.mem_append_left _ hmem, hpaid⟩,
          iff_of_true hended (.inr ⟨hcancel, paid, hmem, hpaid⟩)⟩

variable {encode}

/-- In a history that starts without payments: after any sequence of reports about a charge,
with the paid charge and a cancellation among them, the subscription has ended if and only if
the registration has been recorded before, or a cancellation comes after a report of the paid
charge. -/
theorem off_reportAll_iff {start : Database} (charge : Charge settings db.users db.plans)
    (hempty : start.payments = []) (hrun : History settings encode start db)
    (hsame : ∀ record ∈ db.payments, record.rebillNo = some charge.rebillNo →
      record.userId = charge.user ∧ record.subscriptionType = charge.type.value)
    (hdeliveries : ∀ d ∈ deliveries, PaidNotice charge d ∨ CancelNotice charge d)
    (hpaid : ∃ d ∈ deliveries, PaidNotice charge d)
    (hcancelled : ∃ d ∈ deliveries, CancelNotice charge d) :
    Off (reportAll settings encode db deliveries) charge.user charge.type ↔
      recordsOf db.payments charge.rebillNo ≠ [] ∨ CancelledLater charge deliveries := by
  have hbooked := Booked.of_history hempty hrun
  by_cases hnone : recordsOf db.payments charge.rebillNo = []
  · have hawaiting : Awaiting charge db := ⟨rfl, rfl, hnone⟩
    rcases hawaiting.reportAll encode hdeliveries with ⟨-, hnever⟩ | ⟨-, -, hoff⟩
    · obtain ⟨d, hmem, hd⟩ := hpaid
      exact absurd hd (hnever d hmem)
    · rw [hoff]
      exact ⟨.inr, fun h => h.resolve_left (not_not.mpr hnone)⟩
  · obtain ⟨record, hrecord⟩ := List.exists_mem_of_ne_nil _ hnone
    obtain ⟨hmem, hrebillNo⟩ := List.mem_filter.mp hrecord
    have hrebillNo := of_decide_eq_true hrebillNo
    have hkept : Kept charge db := ⟨rfl, rfl, record,
      recordsOf_eq_singleton hbooked hmem hrebillNo, (hsame record hmem hrebillNo).1,
      (hsame record hmem hrebillNo).2, (hbooked.paid record hmem).1⟩
    exact iff_of_true ((hkept.reportAll encode hdeliveries).2 hcancelled) (.inl hnone)

/-! ### A charge and its refund -/

theorem cancelNotice_refundNotice : CancelNotice firstCharge (refundNotice "R1" "M1") :=
  ⟨cancelReport_refundNotice "R1" "M1", accepted_refundNotice "R1" "M1", rfl, rfl⟩

/-- The refund is reported after the charge. -/
theorem off_reportAll_iff_refunded :
    Off (reportAll shop unsigned newShop [firstCharge.delivery, refundNotice "R1" "M1"]) 7
      .logit := by
  refine (off_reportAll_iff firstCharge (show newShop.payments = [] from rfl) .refl
    (fun _ hrecord => absurd hrecord List.not_mem_nil) (fun d hd => ?_)
    ⟨_, List.mem_cons_self, rfl⟩
    ⟨_, List.mem_cons_of_mem _ List.mem_cons_self, cancelNotice_refundNotice⟩).mpr
      (.inr ⟨_, _, rfl, cancelNotice_refundNotice, .refl _⟩)
  rcases List.mem_cons.mp hd with rfl | hd
  · exact .inl rfl
  · rw [List.mem_singleton.mp hd]
    exact .inr cancelNotice_refundNotice

/-- A refund that is reported before the charge leaves the subscription active. -/
theorem not_off_reportAll :
    ¬ ∀ (settings : Settings) (encode : JwtEncode) (start db : Database)
      (charge : Charge settings db.users db.plans) (deliveries : List Delivery),
      start.payments = [] → History settings encode start db →
      (∀ record ∈ db.payments, record.rebillNo = some charge.rebillNo →
        record.userId = charge.user ∧ record.subscriptionType = charge.type.value) →
      (∀ sub ∈ db.subscriptions charge.user charge.type, sub.isActive = false) →
      (∀ d ∈ deliveries, PaidNotice charge d ∨ CancelNotice charge d) →
      (∃ d ∈ deliveries, PaidNotice charge d) → (∃ d ∈ deliveries, CancelNotice charge d) →
      Off (reportAll settings encode db deliveries) charge.user charge.type := by
  intro h
  have hoff := h shop unsigned newShop newShop firstCharge
    [refundNotice "R1" "M1", firstCharge.delivery] rfl .refl
    (fun _ hrecord => absurd hrecord List.not_mem_nil) (fun _ hsub => nomatch hsub) (fun d hd => by
      rcases List.mem_cons.mp hd with rfl | hd
      · exact .inr cancelNotice_refundNotice
      · rw [List.mem_singleton.mp hd]
        exact .inl rfl)
    ⟨_, List.mem_cons_of_mem _ List.mem_cons_self, rfl⟩
    ⟨_, List.mem_cons_self, cancelNotice_refundNotice⟩
  have hawaiting : Awaiting firstCharge newShop := ⟨rfl, rfl, rfl⟩
  obtain ⟨hstill, -⟩ := hawaiting.cancelled unsigned cancelNotice_refundNotice
  have hpaid : PaidNotice firstCharge firstCharge.delivery := rfl
  exact (hstill.paid unsigned hpaid).2 hoff

end Logit.Payments
