import Logit.Payments.Cancellation
import Logit.Payments.Entitlement

/-!
# Reports about one user

A report names its user, but the record it is about is looked up by the number of its
registration, and a report without a number is looked up by the empty text. PayApp gives every
registration a number of its own, so a report with a number finds a record of its user. Those
without one find each other: the report of one user is taken for that of another.

## Main definitions

* `StaysWithin` — a report leaves what other users have as it is
* `Disturbs` — a report has something to do with a record it finds
* `Serviced` — the databases that are reached while PayApp reports what has been registered

## Main results

* `staysWithin_iff_of_paid` — one report, by the record it finds
* `staysWithin_iff` — reports with a number stay within their user; when others do
-/

namespace Logit.Payments

open Calendar Python Security Subscriptions

variable (settings : Settings) (encode : JwtEncode)

/-- A report of one user leaves the records and subscriptions of all others as they are, and if
it is of a paid charge and passes the checks, it is not taken for a repetition of another's. -/
structure StaysWithin (db : Database) (delivery : Delivery) (userId : UUID) : Prop where
  payments : (paymentWebhook settings encode db delivery).payments.filter (·.userId ≠ userId) =
    db.payments.filter (·.userId ≠ userId)
  subscriptions : ∀ other ≠ userId, ∀ type,
    (paymentWebhook settings encode db delivery).subscriptions other type =
      db.subscriptions other type
  recorded : ∀ type plan price, Passes settings db delivery.form userId type plan price →
    handleWebhook settings encode db delivery = .ok (.success, db) →
    ∀ record, paymentOfRebill db.payments (delivery.form.rebillNo.getD "") = .ok (some record) →
      record.userId = userId

/-- A record shows a report already: the state it reports, and its fields. -/
def PaymentRecord.Shows (record : PaymentRecord) (form : WebhookForm) (payState : ℤ) : Prop :=
  record.payState = some payState ∧ record.rawWebhookData = some form.data

/-- A report has something to do with the record it finds: it is of a paid charge that passes the
checks, or of a cancellation that the record does not show yet, or whose subscription is not
deactivated. -/
def Disturbs (db : Database) (delivery : Delivery) (userId : UUID) (record : PaymentRecord) :
    Prop :=
  (∃ type plan price, Passes settings db delivery.form userId type plan price) ∨
    ∃ payState ∈ [8, 9, 32, 64], int 10 (delivery.form.payState.getD "0") = some payState ∧
      (¬ record.Shows delivery.form payState ∨
        ∃ type sub, record.subscriptionType = type.value ∧
          db.subscriptions record.userId type = some sub ∧ ¬ Deactivated type sub)

variable {settings encode} {db : Database} {delivery : Delivery} {userId : UUID}
  {record : PaymentRecord} {rebillNo : String} {payState : ℤ}

/-! ## What a report changes of others -/

theorem PaymentRecord.stated_eq_iff {form : WebhookForm} :
    record.stated form payState = record ↔ record.Shows form payState := by
  constructor
  · intro h
    exact ⟨(congrArg PaymentRecord.payState h).symm,
      (congrArg PaymentRecord.rawWebhookData h).symm⟩
  · rintro ⟨hstate, hfields⟩
    rw [PaymentRecord.stated, ← hstate, ← hfields]

/-- Another state of the only record of a number shows among the records of others if it is one
of theirs, and has not been as it is reported. -/
theorem filter_restate {payments : List PaymentRecord}
    (hone : recordsOf payments rebillNo = [record]) (form : WebhookForm) (payState : ℤ) :
    (payments.map (restate form payState rebillNo)).filter (·.userId ≠ userId) =
        payments.filter (·.userId ≠ userId) ↔
      record.userId = userId ∨ record.Shows form payState := by
  rw [← PaymentRecord.stated_eq_iff]
  have huser : ∀ other, (restate form payState rebillNo other).userId = other.userId := by
    intro other
    unfold restate
    split_ifs <;> rfl
  have hmem : ∀ other, other ∈ payments → other.rebillNo = some rebillNo → other = record := by
    intro other hother hnumber
    rw [← List.mem_singleton, ← hone]
    simp [recordsOf, hother, hnumber]
  have hrecord : record ∈ recordsOf payments rebillNo := hone ▸ List.mem_cons_self
  obtain ⟨hin, hnumber⟩ := List.mem_filter.mp hrecord
  rw [List.filter_map]
  have hsame : ((fun other : PaymentRecord => decide (other.userId ≠ userId)) ∘
      restate form payState rebillNo) = fun other => decide (other.userId ≠ userId) := by
    funext other
    simp [huser]
  rw [hsame]
  constructor
  · intro h
    by_contra hother
    rw [not_or] at hother
    obtain ⟨hne, hstate⟩ := hother
    have hfixed := List.map_inj_left.mp (h.trans (List.map_id _).symm) record
      (List.mem_filter.mpr ⟨hin, decide_eq_true hne⟩)
    rw [restate, if_pos (of_decide_eq_true hnumber)] at hfixed
    exact hstate hfixed
  · intro h
    refine (List.map_congr_left fun other hother => ?_).trans (List.map_id _)
    obtain ⟨hother, hne⟩ := List.mem_filter.mp hother
    unfold restate
    split_ifs with hits
    · obtain rfl := hmem other hother hits
      exact h.resolve_left (of_decide_eq_true hne)
    · rfl

/-- A deactivation shows among the subscriptions of others if it is of theirs, and the row has
not been deactivated before. -/
theorem forall_deactivateSubscription {subscriptions : SubscriptionTable} {owner : UUID}
    {type : SubscriptionType} :
    (∀ other ≠ userId, ∀ ty,
        deactivateSubscription subscriptions owner type other ty = subscriptions other ty) ↔
      owner = userId ∨ ∀ sub, subscriptions owner type = some sub → Deactivated type sub := by
  constructor
  · intro h
    by_cases howner : owner = userId
    · exact .inl howner
    · have hrow := h owner howner type
      rw [deactivateSubscription_apply, if_pos ⟨rfl, rfl⟩, map_deactivatedRow_eq_self] at hrow
      exact .inr hrow
  · intro h other hother ty
    rw [deactivateSubscription_apply]
    split_ifs with hrow
    · obtain ⟨rfl, rfl⟩ := hrow
      exact map_deactivatedRow_eq_self.mpr (h.resolve_left hother)
    · rfl

/-! ## One report -/

/-- Records as reports make them: of a paid charge, for a type of subscriptions. -/
def Paid (payments : List PaymentRecord) : Prop :=
  ∀ record ∈ payments, record.paidAt.isSome = true ∧ ∃ type, record.subscriptionType =
    SubscriptionType.value type

/-- A report of another state is not of a paid charge. -/
theorem StaysWithin.of_not_complete
    (hstate : int 10 (delivery.form.payState.getD "0") ≠ some 4)
    (hpayments : (paymentWebhook settings encode db delivery).payments.filter (·.userId ≠ userId) =
      db.payments.filter (·.userId ≠ userId))
    (hsubscriptions : ∀ other ≠ userId, ∀ type,
      (paymentWebhook settings encode db delivery).subscriptions other type =
        db.subscriptions other type) : StaysWithin settings encode db delivery userId :=
  ⟨hpayments, hsubscriptions, fun _ _ _ hpasses => absurd hpasses.complete hstate⟩

/-- A report of a paid charge whose number has a paid record is taken for a repetition. -/
theorem handleWebhook_repeated (encode : JwtEncode) (haccepted : Accepted settings delivery.form)
    (hstate : int 10 (delivery.form.payState.getD "0") = some 4)
    (hlookup : paymentOfRebill db.payments (delivery.form.rebillNo.getD "") = .ok (some record))
    (hpaid : record.paidAt.isSome = true) :
    handleWebhook settings encode db delivery = .ok (.success, db) := by
  rw [handleWebhook_complete encode db haccepted hstate, handlePaymentComplete_eq hlookup]
  exact if_pos hpaid

/-- A report of a paid charge writes what is its user's. -/
theorem staysWithin_complete_iff (encode : JwtEncode) (hpaid : Paid db.payments)
    (haccepted : Accepted settings delivery.form)
    (huser : UUID.parse (delivery.form.var1.getD "") = some userId)
    (hstate : int 10 (delivery.form.payState.getD "0") = some 4) :
    StaysWithin settings encode db delivery userId ↔
      ∀ record, recordsOf db.payments (delivery.form.rebillNo.getD "") = [record] →
        record.userId ≠ userId → ¬ Disturbs settings db delivery userId record := by
  have hcancel : ∀ payState, int 10 (delivery.form.payState.getD "0") = some payState →
      payState ∉ [8, 9, 32, 64] := by
    intro payState hpayState
    obtain rfl : 4 = payState := Option.some.inj (hstate.symm.trans hpayState)
    decide
  constructor
  · rintro h record hone hother (⟨type, plan, price, hpasses⟩ | ⟨payState, hmem, hpayState, -⟩)
    · have hrecord : record ∈ recordsOf db.payments (delivery.form.rebillNo.getD "") :=
        hone ▸ List.mem_cons_self
      have hlookup : paymentOfRebill db.payments (delivery.form.rebillNo.getD "") =
          .ok (some record) := by rw [paymentOfRebill, hone]
      have hreply := handleWebhook_repeated encode haccepted hstate hlookup
        (hpaid record (List.mem_filter.mp hrecord).1).1
      exact hother (h.recorded type plan price hpasses hreply record hlookup)
    · exact hcancel payState hpayState hmem
  · intro h
    have hwritten : (paymentWebhook settings encode db delivery).payments.filter
          (·.userId ≠ userId) = db.payments.filter (·.userId ≠ userId) ∧
        ∀ other ≠ userId, ∀ type, (paymentWebhook settings encode db delivery).subscriptions other
          type = db.subscriptions other type := by
      rcases paymentWebhook_complete settings encode db hstate with
        hsame | ⟨user, type, record, hchargeable, howner, -, -, -, sub, hafter⟩
      · rw [hsame]
        exact ⟨rfl, fun _ _ _ => rfl⟩
      · obtain ⟨plan, price, hpasses⟩ := hchargeable.passes
        obtain rfl : userId = user := Option.some.inj (huser.symm.trans hpasses.user)
        rw [hafter]
        refine ⟨?_, fun other hother ty => setSubscription_ne _ (fun hrow => hother hrow.1) _⟩
        rw [List.filter_append, List.filter_singleton, decide_eq_false (not_not.mpr howner)]
        exact List.append_nil _
    refine ⟨hwritten.1, hwritten.2, fun type plan price hpasses hreply record hlookup => ?_⟩
    by_contra hother
    exact h record (recordsOf_of_paymentOfRebill hlookup) hother
      (.inl ⟨type, plan, price, hpasses⟩)

/-- A report of a cancellation that finds no record is about the subscription it names, which is
its user's. -/
theorem staysWithin_of_unknown (huser : UUID.parse (delivery.form.var1.getD "") = some userId)
    (hcomplete : int 10 (delivery.form.payState.getD "0") ≠ some 4)
    (hhandled : handleWebhook settings encode db delivery =
      handlePaymentCancel db delivery.form (delivery.form.rebillNo.getD "") payState)
    (hnone : recordsOf db.payments (delivery.form.rebillNo.getD "") = []) :
    StaysWithin settings encode db delivery userId := by
  have hwritten : (paymentWebhook settings encode db delivery).payments = db.payments ∧
      ∀ other ≠ userId, ∀ type, (paymentWebhook settings encode db delivery).subscriptions other
        type = db.subscriptions other type := by
    unfold paymentWebhook
    rw [hhandled]
    cases hcases : handlePaymentCancel db delivery.form (delivery.form.rebillNo.getD "")
      payState with
    | error e => exact ⟨rfl, fun _ _ _ => rfl⟩
    | ok answer =>
      obtain ⟨reply, after⟩ := answer
      rcases handlePaymentCancel_cases hcases with
        ⟨record, type, hfound, -⟩ | ⟨user, type, -, hnamed, -, rfl⟩ | rfl
      · rw [paymentOfRebill, hnone] at hfound
        cases hfound
      · obtain rfl : userId = user := Option.some.inj (huser.symm.trans hnamed)
        exact ⟨rfl, forall_deactivateSubscription.mpr (.inl rfl)⟩
      · exact ⟨rfl, fun _ _ _ => rfl⟩
  exact .of_not_complete hcomplete (by rw [hwritten.1]) hwritten.2

/-- A report of a cancellation that finds a record is about it, whoever's it is. -/
theorem paymentWebhook_found {type : SubscriptionType}
    (hhandled : handleWebhook settings encode db delivery =
      handlePaymentCancel db delivery.form (delivery.form.rebillNo.getD "") payState)
    (hone : recordsOf db.payments (delivery.form.rebillNo.getD "") = [record])
    (htype : record.subscriptionType = type.value) :
    paymentWebhook settings encode db delivery =
      { db with
        payments :=
          db.payments.map (restate delivery.form payState (delivery.form.rebillNo.getD ""))
        subscriptions := deactivateSubscription db.subscriptions record.userId type } := by
  have hvalid : subscriptionType record.subscriptionType = .ok type := by
    rw [subscriptionType_eq_ok, htype, SubscriptionType.ofValue?_value]
  rw [paymentWebhook, hhandled, handlePaymentCancel, paymentOfRebill, hone]
  simp only [hvalid, bind, Except.bind, pure, Except.pure]

/-- Such a report stays within its user exactly if the record is the user's, or is as it is
reported already and its subscription is deactivated. -/
theorem staysWithin_found_iff {type : SubscriptionType}
    (hcomplete : int 10 (delivery.form.payState.getD "0") ≠ some 4)
    (hhandled : handleWebhook settings encode db delivery =
      handlePaymentCancel db delivery.form (delivery.form.rebillNo.getD "") payState)
    (hone : recordsOf db.payments (delivery.form.rebillNo.getD "") = [record])
    (htype : record.subscriptionType = type.value) :
    StaysWithin settings encode db delivery userId ↔ record.userId = userId ∨
      record.Shows delivery.form payState ∧
        ∀ sub, db.subscriptions record.userId type = some sub → Deactivated type sub := by
  have hafter := paymentWebhook_found hhandled hone htype
  rw [or_and_left, ← filter_restate hone delivery.form payState, ← forall_deactivateSubscription]
  constructor
  · intro h
    have hpayments := h.payments
    have hsubscriptions := h.subscriptions
    rw [hafter] at hpayments hsubscriptions
    exact ⟨hpayments, hsubscriptions⟩
  · rintro ⟨hpayments, hsubscriptions⟩
    exact .of_not_complete hcomplete (by rw [hafter]; exact hpayments)
      (by rw [hafter]; exact hsubscriptions)

/-- A report of a cancellation has something to do with a record that is not as it is reported, or
whose subscription is not deactivated. -/
theorem disturbs_cancel_iff {type : SubscriptionType}
    (hstate : int 10 (delivery.form.payState.getD "0") = some payState)
    (hcancel : payState ∈ [8, 9, 32, 64]) (htype : record.subscriptionType = type.value) :
    Disturbs settings db delivery userId record ↔ ¬ (record.Shows delivery.form payState ∧
      ∀ sub, db.subscriptions record.userId type = some sub → Deactivated type sub) := by
  rw [not_and_or]
  constructor
  · rintro (⟨_, _, _, hpasses⟩ | ⟨told, -, htold, hnot⟩)
    · obtain rfl : payState = 4 := Option.some.inj (hstate.symm.trans hpasses.complete)
      exact absurd hcancel (by decide)
    · obtain rfl : payState = told := Option.some.inj (hstate.symm.trans htold)
      refine hnot.imp_right ?_
      rintro ⟨ty, sub, hty, hsub, hactive⟩ hall
      obtain rfl : type = ty := value_injective (htype.symm.trans hty)
      exact hactive (hall sub hsub)
  · intro hnot
    refine .inr ⟨payState, hcancel, hstate, hnot.imp_right fun hactive => ?_⟩
    push Not at hactive
    obtain ⟨sub, hsub, hactive⟩ := hactive
    exact ⟨type, sub, htype, hsub, hactive⟩

/-- A report of a cancellation writes what is of the record it finds. -/
theorem staysWithin_cancel_iff (encode : JwtEncode) (hpaid : Paid db.payments)
    (haccepted : Accepted settings delivery.form)
    (huser : UUID.parse (delivery.form.var1.getD "") = some userId)
    (hstate : int 10 (delivery.form.payState.getD "0") = some payState)
    (hcancel : payState ∈ [8, 9, 32, 64]) :
    StaysWithin settings encode db delivery userId ↔
      ∀ record, recordsOf db.payments (delivery.form.rebillNo.getD "") = [record] →
        record.userId ≠ userId → ¬ Disturbs settings db delivery userId record := by
  have hcomplete : int 10 (delivery.form.payState.getD "0") ≠ some 4 := by
    rw [hstate]
    rintro ⟨⟩
    exact absurd hcancel (by decide)
  have hhandled : handleWebhook settings encode db delivery =
      handlePaymentCancel db delivery.form (delivery.form.rebillNo.getD "") payState :=
    handleWebhook_cancelled haccepted hstate hcancel
  rcases hrecords : recordsOf db.payments (delivery.form.rebillNo.getD "") with
    _ | ⟨record, _ | ⟨second, rest⟩⟩
  · exact iff_of_true (staysWithin_of_unknown huser hcomplete hhandled hrecords)
      (fun _ hone => by cases hone)
  · have hmem : record ∈ recordsOf db.payments (delivery.form.rebillNo.getD "") :=
      hrecords ▸ List.mem_cons_self
    obtain ⟨type, htype⟩ := (hpaid record (List.mem_filter.mp hmem).1).2
    rw [staysWithin_found_iff hcomplete hhandled hrecords htype]
    constructor
    · intro h found hone hother hdisturbs
      obtain rfl : record = found := List.singleton_inj.mp hone
      exact (disturbs_cancel_iff hstate hcancel htype).mp hdisturbs (h.resolve_left hother)
    · intro h
      by_contra hnot
      obtain ⟨hother, hshown⟩ := not_or.mp hnot
      exact h record rfl hother ((disturbs_cancel_iff hstate hcancel htype).mpr hshown)
  · -- The number has several records, and the report raises.
    have hsame : paymentWebhook settings encode db delivery = db := by
      rw [paymentWebhook, hhandled, handlePaymentCancel, paymentOfRebill, hrecords]
      rfl
    refine iff_of_true ?_ (fun _ hone => by cases hone)
    exact .of_not_complete hcomplete (by rw [hsame]) fun _ _ _ => by rw [hsame]

/-- One report of a user stays within its user exactly if the record it finds, if it finds one,
is the user's or it has nothing to do with it. -/
theorem staysWithin_iff_of_paid (encode : JwtEncode) (hpaid : Paid db.payments)
    (haccepted : Accepted settings delivery.form)
    (huser : UUID.parse (delivery.form.var1.getD "") = some userId) :
    StaysWithin settings encode db delivery userId ↔
      ∀ record, recordsOf db.payments (delivery.form.rebillNo.getD "") = [record] →
        record.userId ≠ userId → ¬ Disturbs settings db delivery userId record := by
  by_cases hcomplete : int 10 (delivery.form.payState.getD "0") = some 4
  · exact staysWithin_complete_iff encode hpaid haccepted huser hcomplete
  · by_cases hcancel : ∃ payState ∈ [8, 9, 32, 64],
        int 10 (delivery.form.payState.getD "0") = some payState
    · obtain ⟨payState, hmem, hstate⟩ := hcancel
      exact staysWithin_cancel_iff encode hpaid haccepted huser hstate hmem
    · -- The report is of no concern.
      have hsame : paymentWebhook settings encode db delivery = db := by
        unfold paymentWebhook
        cases hhandled : handleWebhook settings encode db delivery with
        | error e => rfl
        | ok answer =>
          rcases handleWebhook_ok hhandled with
            hunchanged | ⟨-, payState, hstate, ⟨rfl, -⟩ | ⟨hmem, -⟩⟩
          · exact hunchanged
          · exact absurd hstate hcomplete
          · exact absurd ⟨payState, hmem, hstate⟩ hcancel
      refine iff_of_true (.of_not_complete hcomplete (by rw [hsame]) fun _ _ _ => by rw [hsame]) ?_
      rintro record - - (⟨_, _, _, hpasses⟩ | ⟨payState, hmem, hstate, -⟩)
      · exact hcomplete hpasses.complete
      · exact hcancel ⟨payState, hmem, hstate⟩

/-! ## Runs -/

/-- A report of a user: its number, if it has one, has been registered for the user. -/
structure NoticeFor (registered : List Registration) (delivery : Delivery) (userId : UUID) :
    Prop where
  user : UUID.parse (delivery.form.var1.getD "") = some userId
  registered : ∀ rebillNo, delivery.form.rebillNo = some rebillNo →
    ∃ registration ∈ registered, registration.rebillNo = rebillNo ∧
      registration.request.userId = userId.str

variable (settings encode)

/-- The databases that are reached from an empty one, with the payments PayApp has registered so
far: every report that is accepted is one of a user. -/
inductive Serviced : List Registration → Database → Prop
  | empty {db : Database} (h : db.Empty) : Serviced [] db
  /-- PayApp registers a payment under a new number. -/
  | register {registered : List Registration} {db seen : Database} {now : Datetime}
      {userId : UUID} {req : PaymentInitiateRequest} {request : RebillRequest}
      {rebillNo : String} (h : Serviced registered db)
      (hrequest : initiateRequest settings seen now userId req = .ok request)
      (hnew : ∀ registration ∈ registered, registration.rebillNo ≠ rebillNo) :
      Serviced (⟨rebillNo, request⟩ :: registered) db
  | call {registered : List Registration} {db : Database} (h : Serviced registered db)
      (call : Call) (hfinds : call.Finds db)
      (hnotice : ∀ delivery, call = .handleWebhook delivery → Accepted settings delivery.form →
        ∃ userId, NoticeFor registered delivery userId) :
      Serviced registered (call.run settings encode db)
  | edit {registered : List Registration} {db : Database} (h : Serviced registered db)
      (users : UUID → Bool) (plans : String → Option Plan) :
      Serviced registered { db with users, plans }

variable {settings encode} {registered : List Registration}

/-- Records with a number are of the user it has been registered for. -/
structure Numbered (registered : List Registration) (payments : List PaymentRecord) : Prop where
  numbers : (registered.map (·.rebillNo)).Nodup
  paid : Paid payments
  registered : ∀ record ∈ payments, ∀ rebillNo, record.rebillNo = some rebillNo → rebillNo ≠ "" →
    ∃ registration ∈ registered, registration.rebillNo = rebillNo ∧
      registration.request.userId = record.userId.str

namespace Numbered

variable {payments : List PaymentRecord}

theorem nil : Numbered [] [] :=
  ⟨.nil, fun _ hrecord => absurd hrecord List.not_mem_nil,
    fun _ hrecord => absurd hrecord List.not_mem_nil⟩

theorem register (h : Numbered registered payments) {rebillNo : String} (request : RebillRequest)
    (hnew : ∀ registration ∈ registered, registration.rebillNo ≠ rebillNo) :
    Numbered (⟨rebillNo, request⟩ :: registered) payments where
  numbers := by
    rw [List.map_cons, List.nodup_cons]
    refine ⟨fun hmem => ?_, h.numbers⟩
    obtain ⟨registration, hregistration, hnumber⟩ := List.mem_map.mp hmem
    exact hnew registration hregistration hnumber
  paid := h.paid
  registered := by
    intro record hrecord number hnumber hne
    obtain ⟨registration, hmem, hregistration⟩ := h.registered record hrecord number hnumber hne
    exact ⟨registration, List.mem_cons_of_mem _ hmem, hregistration⟩

theorem map (h : Numbered registered payments) {change : PaymentRecord → PaymentRecord}
    (hchange : Restates change) : Numbered registered (payments.map change) where
  numbers := h.numbers
  paid := by
    intro record hrecord
    obtain ⟨before, hbefore, rfl⟩ := List.mem_map.mp hrecord
    obtain ⟨payState, rawWebhookData, hstate⟩ := hchange before
    rw [hstate]
    exact h.paid before hbefore
  registered := by
    intro record hrecord
    obtain ⟨before, hbefore, rfl⟩ := List.mem_map.mp hrecord
    obtain ⟨payState, rawWebhookData, hstate⟩ := hchange before
    rw [hstate]
    exact h.registered before hbefore

theorem append (h : Numbered registered payments) (hpaid : Paid [record])
    (hregistered : ∀ rebillNo, record.rebillNo = some rebillNo → rebillNo ≠ "" →
      ∃ registration ∈ registered, registration.rebillNo = rebillNo ∧
        registration.request.userId = record.userId.str) :
    Numbered registered (payments ++ [record]) where
  numbers := h.numbers
  paid := List.forall_mem_append.mpr ⟨h.paid, hpaid⟩
  registered := List.forall_mem_append.mpr
    ⟨h.registered, fun _ hmem => List.mem_singleton.mp hmem ▸ hregistered⟩

/-- A record that is found by a number is of the user it has been registered for. -/
theorem userId_eq (h : Numbered registered payments) (hrecord : record ∈ payments)
    (hnumber : record.rebillNo = some rebillNo) (hne : rebillNo ≠ "")
    {registration : Registration} (hmem : registration ∈ registered)
    (hregistration : registration.rebillNo = rebillNo)
    (huser : registration.request.userId = userId.str) : record.userId = userId := by
  obtain ⟨other, hother, hsame, howner⟩ := h.registered record hrecord rebillNo hnumber hne
  obtain rfl : other = registration :=
    List.inj_on_of_nodup_map h.numbers hother hmem (hsame.trans hregistration.symm)
  exact UUID.str_injective (howner.symm.trans huser)

theorem call (h : Numbered registered db.payments) (call : Call)
    (hnotice : ∀ delivery, call = .handleWebhook delivery → Accepted settings delivery.form →
      ∃ userId, NoticeFor registered delivery userId) :
    Numbered registered (call.run settings encode db).payments := by
  rcases call.payments_cases settings encode db with
    ⟨change, hchange, hpayments⟩ | ⟨delivery, user, type, record, hcall, hrecorded⟩
  · rw [hpayments]
    exact h.map hchange
  · obtain ⟨hchargeable, howner, htype, hnumber, hpaid, sub, hafter⟩ := hrecorded
    obtain ⟨plan, price, hpasses⟩ := hchargeable.passes
    obtain ⟨userId, huser, hregistered⟩ := hnotice delivery hcall hpasses.accepted
    obtain rfl : userId = user := Option.some.inj (huser.symm.trans hpasses.user)
    rw [hafter]
    refine h.append ?_ fun rebillNo hrebillNo hne => ?_
    · intro other hother
      rw [List.mem_singleton.mp hother, hpaid]
      exact ⟨rfl, type, htype⟩
    · -- A number that is not empty has been in the report.
      obtain rfl : _ = rebillNo := Option.some.inj (hnumber.symm.trans hrebillNo)
      rw [howner]
      cases hform : delivery.form.rebillNo with
      | none => exact absurd (by rw [hform]; rfl) hne
      | some number => exact hregistered number hform

end Numbered

theorem Serviced.numbered (h : Serviced settings encode registered db) :
    Numbered registered db.payments := by
  -- By induction on the run; only reports add records.
  induction h with
  | empty h =>
    rw [h.1]
    exact .nil
  | register h hrequest hnew ih => exact ih.register _ hnew
  | call h call hfinds hnotice ih => exact ih.call call hnotice
  | edit h users plans ih => exact ih

/-- In every run in which PayApp reports what has been registered, a report stays within its user
if it has a number; without one it does exactly if the only record without a number, if there is
one, is the user's or the report has nothing to do with it. -/
theorem staysWithin_iff (h : Serviced settings encode registered db)
    (haccepted : Accepted settings delivery.form)
    (hnotice : NoticeFor registered delivery userId) :
    StaysWithin settings encode db delivery userId ↔
      (delivery.form.rebillNo.getD "" = "" → ∀ record, recordsOf db.payments "" = [record] →
        record.userId ≠ userId → ¬ Disturbs settings db delivery userId record) := by
  have hnumbered := h.numbered
  rw [staysWithin_iff_of_paid encode hnumbered.paid haccepted hnotice.user]
  constructor
  · intro hstays hempty
    rwa [hempty] at hstays
  · intro hempty record hone hother
    by_cases hnumber : delivery.form.rebillNo.getD "" = ""
    · exact hempty hnumber record (hnumber ▸ hone) hother
    · -- The record has a number, which has been registered for this user.
      have hmem : record ∈ recordsOf db.payments (delivery.form.rebillNo.getD "") :=
        hone ▸ List.mem_cons_self
      obtain ⟨hrecord, hsame⟩ := List.mem_filter.mp hmem
      cases hform : delivery.form.rebillNo with
      | none => exact absurd (by rw [hform]; rfl) hnumber
      | some number =>
        rw [hform, Option.getD_some] at hnumber hsame
        obtain ⟨registration, hregistration, heq, howner⟩ := hnotice.registered number hform
        exact absurd (hnumbered.userId_eq hrecord (of_decide_eq_true hsame) hnumber hregistration
          heq howner) hother

/-- A report with a number that has been registered stays within its user. -/
theorem staysWithin_iff_numbered :
    StaysWithin shop unsigned newShop firstCharge.delivery 7 := by
  have hregistered : Serviced shop unsigned [⟨"R1", liteRequest⟩] newShop :=
    .register (.empty ⟨rfl, fun _ _ => rfl⟩) initiateRequest_lite
      fun _ hmem => absurd hmem List.not_mem_nil
  have hnotice : NoticeFor [⟨"R1", liteRequest⟩] firstCharge.delivery 7 := by
    refine ⟨firstCharge.user_eq, fun rebillNo hnumber => ?_⟩
    obtain rfl : "R1" = rebillNo := Option.some.inj hnumber
    exact ⟨_, List.mem_cons_self, rfl, by decide +kernel⟩
  refine (staysWithin_iff hregistered ⟨firstCharge.configured, firstCharge.verified⟩
    hnotice).mpr fun hempty => ?_
  exact absurd hempty (by decide)

/-! ### Reports without a number -/

/-- A report of the first charge that does not name its registration. -/
def unnumbered : Delivery :=
  { firstCharge.delivery with form := firstCharge.delivery.form.without ["rebill_no"] }

/-- The record that is made of it. -/
def unnumberedRecord : PaymentRecord :=
  { firstCharge.record with rebillNo := some "", rawWebhookData := some unnumbered.form.data }

/-- The shop once the charge has been reported so. -/
def unnumberedShop (token : Option String) : Database :=
  { newShop with
    payments := [unnumberedRecord]
    subscriptions := setSubscription newShop.subscriptions 7 .logit (firstCharge.period token) }

theorem exists_serviced_unnumbered : ∃ token, Serviced shop unsigned [] (unnumberedShop token) := by
  have haccepted : Accepted shop unnumbered.form := ⟨firstCharge.configured, firstCharge.verified⟩
  have hpasses : Passes shop newShop unnumbered.form 7 .logit .lite 6900 :=
    ⟨haccepted, firstCharge.paid, firstCharge.user_eq, planParts_planKey .logit .lite,
      firstCharge.offered, firstCharge.offered_eq, rfl, firstCharge.price_eq⟩
  obtain ⟨token, hcomplete⟩ :=
    handlePaymentComplete_first unsigned hpasses rfl rfl rfl firstCharge.secret
  have hafter : paymentWebhook shop unsigned newShop unnumbered = unnumberedShop token := by
    rw [paymentWebhook, handleWebhook_complete unsigned newShop haccepted firstCharge.paid,
      hcomplete]
    rfl
  have hcall : Serviced shop unsigned []
      ((Call.handleWebhook unnumbered).run shop unsigned newShop) := by
    refine .call (.empty ⟨rfl, fun _ _ => rfl⟩) (.handleWebhook unnumbered) trivial ?_
    rintro delivery ⟨⟩ -
    refine ⟨7, firstCharge.user_eq, ?_⟩
    intro rebillNo hnumber
    cases hnumber
  rw [Call.run, hafter] at hcall
  exact ⟨token, hcall⟩

/-- A report of a refund for another user, without a number. -/
def othersRefund : Delivery :=
  { unnumbered with
    form := (unnumbered.form.set "var1" "00000000-0000-0000-0000-000000000008").set
      "pay_state" "9" }

/-- A report of one user without a number refunds the charge of another. -/
theorem not_staysWithin :
    ¬ ∀ (settings : Settings) (encode : JwtEncode) (registered : List Registration)
      (db : Database) (delivery : Delivery) (userId : UUID),
      Serviced settings encode registered db → Accepted settings delivery.form →
      NoticeFor registered delivery userId → StaysWithin settings encode db delivery userId := by
  intro h
  obtain ⟨token, hserviced⟩ := exists_serviced_unnumbered
  have haccepted : Accepted shop othersRefund.form := ⟨firstCharge.configured, firstCharge.verified⟩
  have huser : UUID.parse (othersRefund.form.var1.getD "") = some 8 := by decide +kernel
  have hstays := h shop unsigned [] (unnumberedShop token) othersRefund 8 hserviced haccepted
    ⟨huser, nofun⟩
  rw [staysWithin_iff_of_paid unsigned hserviced.numbered.paid haccepted huser] at hstays
  refine hstays unnumberedRecord rfl (by decide) (.inr ?_)
  refine ⟨9, by decide, (by decide : int 10 "9" = some 9), .inl fun hshows => ?_⟩
  exact absurd hshows.1 (by decide)

end Logit.Payments
