import Logit.Payments.Notices
import Logit.Subscriptions.Service

/-!
# Active subscriptions are paid for

Reports, users, administrators and expiry all write subscriptions, and a row does not say
which payment it comes from. Still only a report that carries the credentials of the
service and the price of its plan makes a row active or gives it another period; it adds
the record of a payment for the same period. Other calls leave the period, and a record
changes its state only with a refund or when its subscription is deactivated. So in every
run from an empty database the active subscriptions have been paid for.

## Main definitions

* `adminDeactivateSubscription` — an administrator deactivates a subscription
* `Call`, `Run` — the calls, and the states they reach with the calls so far
* `PaidBy` — the payment a subscription runs on
* `Grants` — a call activates or extends a subscription

## Main results

* `Call.run_cases`, `Call.payments_cases` — what a call can do to payments and subscriptions
* `entitled_of_run` — active subscriptions are paid for, and only reports grant them
-/

namespace Logit.Payments

open Calendar Python Security Subscriptions

/-! ## Calls -/

/-- Deactivates a subscription at once. With the database comes the registration PayApp is
asked to cancel; its answer makes no difference. -/
def adminDeactivateSubscription (settings : Settings) (db : Database)
    (last : Option PaymentRecord) (userId : UUID) (type : SubscriptionType) :
    Except PaymentError (Option String × Database) :=
  match db.subscriptions userId type with
  | none => .error (.valueError (type.value ++ " 구독이 없습니다."))
  | some sub =>
    let rebillNo := last.bind (·.rebillNo)
    let asked :=
      if isSet settings.PAYAPP_USERID ∧ isSet settings.PAYAPP_LINKKEY then rebillNo.filter (· ≠ "")
      else none
    .ok (asked,
      { db with
        subscriptions := setSubscription db.subscriptions userId type (deactivatedRow type sub) })

/-- A call that returns has deactivated the subscription, and has written nothing else. -/
theorem adminDeactivateSubscription_ok {settings : Settings} {db after : Database}
    {last : Option PaymentRecord} {userId : UUID} {type : SubscriptionType}
    {asked : Option String}
    (h : adminDeactivateSubscription settings db last userId type = .ok (asked, after)) :
    after =
      { db with subscriptions := deactivateSubscription db.subscriptions userId type } := by
  unfold adminDeactivateSubscription at h
  cases hrow : db.subscriptions userId type with
  | none =>
    rw [hrow] at h
    cases h
  | some sub =>
    rw [hrow] at h
    cases h
    simp only [deactivateSubscription, hrow]

/-- A call that reads or writes payments and subscriptions, with what it draws from outside. -/
inductive Call
  | handleWebhook (delivery : Delivery)
  | cancelSubscription (cancelRebill : String → PayAppAnswer) (last : Option PaymentRecord)
      (userId : UUID) (type : SubscriptionType)
  | adminDeactivateSubscription (last : Option PaymentRecord) (userId : UUID)
      (type : SubscriptionType)
  | refundPayment (cancelPayment : String → PayAppAnswer) (paymentId : UUID)
  | getAllSubscriptions (userId : UUID) (now : Datetime)
  | getSubscriptionByType (userId : UUID) (type : SubscriptionType) (now : Datetime)
  | getActiveSubscription (userId : UUID) (type : SubscriptionType) (now : Datetime)
  | getOrCreateMcpToken (userId : UUID) (now issuedAt : Datetime)

/-- What a call has been told of the last payment is what its query may find. -/
def Call.Finds (db : Database) : Call → Prop
  | .cancelSubscription _ last userId type => LastPayment db.payments userId type last
  | .adminDeactivateSubscription last userId type => LastPayment db.payments userId type last
  | _ => True

variable (settings : Settings) (encode : JwtEncode)

/-- The database after a call; one that raises leaves it as it was. -/
def Call.run (db : Database) : Call → Database
  | .handleWebhook delivery => paymentWebhook settings encode db delivery
  | .cancelSubscription cancelRebill last userId type =>
    match Payments.cancelSubscription settings cancelRebill db last userId type with
    | .ok after => after
    | .error _ => db
  | .adminDeactivateSubscription last userId type =>
    match Payments.adminDeactivateSubscription settings db last userId type with
    | .ok (_, after) => after
    | .error _ => db
  | .refundPayment cancelPayment paymentId =>
    match Payments.refundPayment settings cancelPayment db paymentId with
    | .ok after => after
    | .error _ => db
  | .getAllSubscriptions userId now =>
    { db with subscriptions := (Subscriptions.getAllSubscriptions db.subscriptions userId now).2 }
  | .getSubscriptionByType userId type now =>
    { db with
      subscriptions := (Subscriptions.getSubscriptionByType db.subscriptions userId type now).2 }
  | .getActiveSubscription _ _ _ => db
  | .getOrCreateMcpToken userId now issuedAt =>
    match Subscriptions.getOrCreateMcpToken settings.toMcpSettings encode db.subscriptions userId
        now issuedAt with
    | some (_, subscriptions) => { db with subscriptions }
    | none => db

/-- There are no payments and no subscriptions. -/
def Database.Empty (db : Database) : Prop :=
  db.payments = [] ∧ ∀ userId type, db.subscriptions userId type = none

/-- The databases that are reached from an empty one, with the calls so far, each with the
database it has found. Users and plans may change in between. -/
inductive Run : List (Database × Call) → Database → Prop
  | empty {db : Database} (h : db.Empty) : Run [] db
  | call {log : List (Database × Call)} {db : Database} (h : Run log db) (call : Call)
      (hfinds : call.Finds db) : Run ((db, call) :: log) (call.run settings encode db)
  | edit {log : List (Database × Call)} {db : Database} (h : Run log db) (users : UUID → Bool)
      (plans : String → Option Plan) : Run log { db with users, plans }

/-! ## Payments and subscriptions -/

/-- A record as it was made by a report, at the price its plan had then. -/
def MadeBy (log : List (Database × Call)) (userId : UUID) (type : SubscriptionType)
    (plan : SubscriptionPlan) (record : PaymentRecord) : Prop :=
  ∃ seen delivery, (seen, .handleWebhook delivery) ∈ log ∧
    Passes settings seen delivery.form userId type plan record.amount ∧
    (paymentWebhook settings encode seen delivery).payments =
      seen.payments ++
        [{ record with payState := some 4, rawWebhookData := some delivery.form.data }]

/-- The payment a subscription runs on. -/
structure PaidBy (log : List (Database × Call)) (db : Database) (userId : UUID)
    (type : SubscriptionType) (sub : Subscription) (record : PaymentRecord) : Prop where
  mem : record ∈ db.payments
  paidFor : PaidFor userId type record
  plan_eq : record.plan = sub.plan.value
  period : PeriodOf record sub
  payState_mem : record.payState ∈ [some 4, some 9]
  madeBy : MadeBy settings encode log userId type sub.plan record

/-- A subscription has been activated or extended: its row was not there, it was not active, or
it had another plan or period. -/
def Grants (before after : SubscriptionTable) (userId : UUID) (type : SubscriptionType) : Prop :=
  ∃ sub, after userId type = some sub ∧ ¬ ∃ earlier, before userId type = some earlier ∧
    Subscription.paid sub = Subscription.paid earlier ∧
      (sub.isActive = true → earlier.isActive = true)

/-- No subscription has been granted, and a record is in another state only if it is refunded
or its subscription is not active. -/
structure Carried (db after : Database) : Prop where
  not_grants : ∀ userId type, ¬ Grants db.subscriptions after.subscriptions userId type
  restated : ∀ record ∈ db.payments, ∃ payState rawWebhookData,
    { record with payState, rawWebhookData } ∈ after.payments ∧
      (payState = record.payState ∨ payState = some 9 ∨ ∀ type sub,
        record.subscriptionType = type.value → after.subscriptions record.userId type = some sub →
          sub.isActive = false)

/-- A report has granted a subscription, and has added the record of its payment. -/
structure Granted (db after : Database) (delivery : Delivery) (userId : UUID)
    (type : SubscriptionType) (sub : Subscription) (record : PaymentRecord) : Prop where
  passes : Passes settings db delivery.form userId type sub.plan record.amount
  paidFor : PaidFor userId type record
  plan_eq : record.plan = sub.plan.value
  period : PeriodOf record sub
  payState_eq : record.payState = some 4
  rawWebhookData_eq : record.rawWebhookData = some delivery.form.data
  after_eq : after =
    { db with
      payments := db.payments ++ [record]
      subscriptions := setSubscription db.subscriptions userId type sub }

variable {settings encode} {log : List (Database × Call)} {db after : Database} {userId : UUID}
  {type : SubscriptionType}

/-! ### Calls that grant nothing -/

theorem not_grants_iff {before after : SubscriptionTable} :
    ¬ Grants before after userId type ↔ ∀ sub, after userId type = some sub →
      ∃ earlier, before userId type = some earlier ∧
        Subscription.paid sub = Subscription.paid earlier ∧
          (sub.isActive = true → earlier.isActive = true) := by
  unfold Grants
  rw [not_exists]
  exact forall_congr' fun sub => by rw [not_and, not_not]

namespace Carried

/-- A call that leaves the payments, and of every row at least the plan and the period. -/
theorem of_rows {subscriptions : SubscriptionTable}
    (h : ∀ userId type, ¬ Grants db.subscriptions subscriptions userId type) :
    Carried db { db with subscriptions } :=
  ⟨h, fun record hrecord => ⟨record.payState, record.rawWebhookData, hrecord, .inl rfl⟩⟩

theorem refl (db : Database) : Carried db db :=
  of_rows fun _ _ => not_grants_iff.mpr fun sub hsub => ⟨sub, hsub, rfl, id⟩

/-- One row is written with its plan and period, and is not activated. -/
theorem of_setRow (db : Database) (userId : UUID) (type : SubscriptionType)
    {change : Subscription → Subscription}
    (hpaid : ∀ sub, Subscription.paid (change sub) = Subscription.paid sub)
    (hactive : ∀ sub, (change sub).isActive = true → sub.isActive = true) :
    Carried db { db with
      subscriptions :=
        setRow db.subscriptions userId type ((db.subscriptions userId type).map change) } := by
  refine of_rows fun user ty => not_grants_iff.mpr fun sub hsub => ?_
  rw [setRow_apply] at hsub
  split_ifs at hsub with hrow
  · obtain ⟨rfl, rfl⟩ := hrow
    obtain ⟨earlier, hearlier, rfl⟩ := Option.map_eq_some_iff.mp hsub
    exact ⟨earlier, hearlier, hpaid earlier, hactive earlier⟩
  · exact ⟨sub, hsub, rfl, id⟩

end Carried

theorem setRow_self (subscriptions : SubscriptionTable) (userId : UUID) (type : SubscriptionType) :
    setRow subscriptions userId type (subscriptions userId type) = subscriptions := by
  funext user ty
  rw [setRow_apply]
  split_ifs with hrow
  · rw [hrow.1, hrow.2]
  · rfl

/-- A row that is there is written, and otherwise nothing. -/
theorem setRow_map (subscriptions : SubscriptionTable) (userId : UUID) (type : SubscriptionType)
    (change : Subscription → Subscription) :
    setRow subscriptions userId type ((subscriptions userId type).map change) =
      match subscriptions userId type with
      | none => subscriptions
      | some sub => setSubscription subscriptions userId type (change sub) := by
  have hself := setRow_self subscriptions userId type
  cases hrow : subscriptions userId type with
  | none => rwa [hrow] at hself
  | some sub => rfl

theorem paid_syncExpired (now : Datetime) (sub : Subscription) :
    Subscription.paid (syncExpired now sub) = Subscription.paid sub := by
  unfold syncExpired
  split_ifs <;> rfl

theorem isActive_of_syncExpired {now : Datetime} {sub : Subscription}
    (h : (syncExpired now sub).isActive = true) : sub.isActive = true := by
  unfold syncExpired at h
  split_ifs at h
  exact h

theorem carried_deactivate (db : Database) (userId : UUID) (type : SubscriptionType) :
    Carried db
      { db with subscriptions := deactivateSubscription db.subscriptions userId type } := by
  have h := Carried.of_setRow db userId type (fun sub => rfl : ∀ sub,
    Subscription.paid (deactivatedRow type sub) = Subscription.paid sub) nofun
  rwa [setRow_map] at h

theorem carried_cancelSubscription {cancelRebill : String → PayAppAnswer}
    {last : Option PaymentRecord}
    (h : cancelSubscription settings cancelRebill db last userId type = .ok after) :
    Carried db after := by
  have hrow := Carried.of_setRow db userId type (fun sub => rfl : ∀ sub,
    Subscription.paid { sub with isAutoRenew := false } = Subscription.paid sub) fun _ => id
  rw [setRow_map] at hrow
  obtain rfl := cancelSubscription_ok h
  exact hrow

theorem carried_adminDeactivateSubscription {last : Option PaymentRecord} {asked : Option String}
    (h : adminDeactivateSubscription settings db last userId type = .ok (asked, after)) :
    Carried db after := by
  obtain rfl := adminDeactivateSubscription_ok h
  exact carried_deactivate db userId type

theorem carried_getAllSubscriptions (db : Database) (userId : UUID) (now : Datetime) :
    Carried db
      { db with subscriptions := (getAllSubscriptions db.subscriptions userId now).2 } := by
  refine .of_rows fun user ty => not_grants_iff.mpr fun sub hsub => ?_
  simp only [getAllSubscriptions] at hsub
  split_ifs at hsub with huser
  · obtain ⟨earlier, hearlier, rfl⟩ := Option.map_eq_some_iff.mp hsub
    exact ⟨earlier, huser ▸ hearlier, paid_syncExpired now earlier, isActive_of_syncExpired⟩
  · exact ⟨sub, hsub, rfl, id⟩

theorem carried_getOrCreateMcpToken {now issuedAt : Datetime} {answer : String × Bool}
    {subscriptions : SubscriptionTable}
    (h : getOrCreateMcpToken settings.toMcpSettings encode db.subscriptions userId now issuedAt =
      some (answer, subscriptions)) :
    Carried db { db with subscriptions } := by
  rcases getOrCreateMcpToken_eq_some h with rfl | ⟨sub, token, hsub, rfl⟩
  · exact .refl db
  · have hrow := Carried.of_setRow db userId .mcp (fun sub => rfl : ∀ sub,
      Subscription.paid { sub with token := some token } = Subscription.paid sub) fun _ => id
    rwa [hsub] at hrow

/-- A refund marks records as refunded. -/
theorem carried_withRefund (db : Database) (paymentId : UUID) :
    Carried db (db.withRefund paymentId) := by
  refine ⟨(Carried.refl db).not_grants, fun record hrecord => ?_⟩
  have hmem := List.mem_map_of_mem (f := refunded paymentId) hrecord
  unfold refunded at hmem
  split_ifs at hmem
  · exact ⟨some 9, record.rawWebhookData, hmem, .inr (.inl rfl)⟩
  · exact ⟨record.payState, record.rawWebhookData, hmem, .inl rfl⟩

/-- A report of a cancellation restates the record of the subscription it deactivates. -/
theorem carried_handlePaymentCancel {form : WebhookForm} {rebillNo : String} {payState : ℤ}
    {reply : WebhookReply}
    (h : handlePaymentCancel db form rebillNo payState = .ok (reply, after)) :
    Carried db after := by
  rcases handlePaymentCancel_cases h with
    ⟨found, type, hlookup, htype, rfl⟩ | ⟨userId, type, -, -, -, rfl⟩ | rfl
  · refine ⟨(carried_deactivate db found.userId type).not_grants, fun record hrecord => ?_⟩
    have hmem := List.mem_map_of_mem (f := restate form payState rebillNo) hrecord
    unfold restate at hmem
    split_ifs at hmem with hrebillNo
    · -- The registration has no other record, so its subscription is the one deactivated.
      have hmem' : record ∈ recordsOf db.payments rebillNo := by
        simp [recordsOf, hrecord, hrebillNo]
      rw [recordsOf_of_paymentOfRebill hlookup, List.mem_singleton] at hmem'
      subst hmem'
      refine ⟨some payState, some form.data, hmem, .inr (.inr fun ty sub hty hsub => ?_)⟩
      rw [subscriptionType_eq_ok, hty, SubscriptionType.ofValue?_value] at htype
      obtain rfl := Option.some.inj htype
      simp only [deactivateSubscription_apply, true_and, if_true] at hsub
      obtain ⟨earlier, -, rfl⟩ := Option.map_eq_some_iff.mp hsub
      rfl
    · exact ⟨record.payState, record.rawWebhookData, hmem, .inl rfl⟩
  · exact carried_deactivate db userId type
  · exact .refl after

/-! ### Calls that may grant a subscription -/

/-- A payment that is recorded grants the subscription it is for. -/
theorem granted_of_recordPayment {delivery : Delivery} {rebillNo : String}
    {mulNo : Option String} {dbPlan : Plan} {reply : WebhookReply}
    (haccepted : Accepted settings delivery.form)
    (hcomplete : int 10 (delivery.form.payState.getD "0") = some 4)
    (huser : UUID.parse (delivery.form.var1.getD "") = some userId)
    (hplan : db.plans (delivery.form.var2.getD "") = some dbPlan)
    (hprice : int 10 (delivery.form.price.getD "") = some dbPlan.price)
    (h : recordPayment settings encode db delivery rebillNo mulNo userId dbPlan =
      .ok (reply, after)) :
    ∃ type sub record, Granted settings db after delivery userId type sub record := by
  obtain ⟨subType, planText, subscriptions, record, hparts, -, hactivated, rfl⟩ :=
    recordPayment_activates h
  obtain ⟨type, plan, token, htype, hplanText, rfl, rfl⟩ := activateSubscription_ok hactivated
  have htypeValue : type.value = subType := SubscriptionType.value_of_ofValue? htype
  have hplanValue : plan.value = planText := SubscriptionPlan.value_of_ofValue? hplanText
  refine ⟨type, _, _, ⟨haccepted, hcomplete, huser, ?_, dbPlan, hplan, rfl, hprice⟩,
    ⟨rfl, htypeValue.symm, rfl⟩, hplanValue.symm, ⟨rfl, rfl⟩, rfl, rfl, rfl⟩
  rw [htypeValue, hplanValue]
  exact hparts

/-- A report grants nothing, or it passes the checks and grants one subscription. -/
theorem paymentWebhook_carried_or_granted (settings : Settings) (encode : JwtEncode)
    (db : Database) (delivery : Delivery) :
    Carried db (paymentWebhook settings encode db delivery) ∨ ∃ userId type sub record,
      Granted settings db (paymentWebhook settings encode db delivery) delivery userId type sub
        record := by
  unfold paymentWebhook
  cases hhandled : handleWebhook settings encode db delivery with
  | error e => exact .inl (.refl db)
  | ok answer =>
    obtain ⟨reply, after⟩ := answer
    rcases handleWebhook_ok hhandled with
      rfl | ⟨haccepted, payState, hpayState, ⟨rfl, hcomplete⟩ | ⟨-, hcancel⟩⟩
    · exact .inl (.refl after)
    · rcases handlePaymentComplete_cases hcomplete with
        rfl | ⟨-, userId, dbPlan, -, -, huser, hplan, hprice, hok⟩
      · exact .inl (.refl after)
      · exact .inr ⟨userId,
          granted_of_recordPayment haccepted hpayState huser hplan hprice hok⟩
    · exact .inl (carried_handlePaymentCancel hcancel)

/-- After a report a row has its plan and its period, or a period that starts with the report. -/
theorem paid_of_paymentWebhook {delivery : Delivery} {sub : Subscription}
    (hsub : (paymentWebhook settings encode db delivery).subscriptions userId type = some sub) :
    (∃ earlier, db.subscriptions userId type = some earlier ∧
        Subscription.paid sub = Subscription.paid earlier) ∨
      sub.startedAt = delivery.activatedAt ∧
        sub.expiresAt = some (delivery.activatedAt.addDays 31) := by
  unfold paymentWebhook at hsub
  cases hhandled : handleWebhook settings encode db delivery with
  | error e =>
    rw [hhandled] at hsub
    exact .inl ⟨sub, hsub, rfl⟩
  | ok answer =>
    obtain ⟨reply, after⟩ := answer
    rw [hhandled] at hsub
    dsimp only at hsub
    rcases handleWebhook_ok hhandled with
      rfl | ⟨-, payState, -, ⟨-, hcomplete⟩ | ⟨-, hcancel⟩⟩
    · exact .inl ⟨sub, hsub, rfl⟩
    · rcases handlePaymentComplete_cases hcomplete with
        rfl | ⟨-, user, dbPlan, -, -, -, -, -, hok⟩
      · exact .inl ⟨sub, hsub, rfl⟩
      · obtain ⟨subType, planText, subscriptions, record, -, -, hactivated, rfl⟩ :=
          recordPayment_activates hok
        obtain ⟨ty, plan, token, -, -, -, rfl⟩ := activateSubscription_ok hactivated
        dsimp only at hsub
        by_cases hown : userId = user ∧ type = ty
        · obtain ⟨rfl, rfl⟩ := hown
          rw [setSubscription_self, Option.some.injEq] at hsub
          exact .inr ⟨hsub ▸ rfl, hsub ▸ rfl⟩
        · rw [setSubscription_ne _ hown] at hsub
          exact .inl ⟨sub, hsub, rfl⟩
    · obtain ⟨earlier, hearlier, hpaid, -⟩ := not_grants_iff.mp
        ((carried_handlePaymentCancel hcancel).not_grants userId type) sub hsub
      exact .inl ⟨earlier, hearlier, hpaid⟩

/-- What a call can do: it grants nothing, or it is a report that passes the checks. -/
theorem Call.run_cases (settings : Settings) (encode : JwtEncode) (db : Database) (call : Call) :
    Carried db (call.run settings encode db) ∨ ∃ delivery userId type sub record,
      call = .handleWebhook delivery ∧
        Granted settings db (call.run settings encode db) delivery userId type sub record := by
  cases call with
  | handleWebhook delivery =>
    rcases paymentWebhook_carried_or_granted settings encode db delivery with
      hcarried | ⟨userId, type, sub, record, hgranted⟩
    · exact .inl hcarried
    · exact .inr ⟨delivery, userId, type, sub, record, rfl, hgranted⟩
  | cancelSubscription cancelRebill last userId type =>
    left
    rw [Call.run]
    split
    · next h => exact carried_cancelSubscription h
    · exact .refl db
  | adminDeactivateSubscription last userId type =>
    left
    rw [Call.run]
    split
    · next h => exact carried_adminDeactivateSubscription h
    · exact .refl db
  | refundPayment cancelPayment paymentId =>
    left
    rw [Call.run]
    split
    · next h => exact refundPayment_ok h ▸ carried_withRefund db paymentId
    · exact .refl db
  | getAllSubscriptions userId now => exact .inl (carried_getAllSubscriptions db userId now)
  | getSubscriptionByType userId type now =>
    exact .inl (.of_setRow db userId type (paid_syncExpired now)
      fun _ => isActive_of_syncExpired)
  | getActiveSubscription userId type now => exact .inl (.refl db)
  | getOrCreateMcpToken userId now issuedAt =>
    left
    rw [Call.run]
    split
    · next h => exact carried_getOrCreateMcpToken h
    · exact .refl db

/-- Records that are as they were are restated. -/
theorem restates_same (payments : List PaymentRecord) :
    ∃ change, Restates change ∧ payments = payments.map change :=
  ⟨id, fun record => ⟨record.payState, record.rawWebhookData, rfl⟩, (List.map_id payments).symm⟩

/-- A report restates the records of payments, or it adds one. -/
theorem paymentWebhook_payments (settings : Settings) (encode : JwtEncode) (db : Database)
    (delivery : Delivery) :
    (∃ change, Restates change ∧
        (paymentWebhook settings encode db delivery).payments = db.payments.map change) ∨
      ∃ userId type record, RecordedFor settings delivery db
        (paymentWebhook settings encode db delivery) userId type record := by
  unfold paymentWebhook
  cases hhandled : handleWebhook settings encode db delivery with
  | error e => exact .inl (restates_same db.payments)
  | ok answer =>
    obtain ⟨reply, after⟩ := answer
    rcases handleWebhook_ok hhandled with
      rfl | ⟨haccepted, payState, hstate, ⟨rfl, hcomplete⟩ | ⟨-, hcancel⟩⟩
    · exact .inl (restates_same after.payments)
    · rcases handlePaymentComplete_ok haccepted hstate hcomplete with rfl | hrecorded
      · exact .inl (restates_same after.payments)
      · exact .inr hrecorded
    · left
      rcases handlePaymentCancel_cases hcancel with
        ⟨record, type, -, -, rfl⟩ | ⟨user, type, -, -, -, rfl⟩ | rfl
      · exact ⟨_, restates_restate _ payState _, rfl⟩
      · exact restates_same db.payments
      · exact restates_same after.payments

/-- What a call can do to the records of payments: it restates them, or it is a report that adds
one. -/
theorem Call.payments_cases (settings : Settings) (encode : JwtEncode) (db : Database)
    (call : Call) :
    (∃ change, Restates change ∧
        (call.run settings encode db).payments = db.payments.map change) ∨
      ∃ delivery userId type record, call = .handleWebhook delivery ∧
        RecordedFor settings delivery db (call.run settings encode db) userId type record := by
  have hsame := restates_same db.payments
  cases call with
  | handleWebhook delivery =>
    rcases paymentWebhook_payments settings encode db delivery with
      hrestated | ⟨userId, type, record, hrecorded⟩
    · exact .inl hrestated
    · exact .inr ⟨delivery, userId, type, record, rfl, hrecorded⟩
  | cancelSubscription cancelRebill last userId type =>
    rw [Call.run]
    split
    · next h =>
      rw [cancelSubscription_ok h]
      exact .inl hsame
    · exact .inl hsame
  | adminDeactivateSubscription last userId type =>
    rw [Call.run]
    split
    · next h =>
      rw [adminDeactivateSubscription_ok h]
      exact .inl hsame
    · exact .inl hsame
  | refundPayment cancelPayment paymentId =>
    rw [Call.run]
    split
    · next h =>
      rw [refundPayment_ok h]
      exact .inl ⟨_, restates_refunded paymentId, rfl⟩
    · exact .inl hsame
  | getAllSubscriptions userId now => exact .inl hsame
  | getSubscriptionByType userId type now => exact .inl hsame
  | getActiveSubscription userId type now => exact .inl hsame
  | getOrCreateMcpToken userId now issuedAt =>
    rw [Call.run]
    split
    · exact .inl hsame
    · exact .inl hsame

/-! ## Runs -/

theorem MadeBy.later {plan : SubscriptionPlan} {record : PaymentRecord} {payState : Option ℤ}
    {rawWebhookData : Option StrDict} {entry : Database × Call}
    (h : MadeBy settings encode log userId type plan record) :
    MadeBy settings encode (entry :: log) userId type plan
      { record with payState, rawWebhookData } := by
  obtain ⟨seen, delivery, hmem, hpasses, hadded⟩ := h
  exact ⟨seen, delivery, List.mem_cons_of_mem _ hmem, hpasses, hadded⟩

/-- Every active subscription runs on a payment. -/
def Entitled (settings : Settings) (encode : JwtEncode) (log : List (Database × Call))
    (db : Database) : Prop :=
  ∀ userId type sub, db.subscriptions userId type = some sub → sub.isActive = true →
    ∃ record, PaidBy settings encode log db userId type sub record

namespace Entitled

theorem of_empty (h : db.Empty) : Entitled settings encode [] db := by
  intro userId type sub hsub
  rw [h.2 userId type] at hsub
  cases hsub

theorem edit (h : Entitled settings encode log db) (users : UUID → Bool)
    (plans : String → Option Plan) : Entitled settings encode log { db with users, plans } := by
  intro userId type sub hsub hactive
  obtain ⟨record, hmem, hpaidFor, hplan, hperiod, hstate, hmadeBy⟩ :=
    h userId type sub hsub hactive
  exact ⟨record, hmem, hpaidFor, hplan, hperiod, hstate, hmadeBy⟩

/-- The payment of a subscription that is still active is still there. -/
theorem carried {call : Call} (h : Entitled settings encode log db) (hcarried : Carried db after) :
    Entitled settings encode ((db, call) :: log) after := by
  intro userId type sub hsub hactive
  obtain ⟨earlier, hearlier, hpaid, hstill⟩ :=
    not_grants_iff.mp (hcarried.not_grants userId type) sub hsub
  obtain ⟨record, hmem, hpaidFor, hplan, ⟨hstarted, hexpires⟩, hstate, hmadeBy⟩ :=
    h userId type earlier hearlier (hstill hactive)
  obtain ⟨payState, rawWebhookData, hmem', hrestated⟩ := hcarried.restated record hmem
  simp only [Subscription.paid, Prod.mk.injEq] at hpaid
  obtain ⟨hplanEq, hstartedEq, hexpiresEq⟩ := hpaid
  refine ⟨{ record with payState, rawWebhookData }, hmem', hpaidFor, ?_, ⟨?_, ?_⟩, ?_, ?_⟩
  · rw [hplanEq]
    exact hplan
  · rw [hstartedEq]
    exact hstarted
  · rw [hexpiresEq]
    exact hexpires
  · -- The subscription is active, so the record is as it was, or refunded.
    rcases hrestated with hsame | hrefunded | hinactive
    · rw [hsame]
      exact hstate
    · simp [hrefunded]
    · obtain ⟨rfl, htype, -⟩ := hpaidFor
      rw [hinactive type sub htype hsub] at hactive
      cases hactive
  · rw [hplanEq]
    exact hmadeBy.later

/-- The subscription that is granted runs on the payment that is added. -/
theorem granted {delivery : Delivery} {sub : Subscription} {record : PaymentRecord}
    (h : Entitled settings encode log db)
    (hgranted : Granted settings db (paymentWebhook settings encode db delivery) delivery userId
      type sub record) :
    Entitled settings encode ((db, .handleWebhook delivery) :: log)
      (paymentWebhook settings encode db delivery) := by
  obtain ⟨hpasses, hpaidFor, hplan, hperiod, hstate, hdata, hafter⟩ := hgranted
  have hpayments : (paymentWebhook settings encode db delivery).payments =
      db.payments ++ [record] := by rw [hafter]
  have hrow : (paymentWebhook settings encode db delivery).subscriptions =
      setSubscription db.subscriptions userId type sub := by rw [hafter]
  intro user ty row hsub hactive
  rw [hrow] at hsub
  by_cases hown : user = userId ∧ ty = type
  · obtain ⟨rfl, rfl⟩ := hown
    rw [setSubscription_self, Option.some.injEq] at hsub
    subst hsub
    refine ⟨record, ?_, hpaidFor, hplan, hperiod, ?_, db, delivery, by simp, hpasses, ?_⟩
    · rw [hpayments]
      exact List.mem_append_right _ (List.mem_singleton_self _)
    · rw [hstate]
      decide
    · rw [hpayments, ← hstate, ← hdata]
  · rw [setSubscription_ne _ hown] at hsub
    obtain ⟨other, hmem, hother, hplan', hperiod', hstate', hmadeBy⟩ := h user ty row hsub hactive
    refine ⟨other, ?_, hother, hplan', hperiod', hstate', hmadeBy.later⟩
    rw [hpayments]
    exact List.mem_append_left _ hmem

end Entitled

theorem Run.entitled (h : Run settings encode log db) : Entitled settings encode log db := by
  -- By induction on the run; a call carries the payments over, or grants one subscription.
  induction h with
  | empty h => exact .of_empty h
  | @call log db h call hfinds ih =>
    rcases call.run_cases settings encode db with
      hcarried | ⟨delivery, userId, type, sub, record, rfl, hgranted⟩
    · exact ih.carried hcarried
    · exact ih.granted hgranted
  | edit h users plans ih => exact ih.edit users plans

/-- In every run from an empty database, every active subscription has a payment of the same
user, type, plan and period, which is paid or refunded and was made by a report that passed the
checks, at the price of the plan then; and a call that activates or extends a subscription is a
report that passes them. -/
theorem entitled_of_run (h : Run settings encode log db) :
    Entitled settings encode log db ∧ ∀ (call : Call) (userId : UUID) (type : SubscriptionType),
      Grants db.subscriptions (call.run settings encode db).subscriptions userId type →
        ∃ delivery plan price, call = .handleWebhook delivery ∧
          Passes settings db delivery.form userId type plan price := by
  refine ⟨h.entitled, fun call userId type hgrants => ?_⟩
  rcases call.run_cases settings encode db with
    hcarried | ⟨delivery, user, ty, sub, record, hcall, hgranted⟩
  · exact absurd hgrants (hcarried.not_grants userId type)
  · by_cases hown : userId = user ∧ type = ty
    · obtain ⟨rfl, rfl⟩ := hown
      exact ⟨delivery, sub.plan, record.amount, hcall, hgranted.passes⟩
    · -- The other subscriptions are as they were.
      obtain ⟨row, hrow, hnot⟩ := hgrants
      rw [hgranted.after_eq] at hrow
      dsimp only at hrow
      rw [setSubscription_ne _ hown] at hrow
      exact absurd ⟨row, hrow, rfl, id⟩ hnot

/-- The calls of a refund, the last one first. -/
def refundLog : List (Database × Call) :=
  [(paidShop, .refundPayment (fun _ => accepted) firstCharge.record.id),
    (newShop, .handleWebhook firstCharge.delivery)]

theorem run_refundLog :
    Run shop unsigned refundLog (paidShop.withRefund firstCharge.record.id) := by
  have hpaid : Run shop unsigned [(newShop, .handleWebhook firstCharge.delivery)] paidShop :=
    .call (.empty ⟨rfl, fun _ _ => rfl⟩) (.handleWebhook firstCharge.delivery) trivial
  have hrefund := Run.call hpaid (.refundPayment (fun _ => accepted) firstCharge.record.id) trivial
  rwa [Call.run, refundPayment_paidShop] at hrefund

/-- A subscription goes on after a refund, and its payment is still there. -/
theorem entitled_of_run_refunded : ∃ token record,
    PaidBy shop unsigned refundLog (paidShop.withRefund firstCharge.record.id)
      firstCharge.record.userId .logit (firstCharge.period token) record := by
  obtain ⟨token, hsub⟩ := subscriptions_paidShop
  obtain ⟨record, hrecord⟩ :=
    (entitled_of_run run_refundLog).1 firstCharge.record.userId .logit _ hsub rfl
  exact ⟨token, record, hrecord⟩

end Logit.Payments
