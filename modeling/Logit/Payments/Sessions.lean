import Logit.Concurrency.Pool
import Logit.Payments.Ordering
import Logit.Users.Model

/-!
# Webhooks at the same time

Reports may be handled at the same time, each in a database session of its own. A report
of a paid charge looks for a record of the registration, and inserts one later; nothing in
between keeps another session from doing the same, and the table takes two records of one
registration. Only a user without a subscription is protected, because the table of
subscriptions takes one row of a user and type. What a session has not committed no other
session sees, so its writes are one step with the commit.

## Main definitions

* `WebhookTask`, `WebhookAct` — a session, and its statements
* `OneRecord` — every registration has at most one record
* `Unrecorded` — the condition on a commit

## Main results

* `runs_paymentWebhook` — a session that runs alone does what a report does
* `oneRecord_of_reachable` — while records are added only to registrations without one,
  registrations have one record and can be looked up
-/

namespace Logit.Payments

open Calendar Concurrency Python Security Subscriptions Users

/-! ## Sessions -/

/-- What is left of a row that has been loaded and assigned to. -/
def writeRow (stored loaded assigned : Subscription) : Subscription where
  isActive := flush stored.isActive loaded.isActive assigned.isActive
  plan := flush stored.plan loaded.plan assigned.plan
  token := flush stored.token loaded.token assigned.token
  isAutoRenew := flush stored.isAutoRenew loaded.isAutoRenew assigned.isAutoRenew
  startedAt := flush stored.startedAt loaded.startedAt assigned.startedAt
  expiresAt := flush stored.expiresAt loaded.expiresAt assigned.expiresAt

/-- What is left of a record when another state has been assigned to the one loaded. -/
def writeState (loaded assigned stored : PaymentRecord) : PaymentRecord :=
  if stored.id = loaded.id then
    { stored with
      payState := flush stored.payState loaded.payState assigned.payState
      rawWebhookData :=
        flush stored.rawWebhookData loaded.rawWebhookData assigned.rawWebhookData }
  else stored

/-- Where a session stands between its statements. -/
inductive WebhookTask
  | received (delivery : Delivery)
  /-- No paid record of the registration has been found. -/
  | unpaid (delivery : Delivery)
  /-- The plan has been found at its price, and the record is about to be inserted. -/
  | recording (delivery : Delivery) (record : PaymentRecord)
  /-- The record has been inserted and the subscription read; both are about to be committed. -/
  | activating (record : PaymentRecord) (type : SubscriptionType) (seen : Option Subscription)
      (assigned : Subscription)
  /-- A cancellation is about to read the subscription; its record, if any, has been read. -/
  | cancelling (restated : Option (PaymentRecord × PaymentRecord)) (userId : UUID)
      (type : SubscriptionType)
  | deactivating (restated : Option (PaymentRecord × PaymentRecord)) (userId : UUID)
      (type : SubscriptionType) (seen : Option Subscription)
  | over

/-- The table after a row that has been loaded is written. -/
def writeSubscription (subscriptions : SubscriptionTable) (userId : UUID) (type : SubscriptionType)
    (loaded assigned : Subscription) : SubscriptionTable :=
  match subscriptions userId type with
  | none => subscriptions
  | some stored => setSubscription subscriptions userId type (writeRow stored loaded assigned)

variable (settings : Settings) (encode : JwtEncode)

/-- One statement of a session, with the commit that follows its writes. -/
inductive WebhookAct : Database → WebhookTask → Database → WebhookTask → Prop
  | lookUp {db : Database} {delivery : Delivery} {existing : Option PaymentRecord}
      (haccepted : Accepted settings delivery.form)
      (hstate : int 10 (delivery.form.payState.getD "0") = some 4)
      (hlookup : paymentOfRebill db.payments (delivery.form.rebillNo.getD "") = .ok existing)
      (hunpaid : ¬ (existing.bind (·.paidAt)).isSome = true) :
      WebhookAct db (.received delivery) db (.unpaid delivery)
  | readPlan {db : Database} {delivery : Delivery} {userId : UUID} {dbPlan : Plan}
      {subType plan : String} (huser : UUID.parse (delivery.form.var1.getD "") = some userId)
      (hplan : db.plans (delivery.form.var2.getD "") = some dbPlan)
      (hprice : int 10 (delivery.form.price.getD "") = some dbPlan.price)
      (hparts : planParts (delivery.form.var2.getD "") = .ok (subType, plan)) :
      WebhookAct db (.unpaid delivery) db
        (.recording delivery (newRecord delivery userId subType plan dbPlan.price))
  | insert {db : Database} {delivery : Delivery} {record paid : PaymentRecord}
      {type : SubscriptionType} {subscriptions : SubscriptionTable} {assigned : Subscription}
      (huser : db.users record.userId = true)
      (hactivated : activateSubscription settings encode db.subscriptions delivery.activatedAt
        record = .ok (subscriptions, paid))
      (htype : SubscriptionType.ofValue? record.subscriptionType = some type)
      (hassigned : subscriptions record.userId type = some assigned) :
      WebhookAct db (.recording delivery record) db
        (.activating paid type (db.subscriptions record.userId type) assigned)
  /-- The table of subscriptions has no row of the user and type. -/
  | commitFirst {db : Database} {record : PaymentRecord} {type : SubscriptionType}
      {assigned : Subscription} (hfree : db.subscriptions record.userId type = none) :
      WebhookAct db (.activating record type none assigned)
        { db with
          payments := db.payments ++ [record]
          subscriptions := setSubscription db.subscriptions record.userId type assigned } .over
  | commitAgain {db : Database} {record : PaymentRecord} {type : SubscriptionType}
      {loaded assigned : Subscription}
      (hrow : (db.subscriptions record.userId type).isSome = true) :
      WebhookAct db (.activating record type (some loaded) assigned)
        { db with
          payments := db.payments ++ [record]
          subscriptions :=
            writeSubscription db.subscriptions record.userId type loaded assigned } .over
  | lookUpCancelled {db : Database} {delivery : Delivery} {record : PaymentRecord} {payState : ℤ}
      {type : SubscriptionType} (haccepted : Accepted settings delivery.form)
      (hstate : int 10 (delivery.form.payState.getD "0") = some payState)
      (hcancel : payState ∈ [8, 9, 32, 64])
      (hlookup : paymentOfRebill db.payments (delivery.form.rebillNo.getD "") = .ok (some record))
      (htype : SubscriptionType.ofValue? record.subscriptionType = some type) :
      WebhookAct db (.received delivery) db
        (.cancelling (some (record, record.stated delivery.form payState)) record.userId type)
  | lookUpNamed {db : Database} {delivery : Delivery} {payState : ℤ} {userId : UUID}
      {type : SubscriptionType} (haccepted : Accepted settings delivery.form)
      (hstate : int 10 (delivery.form.payState.getD "0") = some payState)
      (hcancel : payState ∈ [8, 9, 32, 64])
      (hlookup : paymentOfRebill db.payments (delivery.form.rebillNo.getD "") = .ok none)
      (huser : UUID.parse (delivery.form.var1.getD "") = some userId)
      (htype : SubscriptionType.ofValue? ((split ':' (delivery.form.var2.getD "")).headD "") =
        some type) :
      WebhookAct db (.received delivery) db (.cancelling none userId type)
  | readCancelled {db : Database} {restated : Option (PaymentRecord × PaymentRecord)}
      {userId : UUID} {type : SubscriptionType} :
      WebhookAct db (.cancelling restated userId type) db
        (.deactivating restated userId type (db.subscriptions userId type))
  | commitCancelled {db : Database} {restated : Option (PaymentRecord × PaymentRecord)}
      {userId : UUID} {type : SubscriptionType} {seen : Option Subscription} :
      WebhookAct db (.deactivating restated userId type seen)
        { db with
          payments := match restated with
            | none => db.payments
            | some (loaded, assigned) => db.payments.map (writeState loaded assigned)
          subscriptions := match seen with
            | none => db.subscriptions
            | some loaded => writeSubscription db.subscriptions userId type loaded
                (deactivatedRow type loaded) } .over
  /-- A session may end at any statement, without a trace: the report is of no concern, a check
  fails, a statement raises, or the connection is lost. -/
  | leave {db : Database} {task : WebhookTask} : WebhookAct db task db .over

/-- A session that starts. -/
def WebhookTask.Starts : WebhookTask → Prop
  | .received _ => True
  | _ => False

/-- Everything but the list of payments may change by itself, and so may their states. -/
def OtherSessions (db db' : Database) : Prop :=
  ∃ change, Restates change ∧ db'.payments = db.payments.map change

/-- The sessions that handle reports. -/
def webhooks : Program Database WebhookTask :=
  ⟨OtherSessions, WebhookTask.Starts, WebhookAct settings encode⟩

/-- Every registration has at most one record. -/
def OneRecord (payments : List PaymentRecord) : Prop :=
  ∀ rebillNo, (recordsOf payments rebillNo).length ≤ 1

/-- The condition on a commit: a record is added only if its registration still has none. -/
def Unrecorded (db : Database) (task : WebhookTask) (db' : Database) : Prop :=
  ∀ record type seen assigned, task = .activating record type seen assigned →
    db'.payments ≠ db.payments →
      ∀ rebillNo ∈ record.rebillNo, recordsOf db.payments rebillNo = []

variable {settings encode} {db after : Database} {delivery : Delivery}

/-! ## One session alone -/

theorem writeRow_self (loaded assigned : Subscription) :
    writeRow loaded loaded assigned = assigned := by
  simp [writeRow]

theorem writeSubscription_self {subscriptions : SubscriptionTable} {userId : UUID}
    {type : SubscriptionType} {loaded : Subscription}
    (h : subscriptions userId type = some loaded) (assigned : Subscription) :
    writeSubscription subscriptions userId type loaded assigned =
      setSubscription subscriptions userId type assigned := by
  simp only [writeSubscription, h, writeRow_self]

/-- The records of a registration with one record are those with its id. -/
theorem map_writeState {payments : List PaymentRecord} (hids : (payments.map (·.id)).Nodup)
    {record : PaymentRecord} {rebillNo : String} (hone : recordsOf payments rebillNo = [record])
    (form : WebhookForm) (payState : ℤ) :
    payments.map (writeState record (record.stated form payState)) =
      payments.map (restate form payState rebillNo) := by
  apply List.map_congr_left
  intro other hother
  have hmem : record ∈ recordsOf payments rebillNo := hone ▸ List.mem_cons_self
  obtain ⟨hrecord, hrebillNo⟩ := List.mem_filter.mp hmem
  by_cases hid : other.id = record.id
  · obtain rfl : other = record := List.inj_on_of_nodup_map hids hother hrecord hid
    simp [writeState, restate, PaymentRecord.stated, of_decide_eq_true hrebillNo]
  · have hne : other.rebillNo ≠ some rebillNo := by
      intro hsame
      have hother : other ∈ recordsOf payments rebillNo := by simp [recordsOf, hother, hsame]
      rw [hone, List.mem_singleton] at hother
      exact hid (hother ▸ rfl)
    simp [writeState, restate, hid, hne]

/-- A commit that finds the row as it was read. -/
theorem act_commit {record : PaymentRecord} {type : SubscriptionType} {assigned : Subscription} :
    WebhookAct settings encode db
      (.activating record type (db.subscriptions record.userId type) assigned)
      { db with
        payments := db.payments ++ [record]
        subscriptions := setSubscription db.subscriptions record.userId type assigned } .over := by
  cases hseen : db.subscriptions record.userId type with
  | none => exact .commitFirst hseen
  | some loaded =>
    rw [← writeSubscription_self hseen]
    exact .commitAgain (hseen ▸ rfl)

theorem runs_complete {reply : WebhookReply} (haccepted : Accepted settings delivery.form)
    (hstate : int 10 (delivery.form.payState.getD "0") = some 4)
    (h : handlePaymentComplete settings encode db delivery (delivery.form.rebillNo.getD "")
      delivery.form.mulNo = .ok (reply, after)) :
    (webhooks settings encode).Runs (db, .received delivery) (after, .over) := by
  rcases handlePaymentComplete_cases h with
    rfl | ⟨existing, userId, dbPlan, hlookup, hunpaid, huser, hplan, hprice, hok⟩
  · exact .last .leave
  · obtain ⟨subType, plan, subscriptions, paid, hparts, husers, hactivated, rfl⟩ :=
      recordPayment_activates hok
    obtain ⟨type, plan', token, htype, -, hpaid, rfl⟩ := activateSubscription_ok hactivated
    subst hpaid
    have hinsert : WebhookAct settings encode db
        (.recording delivery (newRecord delivery userId subType plan dbPlan.price)) db _ :=
      .insert husers hactivated htype (setSubscription_self _ _ _ _)
    exact .step (.lookUp haccepted hstate hlookup hunpaid)
      (.step (.readPlan huser hplan hprice hparts) (.step hinsert (.last act_commit)))

/-- A commit of a cancellation that finds the row as it was read. -/
theorem act_commitCancelled {restated : Option (PaymentRecord × PaymentRecord)} {userId : UUID}
    {type : SubscriptionType} :
    WebhookAct settings encode db
      (.deactivating restated userId type (db.subscriptions userId type))
      { db with
        payments := match restated with
          | none => db.payments
          | some (loaded, assigned) => db.payments.map (writeState loaded assigned)
        subscriptions := deactivateSubscription db.subscriptions userId type } .over := by
  have hcommit : WebhookAct settings encode db
      (.deactivating restated userId type (db.subscriptions userId type)) _ .over :=
    .commitCancelled
  unfold deactivateSubscription
  cases hseen : db.subscriptions userId type with
  | none =>
    rw [hseen] at hcommit
    exact hcommit
  | some loaded =>
    rw [hseen] at hcommit
    dsimp only at hcommit ⊢
    rw [← writeSubscription_self hseen]
    exact hcommit

theorem runs_cancel {reply : WebhookReply} {payState : ℤ}
    (hids : (db.payments.map (·.id)).Nodup) (haccepted : Accepted settings delivery.form)
    (hstate : int 10 (delivery.form.payState.getD "0") = some payState)
    (hcancel : payState ∈ [8, 9, 32, 64])
    (h : handlePaymentCancel db delivery.form (delivery.form.rebillNo.getD "") payState =
      .ok (reply, after)) :
    (webhooks settings encode).Runs (db, .received delivery) (after, .over) := by
  rcases handlePaymentCancel_cases h with
    ⟨record, type, hlookup, htype, rfl⟩ | ⟨userId, type, hlookup, huser, htype, rfl⟩ | rfl
  · rw [← map_writeState hids (recordsOf_of_paymentOfRebill hlookup)]
    exact .step
      (.lookUpCancelled haccepted hstate hcancel hlookup (subscriptionType_eq_ok.mp htype))
      (.step .readCancelled (.last act_commitCancelled))
  · exact .step (.lookUpNamed haccepted hstate hcancel hlookup huser htype)
      (.step .readCancelled (.last act_commitCancelled))
  · exact .last .leave

/-- A session that runs alone leaves what the report leaves. -/
theorem runs_paymentWebhook (settings : Settings) (encode : JwtEncode) {db : Database}
    (hids : (db.payments.map (·.id)).Nodup) (delivery : Delivery) :
    (webhooks settings encode).Runs (db, .received delivery)
      (paymentWebhook settings encode db delivery, .over) := by
  unfold paymentWebhook
  cases hhandled : handleWebhook settings encode db delivery with
  | error e => exact .last .leave
  | ok answer =>
    obtain ⟨reply, after⟩ := answer
    rcases handleWebhook_ok hhandled with
      rfl | ⟨haccepted, payState, hstate, ⟨rfl, hcomplete⟩ | ⟨hcancel, hcancelled⟩⟩
    · exact .last .leave
    · exact runs_complete haccepted hstate hcomplete
    · exact runs_cancel hids haccepted hstate hcancel hcancelled

/-! ## Sessions together -/

theorem recordsOf_concat (payments : List PaymentRecord) (record : PaymentRecord)
    (rebillNo : String) :
    recordsOf (payments ++ [record]) rebillNo =
      recordsOf payments rebillNo ++ if record.rebillNo = some rebillNo then [record] else [] := by
  rw [recordsOf, List.filter_append, ← recordsOf]
  split_ifs with h <;> simp [h]

theorem OneRecord.concat {payments : List PaymentRecord} {record : PaymentRecord}
    (h : OneRecord payments)
    (hnone : ∀ rebillNo ∈ record.rebillNo, recordsOf payments rebillNo = []) :
    OneRecord (payments ++ [record]) := by
  intro rebillNo
  rw [recordsOf_concat]
  split_ifs with hsame
  · rw [hnone rebillNo hsame]
    exact le_refl 1
  · rw [List.append_nil]
    exact h rebillNo

theorem OneRecord.map {payments : List PaymentRecord} {change : PaymentRecord → PaymentRecord}
    (h : OneRecord payments) (hchange : Restates change) : OneRecord (payments.map change) := by
  intro rebillNo
  rw [recordsOf_map hchange.rebillNo, List.length_map]
  exact h rebillNo

theorem restates_writeState (loaded assigned : PaymentRecord) :
    Restates (writeState loaded assigned) := by
  intro record
  unfold writeState
  split_ifs
  · exact ⟨_, _, rfl⟩
  · exact ⟨record.payState, record.rawWebhookData, rfl⟩

/-- One statement. -/
theorem OneRecord.act {db' : Database} {task task' : WebhookTask} (h : OneRecord db.payments)
    (hunrecorded : Unrecorded db task db') (hact : WebhookAct settings encode db task db' task') :
    OneRecord db'.payments := by
  cases hact with
  | commitFirst hfree => exact h.concat (hunrecorded _ _ _ _ rfl (by simp))
  | commitAgain hrow => exact h.concat (hunrecorded _ _ _ _ rfl (by simp))
  | @commitCancelled restated =>
    cases restated with
    | none => exact h
    | some restated => exact h.map (restates_writeState _ _)
  | _ => exact h

theorem OneRecord.lookup {payments : List PaymentRecord} (h : OneRecord payments)
    (rebillNo : String) : ∃ existing, paymentOfRebill payments rebillNo = .ok existing := by
  have hlength := h rebillNo
  unfold paymentOfRebill
  rcases hrecords : recordsOf payments rebillNo with _ | ⟨record, _ | ⟨other, rest⟩⟩
  · exact ⟨none, rfl⟩
  · exact ⟨some record, rfl⟩
  · rw [hrecords] at hlength
    simp at hlength

/-- In a run in which a commit adds a record only to a registration without one, every
registration has at most one record in every state reached, and no lookup raises. -/
theorem oneRecord_of_reachable {start : Database} {p : Pool Database WebhookTask}
    (hstart : OneRecord start.payments)
    (h : Pool.Reachable ((webhooks settings encode).restricted Unrecorded) start p) :
    OneRecord p.shared.payments ∧
      ∀ rebillNo, ∃ existing, paymentOfRebill p.shared.payments rebillNo = .ok existing := by
  have hone : OneRecord p.shared.payments := by
    -- By induction on the run; a commit adds a record only where there is none.
    induction h with
    | refl => exact hstart
    | tail hrun hstep ih =>
      cases hstep with
      | env ts henv =>
        obtain ⟨change, hchange, hpayments⟩ := henv
        exact hpayments ▸ ih.map hchange
      | start s ts hstart => exact ih
      | act before after hact => exact ih.act hact.1 hact.2
  exact ⟨hone, hone.lookup⟩

/-! ### Two reports of one charge -/

/-- The session of a charge whose registration has no record gets to its commit. -/
theorem exists_runs_activating (encode : JwtEncode)
    (guard : Database → WebhookTask → Database → Prop)
    (db : Database) (charge : Charge settings db.users db.plans)
    (hnone : paymentOfRebill db.payments charge.rebillNo = .ok none)
    (hguard : ∀ task, guard db task db) :
    ∃ token, ((webhooks settings encode).restricted guard).Runs (db, .received charge.delivery)
      (db, .activating charge.record charge.type (db.subscriptions charge.user charge.type)
        (charge.period token)) := by
  obtain ⟨⟨subscriptions, paid⟩, hactivated⟩ := activateSubscription_exists encode
    db.subscriptions charge.delivery.activatedAt charge.newRecord rfl rfl charge.secret
  obtain ⟨type, plan, token, htype, hplan, rfl, rfl⟩ := activateSubscription_ok hactivated
  obtain rfl : charge.type = type := by simpa [Charge.newRecord] using htype
  obtain rfl : charge.plan = plan := by simpa [Charge.newRecord] using hplan
  have hlookup : paymentOfRebill db.payments (charge.delivery.form.rebillNo.getD "") =
      .ok none := by
    rw [charge.rebillNo_eq]
    exact hnone
  have hrecord : newRecord charge.delivery charge.user charge.type.value charge.plan.value
      charge.offered.price = charge.newRecord := by
    simp [newRecord, Charge.newRecord, charge.rebillNo_eq, charge.mulNo_eq]
  have hread : WebhookAct settings encode db (.unpaid charge.delivery) db
      (.recording charge.delivery charge.newRecord) := by
    rw [← hrecord]
    refine .readPlan charge.user_eq ?_ charge.price_eq ?_
    · rw [charge.planKey_eq]
      exact charge.offered_eq
    · rw [charge.planKey_eq]
      exact planParts_planKey charge.type charge.plan
  refine ⟨token, .step ⟨hguard _, .lookUp ⟨charge.configured, charge.verified⟩ charge.paid hlookup
    (by simp)⟩ (.step ⟨hguard _, hread⟩ (.last ⟨hguard _, ?_⟩))⟩
  exact .insert charge.user_exists hactivated htype (setSubscription_self _ _ _ _)

theorem unrecorded_self (db : Database) (task : WebhookTask) : Unrecorded db task db :=
  fun _ _ _ _ _ hadds => absurd rfl hadds

/-- A shop whose user has had a subscription before. -/
def returningShop : Database :=
  { newShop with
    subscriptions := setSubscription newShop.subscriptions 7 .logit
      (deactivatedRow .logit ((liteCharge "R0" "M0" (.utc 2025 11 1 9)).period none)) }

/-- The first charge, reported again. -/
def repeatedCharge : Charge shop newShop.users newShop.plans :=
  firstCharge.again
    (show PaidNotice firstCharge { firstCharge.delivery with recordId := 2 } from rfl)

/-- Two reports of one charge of a new user are handled at the same time: both find no record, one
commits, and the other fails, for the user has got a subscription. -/
theorem oneRecord_of_reachable_both : ∃ p,
    Pool.Reachable ((webhooks shop unsigned).restricted Unrecorded) newShop p ∧
      p.tasks = [.over, .over] ∧ p.shared.payments = [firstCharge.record] ∧
      OneRecord p.shared.payments ∧
      ∀ rebillNo, ∃ existing, paymentOfRebill p.shared.payments rebillNo = .ok existing := by
  obtain ⟨token, hfirst⟩ := exists_runs_activating unsigned Unrecorded newShop firstCharge rfl
    (unrecorded_self newShop)
  obtain ⟨token', hagain⟩ := exists_runs_activating unsigned Unrecorded newShop repeatedCharge rfl
    (unrecorded_self newShop)
  have hboth := hagain.reachable trivial (hfirst.reachable trivial .refl)
  have hcommit : ((webhooks shop unsigned).restricted Unrecorded).Runs
      (newShop, .activating firstCharge.record .logit none (firstCharge.period token)) (_, .over) :=
    .last ⟨fun _ _ _ _ _ _ _ _ => rfl, .commitFirst rfl⟩
  have hcommitted := hcommit.reachable_middle [_] [] hboth
  -- The table of subscriptions takes one row of the user, so the other commit fails.
  have hfails : ∀ db : Database, ((webhooks shop unsigned).restricted Unrecorded).Runs
      (db, .activating repeatedCharge.record .logit none (repeatedCharge.period token'))
      (db, .over) := fun db => .last ⟨unrecorded_self db _, .leave⟩
  have hstart : OneRecord newShop.payments := fun _ => Nat.zero_le 1
  have hreach := (hfails _).reachable_middle [] [.over] hcommitted
  exact ⟨_, hreach, rfl, rfl, oneRecord_of_reachable hstart hreach⟩

/-- Two reports of one charge, handled at the same time, leave two records. -/
theorem not_oneRecord_of_reachable :
    ¬ ∀ (settings : Settings) (encode : JwtEncode) (start : Database)
      (p : Pool Database WebhookTask), OneRecord start.payments →
      Pool.Reachable (webhooks settings encode) start p → OneRecord p.shared.payments := by
  intro h
  obtain ⟨token, hfirst⟩ := exists_runs_activating unsigned (fun _ _ _ => True) returningShop
    firstCharge rfl fun _ => trivial
  obtain ⟨token', hagain⟩ := exists_runs_activating unsigned (fun _ _ _ => True) returningShop
    repeatedCharge rfl fun _ => trivial
  have hboth := (hagain.reachable trivial (hfirst.reachable trivial .refl)).of_restricted
  have hcommits : ∀ db : Database, (db.subscriptions 7 .logit).isSome = true →
      ∀ (record : PaymentRecord) (loaded assigned : Subscription), record.userId = 7 →
      (webhooks shop unsigned).act db (.activating record .logit (some loaded) assigned)
        { db with
          payments := db.payments ++ [record]
          subscriptions := writeSubscription db.subscriptions record.userId .logit loaded assigned }
        .over := by
    rintro db hrow record loaded assigned huser
    exact .commitAgain (huser ▸ hrow)
  have hcommitted := (hboth.tail (.act [] [_] (hcommits _ rfl _ _ _ rfl))).tail
    (.act [.over] [] (hcommits _ rfl _ _ _ rfl))
  have hstart : OneRecord returningShop.payments := fun _ => Nat.zero_le 1
  have hone : (recordsOf [repeatedCharge.record, firstCharge.record] "R1").length ≤ 1 :=
    h shop unsigned returningShop _ hstart hcommitted "R1"
  exact absurd hone (by decide)

end Logit.Payments
