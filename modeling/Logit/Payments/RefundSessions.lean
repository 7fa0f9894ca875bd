import Logit.Concurrency.Locks
import Logit.Payments.Refund
import Logit.Payments.Sessions

/-!
# Refunds at the same time

Administrators may refund a payment several times at once, while reports of charges and
cancellations are handled. A refund locks the record of its payment before it looks at it, and
keeps the lock while it asks PayApp, until it commits; a report of a cancellation takes the lock
with the update of the record that its next query flushes. So nobody else changes a record
between the look of a refund and its commit, and a payment is refunded once.

## Main definitions

* `checkRefund` — what a refund checks before it asks PayApp
* `RefundTask`, `RefundAct` — refunds and reports, and their statements
* `RefundedOnce` — a payment is refunded once, and later calls fail

## Main results

* `runs_refundPayment` — a refund that runs alone does what `refundPayment` does
* `refundedOnce_of_reachable` — in every run payments are refunded once, and no record is paid
  again
-/

namespace Logit.Payments

open Calendar Concurrency Python Security Subscriptions Users

/-- The record of a payment. -/
def paymentOf (payments : List PaymentRecord) (paymentId : UUID) : Option PaymentRecord :=
  payments.find? fun record => record.id = paymentId

/-- What a refund checks of the record it has found, before it asks PayApp. -/
def checkRefund (settings : Settings) (found : Option PaymentRecord) :
    Except PaymentError PaymentRecord :=
  match found with
  | none => .error (.valueError "결제 기록을 찾을 수 없습니다.")
  | some record =>
    if record.payState ≠ some 4 then
      .error (.valueError ("완료 상태(4)인 결제만 환불 가능합니다. 현재 pay_state=" ++
        match record.payState with
        | some payState => toString payState
        | none => "None"))
    else if !isSet record.mulNo then
      .error (.runtimeError "PayApp 거래번호(mul_no)가 없어 환불할 수 없습니다.")
    else if !isSet settings.PAYAPP_USERID || !isSet settings.PAYAPP_LINKKEY then
      .error (.runtimeError "PayApp credentials are not configured.")
    else .ok record

variable {settings : Settings} {encode : JwtEncode} {payments : List PaymentRecord}
  {paymentId : UUID} {record : PaymentRecord}

/-- A refund checks, asks and marks. -/
theorem refundPayment_eq (settings : Settings) (cancelPayment : String → PayAppAnswer)
    (db : Database) (paymentId : UUID) :
    refundPayment settings cancelPayment db paymentId = do
      let record ← checkRefund settings (paymentOf db.payments paymentId)
      refundAnswered (cancelPayment (record.mulNo.getD ""))
      let _ ← subscriptionType record.subscriptionType
      return db.withRefund paymentId := by
  unfold refundPayment checkRefund paymentOf
  cases db.payments.find? fun record => record.id = paymentId with
  | none => rfl
  | some record =>
    dsimp only
    split_ifs <;> rfl

theorem checkRefund_ok {found : Option PaymentRecord}
    (h : checkRefund settings found = .ok record) :
    found = some record ∧ record.payState = some 4 := by
  unfold checkRefund at h
  split at h
  · cases h
  · split_ifs at h with hstate
    cases h
    exact ⟨rfl, not_not.mp hstate⟩

/-- A payment that is recorded, and not as paid. -/
def NoLongerPaid (payments : List PaymentRecord) (paymentId : UUID) : Prop :=
  ∃ record, paymentOf payments paymentId = some record ∧ record.payState ≠ some 4

theorem NoLongerPaid.checkRefund (h : NoLongerPaid payments paymentId) (settings : Settings) :
    ∃ message, checkRefund settings (paymentOf payments paymentId) =
      .error (.valueError message) := by
  obtain ⟨record, hrecord, hstate⟩ := h
  rw [hrecord, Payments.checkRefund, if_pos hstate]
  exact ⟨_, rfl⟩

/-! ## Sessions -/

/-- What a refund has done that its caller or PayApp sees. A call is late if a refund of its
payment had returned when it was made. -/
inductive RefundEvent
  | contacted (paymentId : UUID) (late : Bool)
  /-- PayApp has answered with state 1. -/
  | answered (paymentId : UUID)
  | returned (paymentId : UUID) (late : Bool)
  | raised (paymentId : UUID) (late : Bool)
  deriving DecidableEq, Repr

/-- The database, the records that sessions have locked, and the history of refunds. -/
structure RefundStore where
  db : Database
  locks : List UUID
  history : List RefundEvent

namespace RefundStore

/-- Nothing has been locked or refunded. -/
def start (db : Database) : RefundStore := ⟨db, [], []⟩

/-- A refund of a payment has returned. -/
def returned (s : RefundStore) (paymentId : UUID) : Bool :=
  decide (∃ late, .returned paymentId late ∈ s.history)

def note (s : RefundStore) (event : RefundEvent) : RefundStore :=
  { s with history := event :: s.history }

/-- A session ends, and its locks with it. -/
def release (s : RefundStore) (locked : List UUID) : RefundStore :=
  { s with locks := s.locks.filter (· ∉ locked) }

end RefundStore

/-- Where a session stands between its statements. -/
inductive RefundTask
  | calling (paymentId : UUID)
  /-- The record is about to be selected for update. -/
  | selecting (paymentId : UUID) (late : Bool)
  /-- The record is locked, and PayApp has been asked to cancel the payment. -/
  | asking (paymentId : UUID) (late : Bool) (record : PaymentRecord)
  /-- PayApp has cancelled the payment, and the record is about to be marked. -/
  | marking (paymentId : UUID) (late : Bool) (record : PaymentRecord)
  /-- A report, with the records it has locked. -/
  | webhook (task : WebhookTask) (locked : List UUID)
  | over

/-- The records a session has locked. -/
def RefundTask.held : RefundTask → List UUID
  | .asking paymentId _ _ => [paymentId]
  | .marking paymentId _ _ => [paymentId]
  | .webhook _ locked => locked
  | _ => []

/-- The assignment to a record is flushed before the subscription is read: the record is locked
then, or what has been assigned is what it was when it was read. -/
def Flushed (locked : List UUID) : WebhookTask → Prop
  | .deactivating (some (loaded, assigned)) _ _ _ =>
    loaded.id ∈ locked ∨
      loaded.payState = assigned.payState ∧ loaded.rawWebhookData = assigned.rawWebhookData
  | _ => True

variable (settings : Settings) (encode : JwtEncode)

/-- One statement of a session, with the commit that follows its writes. -/
inductive RefundAct : RefundStore → RefundTask → RefundStore → RefundTask → Prop
  | call {s : RefundStore} {paymentId : UUID} :
      RefundAct s (.calling paymentId) s (.selecting paymentId (s.returned paymentId))
  /-- The record is selected once nobody else holds it, and a check fails. -/
  | refuse {s : RefundStore} {paymentId : UUID} {late : Bool} {error : PaymentError}
      (hfree : paymentId ∉ s.locks)
      (hcheck : checkRefund settings (paymentOf s.db.payments paymentId) = .error error) :
      RefundAct s (.selecting paymentId late) (s.note (.raised paymentId late)) .over
  | ask {s : RefundStore} {paymentId : UUID} {late : Bool} {record : PaymentRecord}
      (hfree : paymentId ∉ s.locks)
      (hcheck : checkRefund settings (paymentOf s.db.payments paymentId) = .ok record) :
      RefundAct s (.selecting paymentId late)
        { s.note (.contacted paymentId late) with locks := paymentId :: s.locks }
        (.asking paymentId late record)
  | confirm {s : RefundStore} {paymentId : UUID} {late : Bool} {record : PaymentRecord}
      {answer : PayAppAnswer} (hanswer : refundAnswered answer = .ok ()) :
      RefundAct s (.asking paymentId late record) (s.note (.answered paymentId))
        (.marking paymentId late record)
  | decline {s : RefundStore} {paymentId : UUID} {late : Bool} {record : PaymentRecord}
      {answer : PayAppAnswer} {error : PaymentError}
      (hanswer : refundAnswered answer = .error error) :
      RefundAct s (.asking paymentId late record)
        ((s.note (.raised paymentId late)).release [paymentId]) .over
  | commit {s : RefundStore} {paymentId : UUID} {late : Bool} {record : PaymentRecord}
      {type : SubscriptionType} (htype : subscriptionType record.subscriptionType = .ok type) :
      RefundAct s (.marking paymentId late record)
        (({ s with db := s.db.withRefund paymentId }.note (.returned paymentId late)).release
          [paymentId]) .over
  /-- The type of the record is not one, so the log entry cannot be made. -/
  | raise {s : RefundStore} {paymentId : UUID} {late : Bool} {record : PaymentRecord}
      {error : PaymentError} (htype : subscriptionType record.subscriptionType = .error error) :
      RefundAct s (.marking paymentId late record)
        ((s.note (.raised paymentId late)).release [paymentId]) .over
  /-- The connection is lost before PayApp has answered. -/
  | lose {s : RefundStore} {task : RefundTask} {paymentId : UUID} {late : Bool}
      (htask : task = .selecting paymentId late ∨ ∃ record, task = .asking paymentId late record) :
      RefundAct s task ((s.note (.raised paymentId late)).release task.held) .over
  /-- A report that cancels updates its record once nobody else holds it. -/
  | flush {s : RefundStore} {loaded assigned : PaymentRecord} {userId : UUID}
      {type : SubscriptionType} (hfree : loaded.id ∉ s.locks) :
      RefundAct s (.webhook (.cancelling (some (loaded, assigned)) userId type) [])
        { s with locks := loaded.id :: s.locks }
        (.webhook (.cancelling (some (loaded, assigned)) userId type) [loaded.id])
  | report {s : RefundStore} {task task' : WebhookTask} {locked : List UUID}
      (hact : WebhookAct settings encode s.db task s.db task') (hopen : task' ≠ .over)
      (hflushed : Flushed locked task') :
      RefundAct s (.webhook task locked) s (.webhook task' locked)
  /-- The last statement of a report; the table takes one record of an id. -/
  | finish {s : RefundStore} {task : WebhookTask} {locked : List UUID} {db' : Database}
      (hact : WebhookAct settings encode s.db task db' .over)
      (hkeys : (db'.payments.map (·.id)).Nodup) :
      RefundAct s (.webhook task locked) ({ s with db := db' }.release locked) .over

/-- A session that starts. -/
def RefundTask.Starts : RefundTask → Prop
  | .calling _ => True
  | .webhook task locked => task.Starts ∧ locked = []
  | _ => False

/-- Everything but the records of payments may change by itself. -/
def OtherTables (s s' : RefundStore) : Prop :=
  ∃ db, s' = { s with db := db } ∧ db.payments = s.db.payments

/-- The sessions that refund payments and handle reports. -/
def refunds : Program RefundStore RefundTask :=
  ⟨OtherTables, RefundTask.Starts, RefundAct settings encode⟩

/-! ## One refund alone -/

variable {settings encode} {s : RefundStore}

theorem release_locked (h : paymentId ∉ s.locks) :
    (paymentId :: s.locks).filter (· ∉ [paymentId]) = s.locks := by
  rw [List.filter_cons_of_neg (by simp)]
  refine List.filter_eq_self.mpr fun other hother => decide_eq_true fun hmem => ?_
  exact h (List.mem_singleton.mp hmem ▸ hother)

/-- A refund that runs alone leaves what `refundPayment` leaves, and returns if that does. -/
theorem runs_refundPayment (settings : Settings) (encode : JwtEncode)
    (cancelPayment : String → PayAppAnswer) (h : paymentId ∉ s.locks) :
    ∃ history, (refunds settings encode).Runs (s, .calling paymentId)
        (⟨(refundPayment settings cancelPayment s.db paymentId).toOption.getD s.db, s.locks,
          history⟩, .over) ∧
      ∀ after, refundPayment settings cancelPayment s.db paymentId = .ok after →
        ∃ late, .returned paymentId late ∈ history := by
  have hpayment := refundPayment_eq settings cancelPayment s.db paymentId
  cases hcheck : checkRefund settings (paymentOf s.db.payments paymentId) with
  | error error =>
    rw [hcheck] at hpayment
    rw [hpayment]
    exact ⟨_, .step .call (.last (.refuse h hcheck)), fun after hok => by cases hok⟩
  | ok record =>
    have hask : (refunds settings encode).Runs (s, .calling paymentId) _ :=
      .step .call (.last (.ask h hcheck))
    have hlocks := release_locked h
    cases hanswer : refundAnswered (cancelPayment (record.mulNo.getD "")) with
    | error error =>
      simp only [hcheck, hanswer, bind, Except.bind] at hpayment
      rw [hpayment, ← hlocks]
      exact ⟨_, hask.act (.decline hanswer), fun after hok => by cases hok⟩
    | ok _ =>
      have hconfirm := hask.act (.confirm hanswer)
      simp only [hcheck, hanswer, bind, Except.bind] at hpayment
      cases htype : subscriptionType record.subscriptionType with
      | error error =>
        rw [htype] at hpayment
        rw [hpayment, ← hlocks]
        exact ⟨_, hconfirm.act (.raise htype), fun after hok => by cases hok⟩
      | ok type =>
        rw [htype] at hpayment
        rw [hpayment, ← hlocks]
        exact ⟨_, hconfirm.act (.commit htype), fun _ _ => ⟨_, List.mem_cons_self⟩⟩

/-! ## Records -/

theorem Restates.id {change : PaymentRecord → PaymentRecord} (h : Restates change)
    (record : PaymentRecord) : (change record).id = record.id := by
  obtain ⟨payState, rawWebhookData, hchange⟩ := h record
  rw [hchange]

theorem paymentOf_map {change : PaymentRecord → PaymentRecord} (h : Restates change)
    (payments : List PaymentRecord) (paymentId : UUID) :
    paymentOf (payments.map change) paymentId = (paymentOf payments paymentId).map change := by
  unfold paymentOf
  rw [List.find?_map]
  congr 2
  funext record
  simp [h.id]

theorem paymentOf_append (h : paymentOf payments paymentId = some record)
    (added : List PaymentRecord) : paymentOf (payments ++ added) paymentId = some record := by
  unfold paymentOf at h ⊢
  rw [List.find?_append, h, Option.some_or]

theorem id_of_paymentOf (h : paymentOf payments paymentId = some record) :
    record.id = paymentId :=
  of_decide_eq_true (List.find?_some h :)

theorem NoLongerPaid.map {change : PaymentRecord → PaymentRecord}
    (h : NoLongerPaid payments paymentId) (hchange : Restates change)
    (hstate : ∀ record, record.payState ≠ some 4 → (change record).payState ≠ some 4) :
    NoLongerPaid (payments.map change) paymentId := by
  obtain ⟨record, hrecord, hleft⟩ := h
  exact ⟨change record, by rw [paymentOf_map hchange, hrecord, Option.map_some],
    hstate record hleft⟩

theorem NoLongerPaid.append (h : NoLongerPaid payments paymentId) (added : List PaymentRecord) :
    NoLongerPaid (payments ++ added) paymentId := by
  obtain ⟨record, hrecord, hleft⟩ := h
  exact ⟨record, paymentOf_append hrecord added, hleft⟩

theorem not_noLongerPaid (h : paymentOf payments paymentId = some record)
    (hstate : record.payState = some 4) : ¬ NoLongerPaid payments paymentId := by
  rintro ⟨other, hother, hleft⟩
  obtain rfl : record = other := Option.some.inj (h.symm.trans hother)
  exact hleft hstate

theorem writeState_of_ne {loaded record : PaymentRecord} (h : record.id ≠ loaded.id)
    (assigned : PaymentRecord) : writeState loaded assigned record = record := if_neg h

/-- An assignment of what has been read writes nothing. -/
theorem writeState_of_eq {loaded assigned : PaymentRecord}
    (h : loaded.payState = assigned.payState ∧
      loaded.rawWebhookData = assigned.rawWebhookData) (record : PaymentRecord) :
    writeState loaded assigned record = record := by
  unfold writeState
  split_ifs with hid
  · have hstate : flush record.payState assigned.payState assigned.payState = record.payState :=
      if_pos rfl
    have hdata : flush record.rawWebhookData assigned.rawWebhookData assigned.rawWebhookData =
        record.rawWebhookData := if_pos rfl
    rw [h.1, h.2, hstate, hdata]
  · rfl

theorem writeState_payState {assigned : PaymentRecord} (hne : assigned.payState ≠ some 4)
    (loaded record : PaymentRecord) (h : record.payState ≠ some 4) :
    (writeState loaded assigned record).payState ≠ some 4 := by
  unfold writeState
  split_ifs
  · change flush record.payState loaded.payState assigned.payState ≠ some 4
    rcases flush_cases record.payState loaded.payState assigned.payState with hflush | hflush
    · rw [hflush]
      exact h
    · rw [hflush]
      exact hne
  · exact h

theorem refunded_payState (paymentId : UUID) (record : PaymentRecord)
    (h : record.payState ≠ some 4) : (refunded paymentId record).payState ≠ some 4 := by
  unfold refunded
  split_ifs
  · exact fun heq => absurd (Option.some.inj heq) (by decide)
  · exact h

/-- Records have ids of their own, and types of subscriptions. -/
structure Intact (payments : List PaymentRecord) : Prop where
  keys : (payments.map (·.id)).Nodup
  types : ∀ record ∈ payments, ∃ type,
    SubscriptionType.ofValue? record.subscriptionType = some type

theorem Intact.map {change : PaymentRecord → PaymentRecord} (h : Intact payments)
    (hchange : Restates change) : Intact (payments.map change) where
  keys := by
    have hids : (payments.map change).map (·.id) = payments.map (·.id) := by
      rw [List.map_map]
      exact List.map_congr_left fun record _ => hchange.id record
    rw [hids]
    exact h.keys
  types := by
    intro record hrecord
    obtain ⟨before, hbefore, rfl⟩ := List.mem_map.mp hrecord
    obtain ⟨payState, rawWebhookData, hstate⟩ := hchange before
    rw [hstate]
    exact h.types before hbefore

/-! ## What a report does -/

/-- A report under way records a type of subscriptions, and does not mark a record as paid. -/
def Proper : WebhookTask → Prop
  | .activating record _ _ _ =>
    ∃ type, SubscriptionType.ofValue? record.subscriptionType = some type
  | .cancelling (some (_, assigned)) _ _ => assigned.payState ≠ some 4
  | .deactivating (some (_, assigned)) _ _ _ => assigned.payState ≠ some 4
  | _ => True

variable {db db' : Database} {task task' : WebhookTask} {locked : List UUID}

theorem Proper.act (h : Proper task) (hact : WebhookAct settings encode db task db' task') :
    Proper task' := by
  cases hact with
  | insert huser hactivated htype hassigned =>
    obtain ⟨type, plan, token, hvalid, -, rfl, -⟩ := activateSubscription_ok hactivated
    exact ⟨type, hvalid⟩
  | @lookUpCancelled delivery record payState type haccepted hstate hcancel hlookup htype =>
    change some payState ≠ some 4
    rintro ⟨⟩
    exact absurd hcancel (by decide)
  | @readCancelled restated =>
    cases restated with
    | none => trivial
    | some restated => exact h
  | _ => trivial

/-- What a statement of a report leaves of the records: it adds one or restates one it has
flushed, or it changes none. -/
inductive Reported (payments : List PaymentRecord) (locked : List UUID) :
    List PaymentRecord → Prop
  | same : Reported payments locked payments
  | added {record : PaymentRecord}
      (htype : ∃ type, SubscriptionType.ofValue? record.subscriptionType = some type) :
      Reported payments locked (payments ++ [record])
  | restated {loaded assigned : PaymentRecord} (hne : assigned.payState ≠ some 4)
      (hlocked : loaded.id ∈ locked) :
      Reported payments locked (payments.map (writeState loaded assigned))

theorem reported (h : Proper task) (hflushed : Flushed locked task)
    (hact : WebhookAct settings encode db task db' task') :
    Reported db.payments locked db'.payments := by
  cases hact with
  | commitFirst hfree => exact .added h
  | commitAgain hrow => exact .added h
  | @commitCancelled restated =>
    cases restated with
    | none => exact .same
    | some restated =>
      rcases hflushed with hlocked | hsame
      · exact .restated h hlocked
      · -- Nothing has been assigned, and nothing is written.
        dsimp only
        rw [List.map_congr_left fun other _ => writeState_of_eq hsame other, List.map_id']
        exact .same
  | _ => exact .same

namespace Reported

variable {payments' : List PaymentRecord}

theorem noLongerPaid (h : Reported payments locked payments')
    (hleft : NoLongerPaid payments paymentId) : NoLongerPaid payments' paymentId := by
  cases h with
  | same => exact hleft
  | added => exact hleft.append _
  | restated hne hlocked =>
    exact hleft.map (restates_writeState _ _) (writeState_payState hne _)

/-- A record that is not locked stays as it is. -/
theorem paymentOf (h : Reported payments locked payments') (hfree : paymentId ∉ locked)
    (hrecord : paymentOf payments paymentId = some record) :
    Payments.paymentOf payments' paymentId = some record := by
  cases h with
  | same => exact hrecord
  | added => exact paymentOf_append hrecord _
  | @restated loaded assigned hne hlocked =>
    rw [paymentOf_map (restates_writeState loaded assigned), hrecord, Option.map_some,
      writeState_of_ne]
    rw [id_of_paymentOf hrecord]
    exact fun heq => hfree (heq ▸ hlocked)

theorem intact (h : Reported payments locked payments') (hintact : Intact payments)
    (hkeys : (payments'.map (·.id)).Nodup) : Intact payments' := by
  refine ⟨hkeys, ?_⟩
  cases h with
  | same => exact hintact.types
  | added htype =>
    intro record hrecord
    rcases List.mem_append.mp hrecord with hold | hnew
    · exact hintact.types record hold
    · exact List.mem_singleton.mp hnew ▸ htype
  | restated hne hlocked => exact (hintact.map (restates_writeState _ _)).types

end Reported

/-! ## What holds in a run -/

/-- What holds of the records, the locks and the history: a payment that PayApp has cancelled is
no longer paid, or its record is still locked. -/
structure SoundRefunds (s : RefundStore) : Prop where
  intact : Intact s.db.payments
  count_answered : ∀ paymentId, s.history.count (.answered paymentId) ≤ 1
  answered : ∀ paymentId, .answered paymentId ∈ s.history →
    NoLongerPaid s.db.payments paymentId ∨ paymentId ∈ s.locks
  returned : ∀ paymentId late, .returned paymentId late ∈ s.history →
    late = false ∧ NoLongerPaid s.db.payments paymentId
  contacted : ∀ paymentId, .contacted paymentId true ∉ s.history

/-- What holds of a session: a refund that waits for PayApp has the record as it is, and PayApp
has not cancelled the payment before. -/
def Fits (s : RefundStore) : RefundTask → Prop
  | .selecting paymentId late => late = true → NoLongerPaid s.db.payments paymentId
  | .asking paymentId late record =>
    late = false ∧ paymentOf s.db.payments paymentId = some record ∧
      record.payState = some 4 ∧ .answered paymentId ∉ s.history
  | .marking paymentId late record =>
    late = false ∧ paymentOf s.db.payments paymentId = some record
  | .webhook task locked =>
    Proper task ∧ Flushed locked task ∧ ∀ paymentId ∈ locked,
      .answered paymentId ∈ s.history → NoLongerPaid s.db.payments paymentId
  | _ => True

/-- What a session may do to others: it changes only records it has locked, and refunds only
their payments. -/
structure Spares (s s' : RefundStore) (held : List UUID) : Prop where
  noLongerPaid : ∀ paymentId, NoLongerPaid s.db.payments paymentId →
    NoLongerPaid s'.db.payments paymentId
  paymentOf : ∀ paymentId ∉ held, ∀ record, paymentOf s.db.payments paymentId = some record →
    paymentOf s'.db.payments paymentId = some record
  answered : ∀ paymentId ∉ held, .answered paymentId ∈ s'.history →
    .answered paymentId ∈ s.history

variable {s s' : RefundStore} {t t' u : RefundTask}

theorem Fits.frame (h : Fits s u) (hspares : Spares s s' (t.held))
    (hothers : ∀ paymentId ∈ u.held, paymentId ∉ t.held) : Fits s' u := by
  cases u with
  | selecting paymentId late => exact fun hlate => hspares.noLongerPaid _ (h hlate)
  | asking paymentId late record =>
    obtain ⟨hlate, hrecord, hstate, hnew⟩ := h
    have hfree := hothers paymentId List.mem_cons_self
    exact ⟨hlate, hspares.paymentOf _ hfree _ hrecord, hstate,
      fun hanswered => hnew (hspares.answered _ hfree hanswered)⟩
  | marking paymentId late record =>
    obtain ⟨hlate, hrecord⟩ := h
    exact ⟨hlate, hspares.paymentOf _ (hothers paymentId List.mem_cons_self) _ hrecord⟩
  | webhook task locked =>
    obtain ⟨hproper, hflushed, hlocked⟩ := h
    refine ⟨hproper, hflushed, fun paymentId hmem hanswered => ?_⟩
    have hfree := hothers paymentId hmem
    exact hspares.noLongerPaid _ (hlocked _ hmem (hspares.answered _ hfree hanswered))
  | _ => trivial

theorem Spares.of_db (hdb : s'.db = s.db) {held : List UUID}
    (hanswered : ∀ paymentId ∉ held, .answered paymentId ∈ s'.history →
      .answered paymentId ∈ s.history) : Spares s s' held where
  noLongerPaid := by
    rw [hdb]
    exact fun _ hleft => hleft
  paymentOf := by
    rw [hdb]
    exact fun _ _ _ hrecord => hrecord
  answered := hanswered

/-- Something else than an answer of PayApp is noted. -/
theorem Spares.of_note (hdb : s'.db = s.db) {event : RefundEvent}
    (hhistory : s'.history = event :: s.history) {held : List UUID}
    (hevent : ∀ paymentId ∉ held, .answered paymentId ≠ event) : Spares s s' held := by
  refine .of_db hdb fun paymentId hfree hanswered => ?_
  rw [hhistory, List.mem_cons] at hanswered
  exact hanswered.resolve_left (hevent paymentId hfree)

theorem RefundAct.spares (hact : RefundAct settings encode s t s' t') (h : Fits s t) :
    Spares s s' t.held := by
  cases hact with
  | call => exact ⟨fun _ hleft => hleft, fun _ _ _ hrecord => hrecord, fun _ _ h => h⟩
  | refuse => exact .of_note (by rfl) (by rfl) fun _ _ => by simp
  | ask => exact .of_note (by rfl) (by rfl) fun _ _ => by simp
  | confirm =>
    refine .of_note (by rfl) (by rfl) fun other hfree => ?_
    rw [Ne, RefundEvent.answered.injEq]
    exact fun heq => hfree (heq ▸ List.mem_cons_self)
  | decline => exact .of_note (by rfl) (by rfl) fun _ _ => by simp
  | raise => exact .of_note (by rfl) (by rfl) fun _ _ => by simp
  | lose => exact .of_note (by rfl) (by rfl) fun _ _ => by simp
  | @commit paymentId =>
    refine ⟨fun _ hleft => hleft.map (restates_refunded paymentId) (refunded_payState paymentId),
      fun other hfree record hrecord => ?_, fun other _ hanswered => ?_⟩
    · have hne : record.id ≠ paymentId := by
        rw [id_of_paymentOf hrecord]
        exact fun heq => hfree (heq ▸ List.mem_cons_self)
      exact (paymentOf_map (restates_refunded paymentId) _ _).trans
        (by rw [hrecord, Option.map_some, refunded, if_neg hne])
    · simpa [RefundStore.note, RefundStore.release] using hanswered
  | flush => exact .of_db (by rfl) fun _ _ hanswered => hanswered
  | report => exact ⟨fun _ hleft => hleft, fun _ _ _ hrecord => hrecord, fun _ _ h => h⟩
  | finish hact hkeys =>
    obtain ⟨hproper, hflushed, -⟩ := h
    have hreported := reported hproper hflushed hact
    exact ⟨fun _ hleft => hreported.noLongerPaid hleft,
      fun _ hfree _ hrecord => hreported.paymentOf hfree hrecord, fun _ _ hanswered => hanswered⟩

/-- What a session does keeps it in step. -/
theorem Fits.act (h : Fits s t) (hsound : SoundRefunds s)
    (hact : RefundAct settings encode s t s' t') : Fits s' t' := by
  cases hact with
  | call =>
    intro hlate
    obtain ⟨late, hreturned⟩ := of_decide_eq_true hlate
    exact (hsound.returned _ late hreturned).2
  | refuse => trivial
  | @ask paymentId late record hfree hcheck =>
    -- The record is paid, so no refund has returned, and nobody holds it, so none is under way.
    obtain ⟨hrecord, hstate⟩ := checkRefund_ok hcheck
    have hpaid := not_noLongerPaid hrecord hstate
    have hnew : .answered paymentId ∉ s.history := fun hanswered =>
      (hsound.answered paymentId hanswered).elim hpaid hfree
    refine ⟨?_, hrecord, hstate, ?_⟩
    · cases late with
      | false => rfl
      | true => exact absurd (h rfl) hpaid
    · simpa [RefundStore.note] using hnew
  | confirm hanswer =>
    obtain ⟨hlate, hrecord, -, -⟩ := h
    exact ⟨hlate, hrecord⟩
  | flush hfree =>
    obtain ⟨hproper, -, -⟩ := h
    refine ⟨hproper, trivial, fun paymentId hmem hanswered => ?_⟩
    rw [List.mem_singleton] at hmem
    exact (hsound.answered paymentId hanswered).resolve_right (hmem ▸ hfree)
  | report hact hopen hflushed =>
    obtain ⟨hproper, -, hlocked⟩ := h
    exact ⟨hproper.act hact, hflushed, hlocked⟩
  | _ => trivial

namespace SoundRefunds

/-- A payment that PayApp has cancelled and whose record is no longer locked is not paid. -/
theorem answered_release (h : SoundRefunds s) {locked : List UUID}
    (hlocked : ∀ paymentId ∈ locked, .answered paymentId ∈ s.history →
      NoLongerPaid s.db.payments paymentId) :
    ∀ paymentId, .answered paymentId ∈ s.history →
      NoLongerPaid s.db.payments paymentId ∨ paymentId ∈ (s.release locked).locks := by
  intro paymentId hanswered
  rcases h.answered paymentId hanswered with hleft | hheld
  · exact .inl hleft
  · -- What is released is no longer paid, and what is not is still held.
    by_cases hmem : paymentId ∈ locked
    · exact .inl (hlocked paymentId hmem hanswered)
    · exact .inr (List.mem_filter.mpr ⟨hheld, decide_eq_true hmem⟩)

/-- A call has raised. -/
theorem raised (h : SoundRefunds s) (paymentId : UUID) (late : Bool) :
    SoundRefunds (s.note (.raised paymentId late)) where
  intact := h.intact
  count_answered := by simpa [RefundStore.note] using h.count_answered
  answered := by simpa [RefundStore.note] using h.answered
  returned := by simpa [RefundStore.note] using h.returned
  contacted := by simpa [RefundStore.note] using h.contacted

theorem release (h : SoundRefunds s) {locked : List UUID}
    (hlocked : ∀ paymentId ∈ locked, .answered paymentId ∈ s.history →
      NoLongerPaid s.db.payments paymentId) : SoundRefunds (s.release locked) :=
  ⟨h.intact, h.count_answered, h.answered_release hlocked, h.returned, h.contacted⟩

/-- PayApp cancels a payment that it has not cancelled before. -/
theorem answer (h : SoundRefunds s) (hlocked : paymentId ∈ s.locks)
    (hnew : .answered paymentId ∉ s.history) : SoundRefunds (s.note (.answered paymentId)) where
  intact := h.intact
  count_answered := by
    intro other
    by_cases hother : paymentId = other
    · subst hother
      simp [RefundStore.note, List.count_eq_zero.mpr hnew]
    · simpa [RefundStore.note, hother] using h.count_answered other
  answered := by
    intro other hanswered
    rcases List.mem_cons.mp hanswered with heq | hbefore
    · cases heq
      exact .inr hlocked
    · exact h.answered other hbefore
  returned := by simpa [RefundStore.note] using h.returned
  contacted := by simpa [RefundStore.note] using h.contacted

/-- The record of a payment is marked as refunded. -/
theorem mark (h : SoundRefunds s)
    (hrecord : Payments.paymentOf s.db.payments paymentId = some record) :
    SoundRefunds ({ s with db := s.db.withRefund paymentId }.note (.returned paymentId false)) := by
  have hkept : ∀ other, NoLongerPaid s.db.payments other →
      NoLongerPaid (s.db.withRefund paymentId).payments other := fun other hleft =>
    hleft.map (restates_refunded paymentId) (refunded_payState paymentId)
  have hmarked : NoLongerPaid (s.db.withRefund paymentId).payments paymentId := by
    refine ⟨refunded paymentId record, ?_, ?_⟩
    · exact (paymentOf_map (restates_refunded paymentId) _ _).trans
        (by rw [hrecord, Option.map_some])
    · rw [refunded, if_pos (id_of_paymentOf hrecord)]
      exact fun heq => absurd (Option.some.inj heq) (by decide)
  refine ⟨h.intact.map (restates_refunded paymentId), ?_, fun other hanswered => ?_,
    fun other late hreturned => ?_, ?_⟩
  · simpa [RefundStore.note] using h.count_answered
  · exact (h.answered other (by simpa [RefundStore.note] using hanswered)).imp_left (hkept other)
  · rcases List.mem_cons.mp hreturned with heq | hbefore
    · cases heq
      exact ⟨rfl, hmarked⟩
    · obtain ⟨hlate, hleft⟩ := h.returned other late hbefore
      exact ⟨hlate, hkept other hleft⟩
  · simpa [RefundStore.note] using h.contacted

/-- A report has committed what it leaves of the records it has locked. -/
theorem reported (h : SoundRefunds s) {db' : Database} {locked : List UUID}
    (hreported : Reported s.db.payments locked db'.payments)
    (hkeys : (db'.payments.map (·.id)).Nodup) : SoundRefunds { s with db := db' } where
  intact := hreported.intact h.intact hkeys
  count_answered := h.count_answered
  answered := fun paymentId hanswered =>
    (h.answered paymentId hanswered).imp_left hreported.noLongerPaid
  returned := fun paymentId late hreturned =>
    (h.returned paymentId late hreturned).imp_right hreported.noLongerPaid
  contacted := h.contacted

/-- One more record is locked. -/
theorem lock (h : SoundRefunds s) (paymentId : UUID) :
    SoundRefunds { s with locks := paymentId :: s.locks } where
  intact := h.intact
  count_answered := h.count_answered
  answered := fun other hanswered =>
    (h.answered other hanswered).imp_right (List.mem_cons_of_mem paymentId)
  returned := h.returned
  contacted := h.contacted

/-- One statement. -/
theorem act (h : SoundRefunds s) (hfits : Fits s t)
    (hheld : ∀ paymentId ∈ t.held, paymentId ∈ s.locks)
    (hact : RefundAct settings encode s t s' t') : SoundRefunds s' := by
  cases hact with
  | call => exact h
  | refuse => exact h.raised _ _
  | @ask paymentId late record hfree hcheck =>
    have hask : RefundAct settings encode s (.selecting paymentId late) _ _ := .ask hfree hcheck
    obtain ⟨rfl, -, -, -⟩ := hfits.act h hask
    refine SoundRefunds.lock (s := s.note (.contacted paymentId false)) ?_ paymentId
    exact ⟨h.intact, by simpa [RefundStore.note] using h.count_answered,
      by simpa [RefundStore.note] using h.answered, by simpa [RefundStore.note] using h.returned,
      by simpa [RefundStore.note] using h.contacted⟩
  | confirm =>
    obtain ⟨-, -, -, hnew⟩ := hfits
    exact h.answer (hheld _ List.mem_cons_self) hnew
  | decline =>
    obtain ⟨-, -, -, hnew⟩ := hfits
    refine (h.raised _ _).release fun paymentId hmem hanswered => ?_
    rw [List.mem_singleton] at hmem
    subst hmem
    exact absurd (by simpa [RefundStore.note] using hanswered) hnew
  | commit htype =>
    obtain ⟨rfl, hrecord⟩ := hfits
    have hmarked := h.mark hrecord
    refine hmarked.release fun paymentId hmem _ => ?_
    rw [List.mem_singleton] at hmem
    exact hmem ▸ (hmarked.returned _ false List.mem_cons_self).2
  | raise htype =>
    obtain ⟨-, hrecord⟩ := hfits
    obtain ⟨type, hvalid⟩ := h.intact.types _ (List.mem_of_find?_eq_some hrecord)
    rw [subscriptionType_eq_ok.mpr hvalid] at htype
    cases htype
  | lose htask =>
    refine (h.raised _ _).release fun paymentId hmem hanswered => ?_
    rcases htask with rfl | ⟨record, rfl⟩
    · cases hmem
    · obtain ⟨-, -, -, hnew⟩ := hfits
      obtain rfl := List.mem_singleton.mp hmem
      exact absurd (by simpa [RefundStore.note] using hanswered) hnew
  | flush => exact h.lock _
  | report => exact h
  | finish hact hkeys =>
    obtain ⟨hproper, hflushed, hlocked⟩ := hfits
    have hreported := Payments.reported hproper hflushed hact
    exact (h.reported hreported hkeys).release fun paymentId hmem hanswered =>
      hreported.noLongerPaid (hlocked paymentId hmem hanswered)

/-- What others change is not about payments. -/
theorem otherTables (h : SoundRefunds s) (hother : OtherTables s s') :
    SoundRefunds s' ∧ Spares s s' [] := by
  obtain ⟨db, rfl, hpayments⟩ := hother
  refine ⟨⟨hpayments ▸ h.intact, h.count_answered, hpayments ▸ h.answered, ?_, h.contacted⟩, ?_⟩
  · exact hpayments ▸ h.returned
  · exact ⟨hpayments ▸ fun _ hleft => hleft, hpayments ▸ fun _ _ _ hrecord => hrecord,
      fun _ _ hanswered => hanswered⟩

end SoundRefunds

theorem RefundAct.exclusive {before after : List RefundTask}
    (hact : RefundAct settings encode s t s' t')
    (h : Exclusive RefundTask.held s.locks (before ++ t :: after)) :
    Exclusive RefundTask.held s'.locks (before ++ t' :: after) := by
  cases hact with
  | call => exact h.keep rfl
  | refuse => exact h.keep rfl
  | ask hfree => exact h.acquire hfree rfl
  | confirm => exact h.keep rfl
  | decline => exact h.release rfl
  | commit => exact h.release rfl
  | raise => exact h.release rfl
  | lose => exact h.release rfl
  | flush hfree => exact h.acquire hfree rfl
  | report => exact h.keep rfl
  | finish => exact h.release rfl

/-- What holds of the store and all sessions. -/
structure SoundPool (p : Pool RefundStore RefundTask) : Prop where
  shared : SoundRefunds p.shared
  fits : ∀ t ∈ p.tasks, Fits p.shared t
  exclusive : Exclusive RefundTask.held p.shared.locks p.tasks

namespace SoundPool

variable {p q : Pool RefundStore RefundTask}

theorem start {db : Database} (h : Intact db.payments) : SoundPool ⟨.start db, []⟩ where
  shared :=
    { intact := h
      count_answered := fun _ => Nat.zero_le 1
      answered := fun _ hanswered => absurd hanswered List.not_mem_nil
      returned := fun _ _ hreturned => absurd hreturned List.not_mem_nil
      contacted := fun _ => List.not_mem_nil }
  fits := fun _ ht => absurd ht List.not_mem_nil
  exclusive := .nil _

/-- A step, after which no payment is paid again. -/
theorem step (h : SoundPool p) (hstep : Pool.Step (refunds settings encode) p q) :
    SoundPool q ∧ ∀ paymentId, NoLongerPaid p.shared.db.payments paymentId →
      NoLongerPaid q.shared.db.payments paymentId := by
  obtain ⟨hsound, hfits, hexclusive⟩ := h
  cases hstep with
  | @env s s' ts henv =>
    obtain ⟨hsound', hspares⟩ := hsound.otherTables henv
    refine ⟨⟨hsound', fun t ht => ?_, ?_⟩, hspares.noLongerPaid⟩
    · exact (hfits t ht).frame (t := .over) hspares fun _ _ => List.not_mem_nil
    · obtain ⟨db, rfl, -⟩ := henv
      exact hexclusive
  | @start t s ts hstart =>
    have hnew : Fits s t ∧ t.held = [] := by
      cases t with
      | calling => exact ⟨trivial, rfl⟩
      | webhook task locked =>
        obtain ⟨hstarts, rfl⟩ := hstart
        cases task with
        | received => exact ⟨⟨trivial, trivial, fun _ hmem => absurd hmem List.not_mem_nil⟩, rfl⟩
        | _ => exact hstarts.elim
      | _ => exact hstart.elim
    exact ⟨⟨hsound, List.forall_mem_cons.mpr ⟨hnew.1, hfits⟩, hexclusive.start hnew.2⟩,
      fun _ hleft => hleft⟩
  | @act s s' t t' before after hact =>
    have ht := hfits t (List.mem_append_right before List.mem_cons_self)
    have hspares := hact.spares ht
    have hheld : ∀ paymentId ∈ t.held, paymentId ∈ s.locks := fun paymentId hmem =>
      hexclusive.perm.subset (List.mem_flatMap.mpr
        ⟨t, List.mem_append_right before List.mem_cons_self, hmem⟩)
    refine ⟨⟨hsound.act ht hheld hact, ?_, hact.exclusive hexclusive⟩, hspares.noLongerPaid⟩
    refine forall_mem_middle hfits (fun u hu hfit => ?_) fun _ => ht.act hsound hact
    exact hfit.frame hspares fun paymentId hmem hown => hexclusive.not_mem_held hown hu hmem

theorem run (h : SoundPool p)
    (hrun : Relation.ReflTransGen (Pool.Step (refunds settings encode)) p q) :
    SoundPool q ∧ ∀ paymentId, NoLongerPaid p.shared.db.payments paymentId →
      NoLongerPaid q.shared.db.payments paymentId := by
  induction hrun with
  | refl => exact ⟨h, fun _ hleft => hleft⟩
  | tail _ hstep ih =>
    obtain ⟨hsound, hkept⟩ := ih
    obtain ⟨hafter, hstays⟩ := hsound.step hstep
    exact ⟨hafter, fun paymentId hleft => hstays paymentId (hkept paymentId hleft)⟩

end SoundPool

/-- A payment is refunded once, and a call that is made after one has returned asks PayApp
nothing, does not return, and raises when it gets to look at the record. -/
structure RefundedOnce (settings : Settings) (p : Pool RefundStore RefundTask)
    (paymentId : UUID) : Prop where
  answered : p.shared.history.count (.answered paymentId) ≤ 1
  contacted : .contacted paymentId true ∉ p.shared.history
  returned : .returned paymentId true ∉ p.shared.history
  refused : .selecting paymentId true ∈ p.tasks → ∃ message,
    checkRefund settings (paymentOf p.shared.db.payments paymentId) = .error (.valueError message)

/-- In every run every payment is refunded once, and a payment that is no longer paid is not paid
in any state that follows. -/
theorem refundedOnce_of_reachable {start : Database} (hstart : Intact start.payments)
    {p : Pool RefundStore RefundTask}
    (h : Pool.Reachable (refunds settings encode) (.start start) p) (paymentId : UUID) :
    RefundedOnce settings p paymentId ∧
      ∀ q, Relation.ReflTransGen (Pool.Step (refunds settings encode)) p q →
        NoLongerPaid p.shared.db.payments paymentId →
        NoLongerPaid q.shared.db.payments paymentId := by
  obtain ⟨hsound, -⟩ := (SoundPool.start hstart).run h
  refine ⟨⟨hsound.shared.count_answered paymentId, hsound.shared.contacted paymentId, ?_, ?_⟩,
    fun q hrun => (hsound.run hrun).2 paymentId⟩
  · intro hreturned
    exact absurd (hsound.shared.returned paymentId true hreturned).1 (by decide)
  · intro hlate
    exact (hsound.fits _ hlate rfl).checkRefund settings

/-- A refund of the first charge returns, and another one is made. -/
theorem refundedOnce_of_reachable_twice : ∃ p,
    Pool.Reachable (refunds shop unsigned) (.start paidShop) p ∧
      .selecting firstCharge.record.id true ∈ p.tasks ∧
      RefundedOnce shop p firstCharge.record.id ∧
      ∀ q, Relation.ReflTransGen (Pool.Step (refunds shop unsigned)) p q →
        NoLongerPaid p.shared.db.payments firstCharge.record.id →
        NoLongerPaid q.shared.db.payments firstCharge.record.id := by
  have hintact : Intact paidShop.payments := by
    rw [payments_paidShop]
    exact ⟨List.nodup_singleton _, fun record hrecord =>
      ⟨.logit, by rw [List.mem_singleton.mp hrecord]; rfl⟩⟩
  have hfree : firstCharge.record.id ∉ (RefundStore.start paidShop).locks := List.not_mem_nil
  obtain ⟨history, hrefund, hreturned⟩ :=
    runs_refundPayment shop unsigned (fun _ => accepted) hfree
  obtain ⟨late, hreturned⟩ := hreturned _ refundPayment_paidShop
  have hlate : ∀ db locks, (refunds shop unsigned).Runs
      (⟨db, locks, history⟩, .calling firstCharge.record.id)
      (⟨db, locks, history⟩, .selecting firstCharge.record.id true) := by
    intro db locks
    have hcall : (refunds shop unsigned).act ⟨db, locks, history⟩
      (.calling firstCharge.record.id) _ _ := .call
    rw [show RefundStore.returned ⟨db, locks, history⟩ firstCharge.record.id = true from
      decide_eq_true ⟨late, hreturned⟩] at hcall
    exact .last hcall
  have hreach := (hlate _ _).reachable trivial (hrefund.reachable trivial .refl)
  exact ⟨_, hreach, List.mem_cons_self,
    refundedOnce_of_reachable hintact hreach firstCharge.record.id⟩

end Logit.Payments
