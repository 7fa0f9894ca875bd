import Logit.Payments.Charges
import Logit.Payments.Entitlement

/-!
# Malformed reports

Anyone can post a report, and the service is to answer one that is not in order with `FAIL`.
Some of its fields are read where an exception is caught and others are not, so a malformed
report may raise instead. A report is answered exactly if it is well formed as far as it is
read, and what is answered with `FAIL` has changed nothing.

## Main definitions

* `Column` — where statements carry texts of a report
* `webhookTexts`, `answerWebhook` — what is answered when the database may refuse a text
* `WellFormed` — a report is well formed as far as it is read
* `Answered` — a report is answered, and has changed nothing if the answer is `FAIL`

## Main results

* `handleWebhook_fail` — `FAIL` leaves the database as it is
* `answered_iff` — the reports that are answered
-/

namespace Logit.Payments

open Calendar Python Security Subscriptions

/-! ## Texts for the database -/

/-- The columns that texts of a report are looked up in or written to. -/
inductive Column
  | rebillNo
  /-- The key of the table of plans. -/
  | planId
  /-- It has an index, unlike the other columns of a record. -/
  | mulNo
  | cardName
  | cardNumber
  | receiptUrl
  deriving DecidableEq

/-- The optional texts of a report that are written into the record of a charge. The text of
`raw_webhook_data` is left out: a character that is not printable is escaped in it. -/
def recordTexts (form : WebhookForm) : List (Column × String) :=
  [form.mulNo.map (.mulNo, ·), form.cardName.map (.cardName, ·),
    form.cardNum.map (.cardNumber, ·), form.csturl.map (.receiptUrl, ·)].reduceOption

/-- The texts of a report of a paid charge that statements carry. -/
def completeTexts (db : Database) (form : WebhookForm) : List (Column × String) :=
  let rebillNo := (.rebillNo, form.rebillNo.getD "")
  match paymentOfRebill db.payments rebillNo.2, UUID.parse (form.var1.getD "") with
  | .ok existing, some _ =>
    if (existing.bind (·.paidAt)).isSome then [rebillNo]
    else
      let planKey := (.planId, form.var2.getD "")
      match db.plans planKey.2 with
      | none => [rebillNo, planKey]
      | some dbPlan =>
        if int 10 (form.price.getD "") = some dbPlan.price then
          rebillNo :: planKey :: recordTexts form
        else [rebillNo, planKey]
  | _, _ => [rebillNo]

/-- The texts of a report that carries the credentials that statements carry. -/
def webhookTexts (settings : Settings) (db : Database) (form : WebhookForm) :
    List (Column × String) :=
  match verifyWebhook settings form, int 10 (form.payState.getD "0") with
  | .ok true, some payState =>
    if payState = 4 then completeTexts db form
    else if payState ∈ [8, 9, 32, 64] then [(.rebillNo, form.rebillNo.getD "")]
    else []
  | _, _ => []

variable (takes : Column → String → Bool) (settings : Settings) (encode : JwtEncode)

/-- The answer to a report and the database after it, or `none` if its handling raises. The
database does not take every text: PostgreSQL refuses those with the character U+0000, and in
an index those that are too long. -/
def answerWebhook (db : Database) (delivery : Delivery) : Option (WebhookReply × Database) :=
  if (webhookTexts settings db delivery.form).all fun text => takes text.1 text.2 then
    (handleWebhook settings encode db delivery).toOption
  else none

/-- A report is answered, and has changed nothing if the answer is `FAIL`. -/
def Answered (db : Database) (delivery : Delivery) : Prop :=
  ∃ reply after, answerWebhook takes settings encode db delivery = some (reply, after) ∧
    (reply = .fail → after = db)

/-! ## Well-formed reports -/

/-- Two texts can be compared. -/
def Comparable (a b : String) : Prop := (a.toList ++ b.toList).all (·.toNat < 128) = true

instance (a b : String) : Decidable (Comparable a b) :=
  inferInstanceAs (Decidable (List.all _ _ = true))

/-- The credentials can be compared as far as they are. -/
def Compared (form : WebhookForm) : Prop :=
  Comparable (form.userid.getD "") (settings.PAYAPP_USERID.getD "") ∧
    (form.userid.getD "" = settings.PAYAPP_USERID.getD "" →
      Comparable (form.linkkey.getD "") (settings.PAYAPP_LINKKEY.getD "") ∧
        (form.linkkey.getD "" = settings.PAYAPP_LINKKEY.getD "" →
          Comparable (form.linkval.getD "") (settings.PAYAPP_LINKVAL.getD "")))

/-- A report carries the credentials. -/
def Carries (form : WebhookForm) : Prop :=
  form.userid.getD "" = settings.PAYAPP_USERID.getD "" ∧
    form.linkkey.getD "" = settings.PAYAPP_LINKKEY.getD "" ∧
      form.linkval.getD "" = settings.PAYAPP_LINKVAL.getD ""

/-- A charge at the price of its plan can be recorded. -/
structure Recordable (db : Database) (form : WebhookForm) (userId : UUID) : Prop where
  /-- The key of the plan is made of a type and a plan there are. -/
  plan : ∃ type plan, planParts (form.var2.getD "") =
    .ok (SubscriptionType.value type, SubscriptionPlan.value plan) ∧
      (type = .mcp → settings.MCP_JWT_SECRET ≠ "")
  user : db.users userId = true
  texts : ∀ text ∈ recordTexts form, takes text.1 text.2 = true

/-- A report of a paid charge is well formed. -/
structure CompleteFormed (db : Database) (form : WebhookForm) : Prop where
  number : takes .rebillNo (form.rebillNo.getD "") = true
  unique : (recordsOf db.payments (form.rebillNo.getD "")).length ≤ 1
  unpaid : (∀ record ∈ recordsOf db.payments (form.rebillNo.getD ""), record.paidAt = none) →
    ∀ userId, UUID.parse (form.var1.getD "") = some userId →
      takes .planId (form.var2.getD "") = true ∧
        ∀ dbPlan, db.plans (form.var2.getD "") = some dbPlan →
          int 10 (form.price.getD "") = some dbPlan.price →
          Recordable takes settings db form userId

/-- A report of a cancellation is well formed. -/
structure CancelFormed (db : Database) (form : WebhookForm) : Prop where
  number : takes .rebillNo (form.rebillNo.getD "") = true
  unique : (recordsOf db.payments (form.rebillNo.getD "")).length ≤ 1
  typed : ∀ record ∈ recordsOf db.payments (form.rebillNo.getD ""),
    ∃ type, record.subscriptionType = SubscriptionType.value type

/-- A report is well formed as far as it is read. -/
structure WellFormed (db : Database) (form : WebhookForm) : Prop where
  compared : Compared settings form
  stated : Carries settings form →
    ∃ payState, int 10 (form.payState.getD "0") = some payState ∧
      (payState = 4 → CompleteFormed takes settings db form) ∧
      (payState ∈ [8, 9, 32, 64] → CancelFormed takes db form)

variable {takes settings encode} {db after : Database} {delivery : Delivery} {form : WebhookForm}
  {rebillNo : String} {mulNo : Option String} {userId : UUID} {dbPlan : Plan}

/-! ## Credentials -/

theorem compareDigest_eq {a b : String} (h : Comparable a b) :
    compareDigest a b = .ok (a = b) :=
  if_pos h

theorem compareDigest_error {a b : String} (h : ¬ Comparable a b) :
    compareDigest a b = .error .typeError :=
  if_neg h

theorem verifyWebhook_eq [Decidable (Carries settings form)] (h : Compared settings form) :
    verifyWebhook settings form = .ok (Carries settings form) := by
  obtain ⟨huserid, h⟩ := h
  unfold verifyWebhook
  rw [compareDigest_eq huserid]
  by_cases huser : form.userid.getD "" = settings.PAYAPP_USERID.getD ""
  · obtain ⟨hlinkkey, h⟩ := h huser
    rw [compareDigest_eq hlinkkey]
    by_cases hkey : form.linkkey.getD "" = settings.PAYAPP_LINKKEY.getD ""
    · rw [compareDigest_eq (h hkey)]
      simp [Carries, huser, hkey, bind, Except.bind]
    · simp [Carries, huser, hkey, bind, Except.bind, pure, Except.pure]
  · simp [Carries, huser, bind, Except.bind, pure, Except.pure]

theorem returns_verifyWebhook_iff :
    Returns (verifyWebhook settings form) ↔ Compared settings form := by
  classical
  constructor
  · intro hreturns
    unfold verifyWebhook at hreturns
    by_cases huserid : Comparable (form.userid.getD "") (settings.PAYAPP_USERID.getD "")
    · refine ⟨huserid, fun huser => ?_⟩
      rw [compareDigest_eq huserid] at hreturns
      by_cases hlinkkey : Comparable (form.linkkey.getD "") (settings.PAYAPP_LINKKEY.getD "")
      · refine ⟨hlinkkey, fun hkey => ?_⟩
        by_contra hlinkval
        rw [compareDigest_eq hlinkkey, compareDigest_error hlinkval] at hreturns
        simp [Returns, huser, hkey, bind, Except.bind] at hreturns
      · rw [compareDigest_error hlinkkey] at hreturns
        simp [Returns, huser, bind, Except.bind] at hreturns
    · rw [compareDigest_error huserid] at hreturns
      simp [Returns, bind, Except.bind] at hreturns
  · intro h
    exact ⟨_, verifyWebhook_eq h⟩

/-! ## Paid charges -/

theorem returns_paymentOfRebill_iff {payments : List PaymentRecord} :
    Returns (paymentOfRebill payments rebillNo) ↔ (recordsOf payments rebillNo).length ≤ 1 := by
  unfold paymentOfRebill
  split
  · next hnone => exact iff_of_true ⟨_, rfl⟩ (by simp [hnone])
  · next hone => exact iff_of_true ⟨_, rfl⟩ (by simp [hone])
  · next hnone hone =>
    refine iff_of_false (by rintro ⟨_, ⟨⟩⟩) fun hlength => ?_
    rcases hrecords : recordsOf payments rebillNo with _ | ⟨record, _ | ⟨_, _⟩⟩
    · exact hnone hrecords
    · exact hone record hrecords
    · simp [hrecords] at hlength

theorem reply_recordPayment {reply : WebhookReply}
    (h : recordPayment settings encode db delivery rebillNo mulNo userId dbPlan =
      .ok (reply, after)) : reply = .success := by
  simp only [recordPayment, bind_eq_ok, Prod.exists] at h
  obtain ⟨_, _, -, _, -, _, -, h⟩ := h
  split_ifs at h
  · obtain ⟨_, hthrow, -⟩ := bind_eq_ok.mp h
    exact (throw_eq_ok.mp hthrow).elim
  · obtain ⟨_, -, h⟩ := bind_eq_ok.mp h
    cases pure_eq_ok.mp h
    rfl

/-- A charge is recorded exactly if the key of its plan is made of a type and a plan there are,
tokens can be signed if it is an MCP plan, and there is the user. -/
theorem returns_recordPayment_iff :
    Returns (recordPayment settings encode db delivery rebillNo mulNo userId dbPlan) ↔
      (∃ type plan, planParts (delivery.form.var2.getD "") =
        .ok (SubscriptionType.value type, SubscriptionPlan.value plan) ∧
          (type = .mcp → settings.MCP_JWT_SECRET ≠ "")) ∧ db.users userId = true := by
  constructor
  · rintro ⟨⟨reply, after⟩, h⟩
    obtain ⟨subType, plan, subscriptions, record, hparts, huser, hactivated, -⟩ :=
      recordPayment_activates h
    obtain ⟨type, plan', token, htype, hplan, -, -⟩ := activateSubscription_ok hactivated
    obtain rfl : type.value = subType := SubscriptionType.value_of_ofValue? htype
    obtain rfl : plan'.value = plan := SubscriptionPlan.value_of_ofValue? hplan
    refine ⟨⟨type, plan', hparts, ?_⟩, huser⟩
    rintro rfl
    exact secret_of_activateSubscription hactivated htype
  · rintro ⟨⟨type, plan, hparts, hsecret⟩, huser⟩
    simp only [recordPayment, returns_bind, Prod.exists]
    refine ⟨_, _, hparts, type, subscriptionType_eq_ok.mpr (by simp), plan, ?_, ?_⟩
    · simp [subscriptionPlan]
    · rw [huser, Bool.not_true, if_neg Bool.false_ne_true]
      obtain ⟨⟨after, paid⟩, hactivated⟩ := activateSubscription_exists encode db.subscriptions
        delivery.activatedAt
        { id := delivery.recordId, userId, subscriptionType := type.value, plan := plan.value,
          amount := dbPlan.price, mulNo, rebillNo := some rebillNo, payState := some 4,
          cardName := delivery.form.cardName, cardNumber := delivery.form.cardNum,
          receiptUrl := delivery.form.csturl, subscriptionStartedAt := none,
          subscriptionExpiresAt := none, rawWebhookData := some delivery.form.data,
          paidAt := some delivery.paidAt } rfl rfl hsecret
      exact returns_bind.mpr ⟨_, hactivated, returns_pure _⟩

theorem completeTexts_eq {existing : Option PaymentRecord}
    (h : paymentOfRebill db.payments (form.rebillNo.getD "") = .ok existing) :
    completeTexts db form =
      if (existing.bind (·.paidAt)).isSome then [(.rebillNo, form.rebillNo.getD "")]
      else match UUID.parse (form.var1.getD "") with
        | none => [(.rebillNo, form.rebillNo.getD "")]
        | some _ =>
          match db.plans (form.var2.getD "") with
          | none => [(.rebillNo, form.rebillNo.getD ""), (.planId, form.var2.getD "")]
          | some dbPlan =>
            if int 10 (form.price.getD "") = some dbPlan.price then
              (.rebillNo, form.rebillNo.getD "") :: (.planId, form.var2.getD "") ::
                recordTexts form
            else [(.rebillNo, form.rebillNo.getD ""), (.planId, form.var2.getD "")] := by
  simp only [completeTexts, h]
  cases UUID.parse (form.var1.getD "") with
  | none => exact (ite_self _).symm
  | some userId => rfl

theorem recordable_iff :
    Recordable takes settings db delivery.form userId ↔
      (∀ text ∈ recordTexts delivery.form, takes text.1 text.2 = true) ∧
        Returns (recordPayment settings encode db delivery rebillNo mulNo userId dbPlan) := by
  rw [returns_recordPayment_iff]
  constructor
  · intro h
    exact ⟨h.texts, h.plan, h.user⟩
  · rintro ⟨htexts, hplan, huser⟩
    exact ⟨hplan, huser, htexts⟩

/-- A report of a paid charge is handled, and its texts are taken, exactly if it is well formed. -/
theorem completeFormed_iff :
    CompleteFormed takes settings db delivery.form ↔
      (∀ text ∈ completeTexts db delivery.form, takes text.1 text.2 = true) ∧
        Returns (handlePaymentComplete settings encode db delivery
          (delivery.form.rebillNo.getD "") delivery.form.mulNo) := by
  by_cases hunique : (recordsOf db.payments (delivery.form.rebillNo.getD "")).length ≤ 1
  · obtain ⟨existing, hexisting⟩ := returns_paymentOfRebill_iff.mpr hunique
    have hunpaid : (∀ record ∈ recordsOf db.payments (delivery.form.rebillNo.getD ""),
        record.paidAt = none) ↔ ¬ (existing.bind (·.paidAt)).isSome = true := by
      rw [recordsOf_eq_toList hexisting]
      cases existing <;> simp
    have hformed : CompleteFormed takes settings db delivery.form ↔
        takes .rebillNo (delivery.form.rebillNo.getD "") = true ∧
          (¬ (existing.bind (·.paidAt)).isSome = true →
            ∀ userId, UUID.parse (delivery.form.var1.getD "") = some userId →
              takes .planId (delivery.form.var2.getD "") = true ∧
                ∀ dbPlan, db.plans (delivery.form.var2.getD "") = some dbPlan →
                  int 10 (delivery.form.price.getD "") = some dbPlan.price →
                    Recordable takes settings db delivery.form userId) := by
      rw [← hunpaid]
      exact ⟨fun h => ⟨h.number, h.unpaid⟩, fun h => ⟨h.1, hunique, h.2⟩⟩
    rw [hformed, handlePaymentComplete_eq hexisting, completeTexts_eq hexisting]
    by_cases hpaid : (existing.bind (·.paidAt)).isSome = true
    · simp [hpaid]
    · simp only [hpaid]
      cases UUID.parse (delivery.form.var1.getD "") with
      | none => simp
      | some userId =>
        cases db.plans (delivery.form.var2.getD "") with
        | none => simp
        | some dbPlan =>
          by_cases hprice : int 10 (delivery.form.price.getD "") = some dbPlan.price
          · have hrecordable : Recordable takes settings db delivery.form userId ↔
                (∀ text ∈ recordTexts delivery.form, takes text.1 text.2 = true) ∧
                  Returns (recordPayment settings encode db delivery
                    (delivery.form.rebillNo.getD "") delivery.form.mulNo userId dbPlan) :=
              recordable_iff
            simp [hprice, hrecordable, and_assoc]
          · simp [hprice]
  · -- The lookup of the record raises.
    refine iff_of_false (fun h => hunique h.unique) ?_
    rintro ⟨-, hreturns⟩
    obtain ⟨existing, hexisting, -⟩ := returns_bind.mp hreturns
    exact hunique (returns_paymentOfRebill_iff.mp ⟨existing, hexisting⟩)

/-! ## Cancellations -/

/-- A report of a cancellation is handled exactly if the record it finds, if it finds one, is of
a type there is. -/
theorem returns_handlePaymentCancel_iff {payState : ℤ} :
    Returns (handlePaymentCancel db form rebillNo payState) ↔
      (recordsOf db.payments rebillNo).length ≤ 1 ∧ ∀ record ∈ recordsOf db.payments rebillNo,
        ∃ type, record.subscriptionType = SubscriptionType.value type := by
  unfold handlePaymentCancel
  rw [returns_bind, ← returns_paymentOfRebill_iff]
  refine ⟨?_, ?_⟩
  · rintro ⟨existing, hexisting, hreturns⟩
    refine ⟨⟨existing, hexisting⟩, fun record hrecord => ?_⟩
    rw [recordsOf_eq_toList hexisting, Option.mem_toList] at hrecord
    obtain rfl : existing = some record := hrecord
    obtain ⟨type, htype, -⟩ := returns_bind.mp hreturns
    exact ⟨type, (SubscriptionType.value_of_ofValue? (subscriptionType_eq_ok.mp htype)).symm⟩
  · rintro ⟨⟨existing, hexisting⟩, htyped⟩
    refine ⟨existing, hexisting, ?_⟩
    cases existing with
    | some record =>
      rw [recordsOf_eq_toList hexisting] at htyped
      obtain ⟨type, htype⟩ := htyped record (by simp)
      exact returns_bind.mpr ⟨type, subscriptionType_eq_ok.mpr (by simp [htype]), returns_pure _⟩
    | none =>
      dsimp only
      split
      · exact returns_pure _
      · exact returns_pure _

theorem cancelFormed_iff {payState : ℤ} :
    CancelFormed takes db form ↔ takes .rebillNo (form.rebillNo.getD "") = true ∧
      Returns (handlePaymentCancel db form (form.rebillNo.getD "") payState) := by
  rw [returns_handlePaymentCancel_iff]
  constructor
  · intro h
    exact ⟨h.number, h.unique, h.typed⟩
  · rintro ⟨hnumber, hunique, htyped⟩
    exact ⟨hnumber, hunique, htyped⟩

/-! ## Answers -/

/-- A report that is answered with `FAIL` has changed nothing. -/
theorem handleWebhook_fail (h : handleWebhook settings encode db delivery = .ok (.fail, after)) :
    after = db := by
  rcases handleWebhook_ok h with hunchanged | ⟨-, payState, -, ⟨-, hcomplete⟩ | ⟨-, hcancel⟩⟩
  · exact hunchanged
  · rcases handlePaymentComplete_cases hcomplete with
      hunchanged | ⟨existing, userId, dbPlan, -, -, -, -, -, hrecorded⟩
    · exact hunchanged
    · cases reply_recordPayment hrecorded
  · obtain ⟨existing, -, hcancel⟩ := bind_eq_ok.mp hcancel
    cases existing with
    | some record =>
      obtain ⟨type, -, hcancel⟩ := bind_eq_ok.mp hcancel
      cases pure_eq_ok.mp hcancel
    | none =>
      dsimp only at hcancel
      split at hcancel
      · cases pure_eq_ok.mp hcancel
      · rw [pure_eq_ok, Prod.mk.injEq] at hcancel
        exact hcancel.2.symm

/-- The handling raises if the comparison of the credentials does. -/
theorem not_returns_handleWebhook
    (hconfigured : isSet settings.PAYAPP_USERID ∧ isSet settings.PAYAPP_LINKKEY ∧
      isSet settings.PAYAPP_LINKVAL)
    (hcompared : ¬ Compared settings delivery.form) :
    ¬ Returns (handleWebhook settings encode db delivery) := by
  intro h
  cases hverified : verifyWebhook settings delivery.form with
  | error e => simp [handleWebhook, hconfigured, hverified, Returns, bind, Except.bind] at h
  | ok verified => exact hcompared (returns_verifyWebhook_iff.mp ⟨verified, hverified⟩)

/-- A report is answered exactly if its texts are taken and its handling does not raise. -/
theorem answered_iff_returns :
    Answered takes settings encode db delivery ↔
      (∀ text ∈ webhookTexts settings db delivery.form, takes text.1 text.2 = true) ∧
        Returns (handleWebhook settings encode db delivery) := by
  unfold Answered answerWebhook
  rw [← List.all_eq_true]
  split_ifs with htexts
  · refine ⟨?_, ?_⟩
    · rintro ⟨reply, after, hanswer, -⟩
      refine ⟨htexts, (reply, after), ?_⟩
      cases hhandled : handleWebhook settings encode db delivery with
      | error e => simp [hhandled, Except.toOption] at hanswer
      | ok answer =>
        rw [hhandled] at hanswer
        exact congrArg Except.ok (Option.some.inj hanswer)
    · rintro ⟨-, ⟨reply, after⟩, hhandled⟩
      refine ⟨reply, after, by rw [hhandled]; rfl, ?_⟩
      rintro rfl
      exact handleWebhook_fail hhandled
  · refine iff_of_false ?_ fun h => htexts h.1
    rintro ⟨_, _, ⟨⟩, -⟩

/-- A report is answered, and then has changed nothing if the answer is `FAIL`, exactly if it is
well formed as far as it is read. -/
theorem answered_iff
    (hconfigured : isSet settings.PAYAPP_USERID ∧ isSet settings.PAYAPP_LINKKEY ∧
      isSet settings.PAYAPP_LINKVAL) :
    Answered takes settings encode db delivery ↔ WellFormed takes settings db delivery.form := by
  classical
  rw [answered_iff_returns]
  by_cases hcompared : Compared settings delivery.form
  · have hverified := verifyWebhook_eq hcompared
    by_cases hcarries : Carries settings delivery.form
    · rw [decide_eq_true hcarries] at hverified
      rw [handleWebhook_accepted ⟨hconfigured, hverified⟩]
      cases hstate : int 10 (delivery.form.payState.getD "0") with
      | none =>
        refine iff_of_false (fun h => not_returns_throw _ h.2) fun h => ?_
        obtain ⟨payState, hsome, -⟩ := h.stated hcarries
        rw [hstate] at hsome
        cases hsome
      | some payState =>
        have hformed : WellFormed takes settings db delivery.form ↔
            (payState = 4 → CompleteFormed takes settings db delivery.form) ∧
              (payState ∈ [8, 9, 32, 64] → CancelFormed takes db delivery.form) := by
          refine ⟨fun h => ?_, fun h => ⟨hcompared, fun _ => ⟨payState, hstate, h⟩⟩⟩
          obtain ⟨state, hsome, hstated⟩ := h.stated hcarries
          rwa [Option.some.inj (hstate.symm.trans hsome)]
        rw [hformed]
        simp only [webhookTexts, hverified, hstate]
        by_cases hfour : payState = 4
        · simp only [if_pos hfour]
          rw [← completeFormed_iff]
          simp [hfour]
        · simp only [if_neg hfour]
          by_cases hcancel : payState ∈ [8, 9, 32, 64]
          · simp only [if_pos hcancel]
            rw [List.forall_mem_singleton, ← cancelFormed_iff]
            simp [hfour, hcancel]
          · simp only [if_neg hcancel]
            exact iff_of_true ⟨nofun, returns_pure _⟩
              ⟨fun h => absurd h hfour, fun h => absurd h hcancel⟩
    · -- A report without the credentials is refused before anything else of it is read.
      rw [decide_eq_false hcarries] at hverified
      refine iff_of_true ⟨?_, ?_⟩ ⟨hcompared, fun h => absurd h hcarries⟩
      · simp [webhookTexts, hverified]
      · simp [handleWebhook, hconfigured, hverified, bind, Except.bind]
  · exact iff_of_false (fun h => not_returns_handleWebhook hconfigured hcompared h.2) fun h =>
      hcompared h.compared

/-- A report whose user id is not ASCII. -/
def foreignReport : Delivery :=
  { firstCharge.delivery with form := firstCharge.delivery.form.set "userid" "é" }

theorem not_compared_foreignReport : ¬ Compared shop foreignReport.form := fun hcompared =>
  absurd hcompared.1 (by decide : ¬ Comparable "é" "shop")

/-- A report with a wrong value is answered, and one whose user id is not ASCII is not, though the
database takes every text. -/
theorem answered_iff_foreignReport :
    Answered (fun _ _ => true) shop unsigned newShop (refundReport "forged") ∧
      ¬ Answered (fun _ _ => true) shop unsigned newShop foreignReport := by
  have hcompared : Compared shop (refundReport "forged").form :=
    ⟨by decide, fun _ => ⟨by decide, fun _ => by decide⟩⟩
  have hcarries : ¬ Carries shop (refundReport "forged").form := fun h =>
    absurd h.2.2 (by decide : "forged" ≠ "val")
  refine ⟨(answered_iff (by decide)).mpr ⟨hcompared, fun h => absurd h hcarries⟩, ?_⟩
  rw [answered_iff (by decide)]
  exact fun h => not_compared_foreignReport h.compared

/-- The service raises on a report whose user id is not ASCII, even if the database takes every
text. -/
theorem not_answered :
    ¬ ∀ (settings : Settings) (encode : JwtEncode) (log : List (Database × Call)) (db : Database)
      (delivery : Delivery), Run settings encode log db →
      (isSet settings.PAYAPP_USERID ∧ isSet settings.PAYAPP_LINKKEY ∧
        isSet settings.PAYAPP_LINKVAL) →
      Answered (fun _ _ => true) settings encode db delivery := by
  intro h
  have hanswered := h shop unsigned [] newShop foreignReport (.empty ⟨rfl, fun _ _ => rfl⟩)
    (by decide)
  exact not_returns_handleWebhook (by decide) not_compared_foreignReport
    (answered_iff_returns.mp hanswered).2

end Logit.Payments
