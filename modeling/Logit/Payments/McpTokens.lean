import Logit.Auth.Refresh
import Logit.Payments.Entitlement
import Logit.Security.SessionToken

/-!
# Tokens of MCP subscriptions

A token gives access to a server that asks nobody else, until it runs out. Reports issue and
take away the token of a row together with its period, and a user who asks for a token is given
one for the period of the row. So a token never lasts longer than its row, and a row that has
been deactivated is given none before it is activated again.

## Main definitions

* `mcpEncode` — the claims of a token as a JSON Web Token carries them
* `McpChange` — what a call may do to the MCP row of a user
* `Call.Deactivates` — a report or an administrator deactivates a subscription

## Main results

* `Call.mcpChange` — what every call does to it
* `mcpTokens_of_run` — tokens are bounded by the period that has been paid for
-/

namespace Logit.Payments

open Calendar Python Security Subscriptions

/-- Claims as a JSON Web Token carries them: the expiry in whole seconds. -/
def mcpPayload (claims : McpClaims) : Payload :=
  ⟨some claims.exp.unixSeconds, some claims.sub, some "mcp"⟩

/-- Signs the claims of MCP tokens. -/
def mcpEncode (jwt : String → Jwt) : JwtEncode := fun claims secret =>
  (jwt secret).encode (mcpPayload claims)

theorem decode_of_createMcpToken {settings : McpSettings} {jwt : String → Jwt} {now : Datetime}
    {subject : String} {expiresAt : Datetime} {token : String}
    (h : createMcpToken settings (mcpEncode jwt) now subject (some expiresAt) = some token) :
    (jwt settings.MCP_JWT_SECRET).decode token = some (mcpPayload ⟨expiresAt, subject⟩) := by
  unfold createMcpToken at h
  split_ifs at h
  cases h
  exact (jwt settings.MCP_JWT_SECRET).decode_encode _

/-! ## What calls do to a row -/

variable (settings : Settings) (encode : JwtEncode)

/-- What a call may do to the MCP row of a user. -/
inductive McpChange (userId : UUID) : Option Subscription → Option Subscription → Prop
  | same (row : Option Subscription) : McpChange userId row row
  /-- The row expires, or is no longer renewed. -/
  | lapsed {sub : Subscription} {isActive isAutoRenew : Bool}
      (hactive : isActive = true → sub.isActive = true) :
      McpChange userId (some sub) (some { sub with isActive, isAutoRenew })
  | deactivated (sub : Subscription) :
      McpChange userId (some sub) (some (deactivatedRow .mcp sub))
  | issued {sub : Subscription} {issuedAt : Datetime} {token : String}
      (hactive : sub.isActive = true)
      (htoken : createMcpToken settings.toMcpSettings encode issuedAt userId.str sub.expiresAt =
        some token) :
      McpChange userId (some sub) (some { sub with token := some token })
  | activated {row : Option Subscription} {sub : Subscription} {now expiresAt : Datetime}
      {token : String} (hactive : sub.isActive = true) (hexpires : sub.expiresAt = some expiresAt)
      (hstored : sub.token = some token)
      (htoken : createMcpToken settings.toMcpSettings encode now userId.str (some expiresAt) =
        some token) :
      McpChange userId row (some sub)

variable {settings encode} {db after : Database} {userId : UUID} {delivery : Delivery}

/-- An activation of an MCP subscription issues the token of its period. -/
theorem activateSubscription_mcp {subscriptions activated : SubscriptionTable} {now : Datetime}
    {record paid : PaymentRecord}
    (h : activateSubscription settings encode subscriptions now record = .ok (activated, paid))
    (htype : SubscriptionType.ofValue? record.subscriptionType = some .mcp)
    (row : Option Subscription) :
    McpChange settings encode record.userId row (activated record.userId .mcp) := by
  obtain ⟨subType, hsubType, h⟩ := bind_eq_ok.mp h
  obtain ⟨plan, -, h⟩ := bind_eq_ok.mp h
  obtain rfl : SubscriptionType.mcp = subType :=
    Option.some.inj (htype.symm.trans (subscriptionType_eq_ok.mp hsubType))
  dsimp only at h
  rw [if_pos rfl] at h
  split at h
  · next token htoken =>
    obtain ⟨sub, hsub, h⟩ := bind_eq_ok.mp h
    obtain rfl := pure_eq_ok.mp hsub
    rw [pure_eq_ok, Prod.mk.injEq] at h
    rw [← h.1, setSubscription_self]
    have hrow : ∀ existing, (activatedRow existing plan now).isActive = true ∧
        (activatedRow existing plan now).expiresAt = some (now.addDays 31) := by
      intro existing
      cases existing with
      | none => exact ⟨rfl, rfl⟩
      | some sub => exact ⟨rfl, rfl⟩
    exact .activated (hrow _).1 (hrow _).2 rfl htoken
  · obtain ⟨sub, hsub, -⟩ := bind_eq_ok.mp h
    exact (throw_eq_ok.mp hsub).elim

/-- A row is written; it may be that of another user or type. -/
theorem mcpChange_setRow {subscriptions : SubscriptionTable} {user : UUID}
    {type : SubscriptionType} {row : Option Subscription}
    (h : userId = user → .mcp = type →
      McpChange settings encode userId (subscriptions userId .mcp) row) :
    McpChange settings encode userId (subscriptions userId .mcp)
      (setRow subscriptions user type row userId .mcp) := by
  rw [setRow_apply]
  split_ifs with hrow
  · exact h hrow.1 hrow.2
  · exact .same _

/-- A row that is there is changed. -/
theorem mcpChange_map (subscriptions : SubscriptionTable) (user : UUID) (type : SubscriptionType)
    {change : Subscription → Subscription}
    (h : .mcp = type → ∀ sub, McpChange settings encode userId (some sub) (some (change sub))) :
    McpChange settings encode userId (subscriptions userId .mcp)
      (setRow subscriptions user type ((subscriptions user type).map change) userId .mcp) := by
  refine mcpChange_setRow fun huser htype => ?_
  rw [← huser, ← htype]
  cases subscriptions userId .mcp with
  | none => exact .same none
  | some sub => exact h htype sub

theorem mcpChange_deactivate (subscriptions : SubscriptionTable) (user : UUID)
    (type : SubscriptionType) :
    McpChange settings encode userId (subscriptions userId .mcp)
      (deactivateSubscription subscriptions user type userId .mcp) := by
  have hrow : McpChange settings encode userId (subscriptions userId .mcp) (setRow subscriptions
      user type ((subscriptions user type).map (deactivatedRow type)) userId .mcp) := by
    refine mcpChange_map subscriptions user type fun htype sub => ?_
    rw [← htype]
    exact .deactivated sub
  rwa [setRow_map] at hrow

theorem mcpChange_syncExpired (now : Datetime) (sub : Subscription) :
    McpChange settings encode userId (some sub) (some (syncExpired now sub)) := by
  unfold syncExpired
  split_ifs
  · exact .lapsed nofun
  · exact .same _

theorem mcpChange_paymentWebhook (settings : Settings) (encode : JwtEncode) (db : Database)
    (delivery : Delivery) (userId : UUID) :
    McpChange settings encode userId (db.subscriptions userId .mcp)
      ((paymentWebhook settings encode db delivery).subscriptions userId .mcp) := by
  unfold paymentWebhook
  cases hhandled : handleWebhook settings encode db delivery with
  | error e => exact .same _
  | ok answer =>
    obtain ⟨reply, after⟩ := answer
    rcases handleWebhook_ok hhandled with
      rfl | ⟨-, payState, -, ⟨rfl, hcomplete⟩ | ⟨-, hcancel⟩⟩
    · exact .same _
    · rcases handlePaymentComplete_cases hcomplete with rfl | ⟨-, user, dbPlan, -, -, -, -, -, hok⟩
      · exact .same _
      · obtain ⟨subType, plan, subscriptions, paid, -, -, hactivated, rfl⟩ :=
          recordPayment_activates hok
        obtain ⟨type, plan', token, htype, -, -, hafter⟩ := activateSubscription_ok hactivated
        by_cases hown : userId = user ∧ type = .mcp
        · obtain ⟨rfl, rfl⟩ := hown
          exact activateSubscription_mcp hactivated htype _
        · subst hafter
          exact mcpChange_setRow fun huser htype' => absurd ⟨huser, htype'.symm⟩ hown
    · rcases handlePaymentCancel_cases hcancel with
        ⟨record, type, -, -, rfl⟩ | ⟨user, type, -, -, -, rfl⟩ | rfl
      · exact mcpChange_deactivate _ _ _
      · exact mcpChange_deactivate _ _ _
      · exact .same _

theorem mcpChange_cancelSubscription {cancelRebill : String → PayAppAnswer}
    {last : Option PaymentRecord} {user : UUID} {type : SubscriptionType}
    (h : cancelSubscription settings cancelRebill db last user type = .ok after) :
    McpChange settings encode userId (db.subscriptions userId .mcp)
      (after.subscriptions userId .mcp) := by
  have hstopped : McpChange settings encode userId (db.subscriptions userId .mcp)
      (setRow db.subscriptions user type ((db.subscriptions user type).map
        fun sub => { sub with isAutoRenew := false }) userId .mcp) :=
    mcpChange_map db.subscriptions user type fun _ sub => .lapsed id
  rw [setRow_map] at hstopped
  obtain rfl := cancelSubscription_ok h
  exact hstopped

theorem mcpChange_adminDeactivateSubscription {last : Option PaymentRecord} {user : UUID}
    {type : SubscriptionType} {asked : Option String}
    (h : adminDeactivateSubscription settings db last user type = .ok (asked, after)) :
    McpChange settings encode userId (db.subscriptions userId .mcp)
      (after.subscriptions userId .mcp) := by
  obtain rfl := adminDeactivateSubscription_ok h
  exact mcpChange_deactivate db.subscriptions user type

theorem mcpChange_getOrCreateMcpToken {now issuedAt : Datetime} {answer : String × Bool}
    {subscriptions : SubscriptionTable} {user : UUID}
    (h : getOrCreateMcpToken settings.toMcpSettings encode db.subscriptions user now issuedAt =
      some (answer, subscriptions)) :
    McpChange settings encode userId (db.subscriptions userId .mcp)
      (subscriptions userId .mcp) := by
  unfold getOrCreateMcpToken at h
  split at h
  · cases h
    exact .same _
  · next sub hsub =>
    split_ifs at h with hplan hexpired htoken
    · cases h
      exact .same _
    · cases h
      exact .same _
    · cases h
      exact .same _
    · obtain ⟨token, htoken, heq⟩ := Option.map_eq_some_iff.mp h
      cases heq
      refine mcpChange_setRow fun huser _ => ?_
      subst huser
      rw [hsub]
      exact .issued (by simpa using hexpired : sub.isActive = true ∧ _).1 htoken

/-- What a call does to the MCP row of a user. -/
theorem Call.mcpChange (settings : Settings) (encode : JwtEncode) (db : Database) (call : Call)
    (userId : UUID) :
    McpChange settings encode userId (db.subscriptions userId .mcp)
      ((call.run settings encode db).subscriptions userId .mcp) := by
  cases call with
  | handleWebhook delivery => exact mcpChange_paymentWebhook settings encode db delivery userId
  | cancelSubscription cancelRebill last user type =>
    rw [Call.run]
    split
    · next h => exact mcpChange_cancelSubscription h
    · exact .same _
  | adminDeactivateSubscription last user type =>
    rw [Call.run]
    split
    · next h => exact mcpChange_adminDeactivateSubscription h
    · exact .same _
  | refundPayment cancelPayment paymentId =>
    rw [Call.run]
    split
    · next h =>
      rw [refundPayment_ok h]
      exact .same _
    · exact .same _
  | getAllSubscriptions user now =>
    simp only [Call.run, Subscriptions.getAllSubscriptions]
    split_ifs with huser
    · subst huser
      cases db.subscriptions userId .mcp with
      | none => exact .same none
      | some sub => exact mcpChange_syncExpired now sub
    · exact .same _
  | getSubscriptionByType user type now =>
    exact mcpChange_map db.subscriptions user type fun _ => mcpChange_syncExpired now
  | getActiveSubscription user type now => exact .same _
  | getOrCreateMcpToken user now issuedAt =>
    rw [Call.run]
    split
    · next h => exact mcpChange_getOrCreateMcpToken h
    · exact .same _

/-! ## What holds of a row -/

/-- The token of a row is for its user, and runs out with it. -/
def Bounded (jwt : Jwt) (userId : UUID) (sub : Subscription) : Prop :=
  ∃ expiresAt, sub.expiresAt = some expiresAt ∧
    ∀ token, sub.token = some token → jwt.decode token = some (mcpPayload ⟨expiresAt, userId.str⟩)

/-- A row that has been deactivated: it is given no token while it is not active. -/
def Tokenless (sub : Subscription) : Prop := sub.isActive = false ∧ sub.token = none

variable {jwt : String → Jwt} {row row' : Option Subscription}

theorem McpChange.bounded (h : McpChange settings (mcpEncode jwt) userId row row')
    (hrow : ∀ sub, row = some sub → Bounded (jwt settings.MCP_JWT_SECRET) userId sub) :
    ∀ sub, row' = some sub → Bounded (jwt settings.MCP_JWT_SECRET) userId sub := by
  cases h with
  | same => exact hrow
  | @lapsed sub =>
    rintro _ ⟨⟩
    exact hrow sub rfl
  | deactivated sub =>
    rintro _ ⟨⟩
    obtain ⟨expiresAt, hexpires, -⟩ := hrow sub rfl
    exact ⟨expiresAt, hexpires, nofun⟩
  | @issued sub issuedAt token hactive htoken =>
    rintro _ ⟨⟩
    obtain ⟨expiresAt, hexpires, -⟩ := hrow sub rfl
    rw [hexpires] at htoken
    refine ⟨expiresAt, hexpires, ?_⟩
    rintro _ ⟨⟩
    exact decode_of_createMcpToken htoken
  | activated hactive hexpires hstored htoken =>
    rintro _ ⟨⟩
    refine ⟨_, hexpires, fun token hmem => ?_⟩
    obtain rfl := Option.some.inj (hstored.symm.trans hmem)
    exact decode_of_createMcpToken htoken

theorem McpChange.tokenless (h : McpChange settings encode userId row row')
    (hrow : ∀ sub, row = some sub → Tokenless sub)
    (hinactive : ∀ sub, row' = some sub → sub.isActive = true →
      ∃ earlier, row = some earlier ∧ earlier.isActive = true) :
    ∀ sub, row' = some sub → Tokenless sub := by
  have hnone : ¬ ∃ earlier, row = some earlier ∧ earlier.isActive = true := by
    rintro ⟨earlier, hmem, hactive⟩
    rw [(hrow earlier hmem).1] at hactive
    cases hactive
  cases h with
  | same => exact hrow
  | lapsed hactive =>
    rintro _ ⟨⟩
    exact ⟨Bool.eq_false_iff.mpr fun htrue => hnone ⟨_, rfl, hactive htrue⟩, (hrow _ rfl).2⟩
  | deactivated sub =>
    rintro _ ⟨⟩
    exact ⟨rfl, rfl⟩
  | issued hactive htoken => exact absurd ⟨_, rfl, hactive⟩ hnone
  | activated hactive =>
    rintro _ ⟨⟩
    exact absurd (hinactive _ rfl hactive) hnone

/-! ## Deactivations -/

/-- The subscription that a report of a cancellation is about: that of its record, or without
one that which it names. -/
def CancelTarget (db : Database) (form : WebhookForm) (userId : UUID) (type : SubscriptionType) :
    Prop :=
  match paymentOfRebill db.payments (form.rebillNo.getD "") with
  | .ok (some record) =>
    record.userId = userId ∧ SubscriptionType.ofValue? record.subscriptionType = some type
  | .ok none =>
    UUID.parse (form.var1.getD "") = some userId ∧
      SubscriptionType.ofValue? ((split ':' (form.var2.getD "")).headD "") = some type
  | .error _ => False

/-- A report of a cancellation, or an administrator, deactivates a subscription. -/
def Call.Deactivates (settings : Settings) (db : Database) (userId : UUID)
    (type : SubscriptionType) : Call → Prop
  | .handleWebhook delivery =>
    Accepted settings delivery.form ∧ CancelReport (delivery.form.rebillNo.getD "") delivery ∧
      CancelTarget db delivery.form userId type
  | .adminDeactivateSubscription _ user ty => user = userId ∧ ty = type
  | _ => False

theorem subscriptions_of_cancelTarget (encode : JwtEncode) {type : SubscriptionType}
    (haccepted : Accepted settings delivery.form)
    (hreport : CancelReport (delivery.form.rebillNo.getD "") delivery)
    (htarget : CancelTarget db delivery.form userId type) :
    (paymentWebhook settings encode db delivery).subscriptions =
      deactivateSubscription db.subscriptions userId type := by
  obtain ⟨payState, hhandled⟩ := handleWebhook_cancel encode db hreport haccepted
  unfold paymentWebhook
  rw [hhandled, handlePaymentCancel]
  unfold CancelTarget at htarget
  split at htarget
  · next record hrecord =>
    obtain ⟨rfl, htype⟩ := htarget
    simp [hrecord, subscriptionType_eq_ok.mpr htype, bind, Except.bind, pure, Except.pure]
  · next hnone =>
    obtain ⟨huser, htype⟩ := htarget
    rw [hnone]
    simp only [huser, htype, bind, Except.bind, pure, Except.pure]
  · exact htarget.elim

/-- A deactivation takes the token away. -/
theorem Call.Deactivates.tokenless {call : Call}
    (h : call.Deactivates settings db userId .mcp) :
    ∀ sub, (call.run settings encode db).subscriptions userId .mcp = some sub → Tokenless sub := by
  have hrow : (call.run settings encode db).subscriptions userId .mcp =
      (db.subscriptions userId .mcp).map (deactivatedRow .mcp) := by
    cases call with
    | handleWebhook delivery =>
      obtain ⟨haccepted, hreport, htarget⟩ := h
      rw [Call.run, subscriptions_of_cancelTarget encode haccepted hreport htarget,
        deactivateSubscription_apply, if_pos ⟨rfl, rfl⟩]
    | adminDeactivateSubscription last user type =>
      obtain ⟨rfl, rfl⟩ := h
      simp only [Call.run, Payments.adminDeactivateSubscription]
      cases hsub : db.subscriptions user .mcp with
      | none => simp [hsub]
      | some sub => simp
    | _ => exact h.elim
  rw [hrow]
  intro sub hsub
  obtain ⟨earlier, -, rfl⟩ := Option.map_eq_some_iff.mp hsub
  exact ⟨rfl, rfl⟩

/-! ## Runs -/

variable {log : List (Database × Call)}

theorem Run.bounded (h : Run settings (mcpEncode jwt) log db) (userId : UUID) :
    ∀ sub, db.subscriptions userId .mcp = some sub →
      Bounded (jwt settings.MCP_JWT_SECRET) userId sub := by
  induction h with
  | empty h =>
    intro sub hsub
    rw [h.2 userId .mcp] at hsub
    cases hsub
  | @call log db h call hfinds ih => exact (call.mcpChange settings _ db userId).bounded ih
  | edit h users plans ih => exact ih

/-- Since a deactivation the subscription has not been activated. -/
def DeactivatedSince (settings : Settings) (encode : JwtEncode) (log : List (Database × Call))
    (userId : UUID) : Prop :=
  ∃ later seen call earlier, log = later ++ (seen, call) :: earlier ∧
    call.Deactivates settings seen userId .mcp ∧
    ∀ entry ∈ later, ¬ Grants entry.1.subscriptions
      (entry.2.run settings encode entry.1).subscriptions userId .mcp

theorem Run.tokenless (h : Run settings encode log db)
    (hsince : DeactivatedSince settings encode log userId) :
    ∀ sub, db.subscriptions userId .mcp = some sub → Tokenless sub := by
  induction h with
  | empty h =>
    intro sub hsub
    rw [h.2 userId .mcp] at hsub
    cases hsub
  | @call log db h call hfinds ih =>
    obtain ⟨later, seen, deactivation, earlier, hlog, hdeactivates, hnot⟩ := hsince
    -- The last call is the deactivation, or it comes after it and activates nothing.
    rcases later with _ | ⟨entry, later⟩
    · cases hlog
      exact hdeactivates.tokenless
    · cases hlog
      have hbefore := ih ⟨later, seen, deactivation, earlier, rfl, hdeactivates,
        fun entry hentry => hnot entry (List.mem_cons_of_mem _ hentry)⟩
      refine (call.mcpChange settings encode db userId).tokenless hbefore fun sub hsub hactive => ?_
      obtain ⟨before, hrow, -, hstill⟩ := not_grants_iff.mp (hnot _ List.mem_cons_self) sub hsub
      exact ⟨before, hrow, hstill hactive⟩
  | edit h users plans ih => exact ih hsince

/-- A user is given a token only while the subscription is active, paid and not expired. -/
theorem getOrCreateMcpToken_given {mcp : McpSettings} {subscriptions after : SubscriptionTable}
    {now issuedAt : Datetime} {token : String}
    (h : getOrCreateMcpToken mcp encode subscriptions userId now issuedAt =
      some ((token, false), after)) :
    ∃ sub, subscriptions userId .mcp = some sub ∧ sub.isActive = true ∧ sub.plan = .basic ∧
      ∀ expiresAt, sub.expiresAt = some expiresAt → now ≤ expiresAt := by
  unfold getOrCreateMcpToken at h
  split at h
  · cases h
  · next sub hsub =>
    by_cases hplan : sub.plan = .basic
    · by_cases hexpired : (!sub.isActive || sub.expiresAt.any (· < now)) = true
      · rw [if_neg (not_not.mpr hplan), if_pos hexpired] at h
        cases h
      · rw [Bool.or_eq_true, not_or, Bool.not_eq_true', Bool.not_eq_false] at hexpired
        obtain ⟨hactive, hnot⟩ := hexpired
        refine ⟨sub, hsub, hactive, hplan, fun expiresAt hexpires => ?_⟩
        simpa [hexpires] using hnot
    · rw [if_pos hplan] at h
      cases h

/-- In every run from an empty database, the token of an MCP row is for its user and runs out
with the row; a row has none from its deactivation to its next activation; and a user is given
one only at an instant at which the row is active, paid for and not expired. -/
theorem mcpTokens_of_run (h : Run settings (mcpEncode jwt) log db) (userId : UUID) :
    (∀ sub, db.subscriptions userId .mcp = some sub →
      Bounded (jwt settings.MCP_JWT_SECRET) userId sub) ∧
    (DeactivatedSince settings (mcpEncode jwt) log userId →
      ∀ sub, db.subscriptions userId .mcp = some sub → sub.token = none) ∧
    ∀ now issuedAt token after,
      getOrCreateMcpToken settings.toMcpSettings (mcpEncode jwt) db.subscriptions userId now
        issuedAt = some ((token, false), after) →
      ∃ sub expiresAt, db.subscriptions userId .mcp = some sub ∧ sub.isActive = true ∧
        sub.plan = .basic ∧ sub.expiresAt = some expiresAt ∧ now ≤ expiresAt := by
  refine ⟨h.bounded userId, fun hsince sub hsub => (h.tokenless hsince sub hsub).2,
    fun now issuedAt token after hgiven => ?_⟩
  obtain ⟨sub, hsub, hactive, hplan, hnow⟩ := getOrCreateMcpToken_given hgiven
  obtain ⟨expiresAt, hexpires, -⟩ := h.bounded userId sub hsub
  exact ⟨sub, expiresAt, hsub, hactive, hplan, hexpires, hnow expiresAt hexpires⟩

/-- A shop that sells the MCP plan. -/
def mcpShop : Database :=
  { newShop with
    plans := fun id =>
      if id = "mcp:basic" then some ⟨"mcp:basic", "Logit MCP 구독", 1000, true⟩ else none }

/-- A charge of the MCP plan. -/
def mcpCharge : Charge shop mcpShop.users mcpShop.plans :=
  { firstCharge with
    delivery := { firstCharge.delivery with
      form := (firstCharge.delivery.form.set "price" "1000").set "var2" "mcp:basic" }
    type := .mcp
    plan := .basic
    offered := ⟨"mcp:basic", "Logit MCP 구독", 1000, true⟩
    configured := shop_configured
    planKey_eq := rfl
    offered_eq := by decide
    price_eq := (by decide : int 10 "1000" = some 1000)
    secret := by decide }

/-- A report that the charge has been refunded. -/
def mcpRefund : Delivery :=
  { mcpCharge.delivery with form := mcpCharge.delivery.form.set "pay_state" "9" }

/-- The shop once the charge has been reported. -/
def mcpPaid (token : Option String) : Database :=
  { mcpShop with
    payments := [mcpCharge.record]
    subscriptions := setSubscription mcpShop.subscriptions 7 .mcp (mcpCharge.period token) }

theorem deactivates_mcpRefund (token : Option String) :
    (Call.handleWebhook mcpRefund).Deactivates shop (mcpPaid token) 7 .mcp := by
  have hlookup : paymentOfRebill (mcpPaid token).payments (mcpRefund.form.rebillNo.getD "") =
      .ok (some mcpCharge.record) := rfl
  refine ⟨⟨by decide, mcpCharge.verified⟩, ⟨rfl, 9, by decide, ?_⟩, ?_⟩
  · exact (by decide : int 10 "9" = some 9)
  · rw [CancelTarget, hlookup]
    exact ⟨rfl, rfl⟩

theorem subscriptions_mcpRefund (encode : JwtEncode) (token : Option String) :
    ((Call.handleWebhook mcpRefund).run shop encode (mcpPaid token)).subscriptions 7 .mcp =
      some (deactivatedRow .mcp (mcpCharge.period token)) := by
  obtain ⟨haccepted, hreport, htarget⟩ := deactivates_mcpRefund token
  have hpaid : (mcpPaid token).subscriptions 7 .mcp = some (mcpCharge.period token) :=
    setSubscription_self mcpShop.subscriptions 7 .mcp (mcpCharge.period token)
  rw [Call.run, subscriptions_of_cancelTarget encode haccepted hreport htarget,
    deactivateSubscription_apply, if_pos ⟨rfl, rfl⟩, hpaid, Option.map_some]

/-- The calls of a charge and its refund, the last one first. -/
def mcpLog (token : Option String) : List (Database × Call) :=
  [(mcpPaid token, .handleWebhook mcpRefund), (mcpShop, .handleWebhook mcpCharge.delivery)]

theorem run_mcpLog (encode : JwtEncode) : ∃ token, Run shop encode (mcpLog token)
    ((Call.handleWebhook mcpRefund).run shop encode (mcpPaid token)) := by
  obtain ⟨token, hpaid⟩ := paymentWebhook_first encode mcpCharge rfl
  have hcharged : Run shop encode [(mcpShop, .handleWebhook mcpCharge.delivery)]
      ((Call.handleWebhook mcpCharge.delivery).run shop encode mcpShop) :=
    .call (.empty ⟨rfl, fun _ _ => rfl⟩) (.handleWebhook mcpCharge.delivery) trivial
  rw [Call.run, hpaid] at hcharged
  exact ⟨token, hcharged.call (.handleWebhook mcpRefund) trivial⟩

/-- The library of the other tokens, whatever the secret. -/
def plainJwts : String → Jwt := fun _ => Auth.plainJwt

/-- The MCP plan is paid for and refunded. -/
theorem mcpTokens_of_run_refunded : ∃ (token : Option String) (sub : Subscription),
    DeactivatedSince shop (mcpEncode plainJwts) (mcpLog token) 7 ∧
      ((Call.handleWebhook mcpRefund).run shop (mcpEncode plainJwts)
        (mcpPaid token)).subscriptions 7 .mcp = some sub ∧
      Bounded (plainJwts shop.MCP_JWT_SECRET) 7 sub ∧ sub.token = none := by
  obtain ⟨token, hrun⟩ := run_mcpLog (mcpEncode plainJwts)
  have hsub := subscriptions_mcpRefund (mcpEncode plainJwts) token
  have hsince : DeactivatedSince shop (mcpEncode plainJwts) (mcpLog token) 7 := by
    refine ⟨[], mcpPaid token, .handleWebhook mcpRefund, _, rfl, deactivates_mcpRefund token, ?_⟩
    exact fun _ h => absurd h List.not_mem_nil
  obtain ⟨hbounded, hnone, -⟩ := mcpTokens_of_run hrun 7
  exact ⟨token, _, hsince, hsub, hbounded _ hsub, hnone hsince _ hsub⟩

end Logit.Payments
