import Logit.Concurrency.RowLock
import Logit.Tokens.Service

/-!
# The token ledger

Every function that changes a balance records the change as a transaction of the
same user. One call at a time this is a property of the functions; row locks make
the calls of a user run one at a time, so it holds of every committed state that
concurrent sessions reach.

`check_in`, `apply_referral_code` and `send_chat_stream` reach the token rows only
through `credit`, `credit_referral_inviter` and `debit`. A session here runs any
calls in any order, commits after any of them or rolls back at any point, and its
statements on other tables may fail at any point; this covers their transactions.

## Main definitions

* `TokenCall` — a call of one of the service's functions for a user
* `tokenTable` — the token rows as a table that sessions run calls on
* `TokenCall.Writes` — what a call does with the row it has found
* `Outcome.Balanced` — the balance changes by what is recorded and stays nonnegative

## Main results

* `TokenCall.run_cases` — a call finds or opens the row, and then writes
* `TokenCall.run_balanced` — every call is balanced
* `balance_eq_ledgerSum` — in every reachable committed state a user's balance is the
  sum of the user's transactions and is nonnegative
-/

namespace Logit.Tokens

open Calendar Concurrency Python Subscriptions

/-! ## Calls -/

/-- The functions of the service, with their arguments. An amount to credit is a
positive constant at every place that calls for one, so it is a natural number. -/
inductive TokenFunction
  | getOrCreateBalance (withLock : Bool)
  | credit (amount : ℕ) (txType : TokenTransactionType) (description : Option String)
  | creditReferralInviter (amount : ℕ) (description : Option String)
  | claimReferralNotification
  | debit (amount : ℤ) (txType : TokenTransactionType) (description : Option String)
  | ensureMonthlyTokens (subscription : Option Subscription)
  | grantSignupBonus
  | claimSignupBonusNotification

/-- A call of a function for a user, with the instants it reads from the clock. -/
structure TokenCall where
  userId : UUID
  clock : Clock
  function : TokenFunction

/-- The row and the transactions a function leaves. -/
def Outcome.effect {α : Type} (outcome : Outcome α) : UserToken × List TokenTransaction :=
  (outcome.token, outcome.recorded)

/-- The row and the transactions a call leaves, given the row it finds. -/
def TokenCall.run (call : TokenCall) (row : Option UserToken) :
    UserToken × List TokenTransaction :=
  match call.function with
  | .getOrCreateBalance _ => (getOrCreateBalance call.userId call.clock row).effect
  | .credit amount txType description =>
    (credit call.userId call.clock row amount txType description).effect
  | .creditReferralInviter amount description =>
    (creditReferralInviter call.userId call.clock row amount description).effect
  | .claimReferralNotification => (claimReferralNotification call.userId call.clock row).effect
  | .debit amount txType description =>
    (debit call.userId call.clock row amount txType description).effect
  | .ensureMonthlyTokens subscription =>
    (ensureMonthlyTokens call.userId call.clock row subscription).effect
  | .grantSignupBonus => (grantSignupBonus call.userId call.clock row).effect
  | .claimSignupBonusNotification =>
    (claimSignupBonusNotification call.userId call.clock row).effect

/-- Only `get_or_create_balance` may read the row without locking it. -/
def TokenCall.locks (call : TokenCall) : Bool :=
  match call.function with
  | .getOrCreateBalance withLock => withLock
  | _ => true

/-! ## What a call writes -/

/-- What a call does with the row it has found or opened, and what it records besides. -/
inductive TokenCall.Writes (call : TokenCall) (found : UserToken) :
    UserToken → List TokenTransaction → Prop
  /-- Nothing is due, or too little is there. -/
  | nothing : Writes call found found []
  | credit {amount : ℕ} {txType : TokenTransactionType} {description : Option String}
      (hfunction : call.function = .credit amount txType description) :
      Writes call found
        { found with balance := found.balance + amount, updatedAt := call.clock .updated }
        [recordTransaction call.userId amount txType description (call.clock .recorded)]
  | creditReferralInviter {amount : ℕ} {description : Option String} (text : Option String)
      (hfunction : call.function = .creditReferralInviter amount description) :
      Writes call found
        { found with
          balance := found.balance + amount
          unnotifiedReferralAmount := found.unnotifiedReferralAmount + amount
          unnotifiedReferralCount := found.unnotifiedReferralCount + 1
          updatedAt := call.clock .updated }
        [recordTransaction call.userId amount .referralInviter text (call.clock .recorded)]
  | claimReferralNotification (hfunction : call.function = .claimReferralNotification) :
      Writes call found
        { found with
          unnotifiedReferralAmount := 0
          unnotifiedReferralCount := 0
          updatedAt := call.clock .updated } []
  | debit {amount : ℤ} {txType : TokenTransactionType} {description : Option String}
      (hfunction : call.function = .debit amount txType description)
      (henough : amount ≤ found.balance) :
      Writes call found
        { found with balance := found.balance - amount, updatedAt := call.clock .updated }
        [recordTransaction call.userId (-amount) txType description (call.clock .recorded)]
  | ensureMonthlyTokens {subscription : Option Subscription} {amount : ℤ} (text : Option String)
      (hfunction : call.function = .ensureMonthlyTokens subscription)
      (hamount : PLAN_MONTHLY_TOKENS (planKey subscription) = some amount) :
      Writes call found
        { found with
          balance := found.balance + amount
          lastMonthlyGrantAt := some (call.clock .granted)
          updatedAt := call.clock .updated }
        [recordTransaction call.userId amount .monthlyGrant text (call.clock .recorded)]
  | grantSignupBonus (text : Option String) (hfunction : call.function = .grantSignupBonus)
      (hfirst : found.signupBonusGranted = false) :
      Writes call found
        { found with
          balance := found.balance + SIGNUP_BONUS_TOKENS
          signupBonusGranted := true
          unnotifiedSignupBonusAmount := SIGNUP_BONUS_TOKENS
          updatedAt := call.clock .updated }
        [recordTransaction call.userId SIGNUP_BONUS_TOKENS .signupBonus text
          (call.clock .recorded)]
  | claimSignupBonusNotification (hfunction : call.function = .claimSignupBonusNotification) :
      Writes call found
        { found with unnotifiedSignupBonusAmount := 0, updatedAt := call.clock .updated } []

/-- A call finds or opens the row, and then writes. -/
theorem TokenCall.run_cases (call : TokenCall) (row : Option UserToken) : ∃ token recorded,
    call.run row =
        (token, (getOrCreateBalance call.userId call.clock row).recorded ++ recorded) ∧
      call.Writes (getOrCreateBalance call.userId call.clock row).token token recorded := by
  have hidle : ∀ {effect : UserToken × List TokenTransaction},
      effect = (getOrCreateBalance call.userId call.clock row).effect →
      ∃ token recorded, effect =
          (token, (getOrCreateBalance call.userId call.clock row).recorded ++ recorded) ∧
        call.Writes (getOrCreateBalance call.userId call.clock row).token token recorded :=
    fun heffect => ⟨_, [], by rw [heffect, List.append_nil]; rfl, .nothing⟩
  unfold TokenCall.run
  cases hfunction : call.function with
  | getOrCreateBalance withLock => exact hidle rfl
  | credit amount txType description => exact ⟨_, _, rfl, .credit hfunction⟩
  | creditReferralInviter amount description =>
    exact ⟨_, _, rfl, .creditReferralInviter _ hfunction⟩
  | claimReferralNotification =>
    dsimp only [claimReferralNotification, Outcome.effect]
    split_ifs
    · exact ⟨_, [], by rw [List.append_nil], .claimReferralNotification hfunction⟩
    · exact hidle rfl
  | debit amount txType description =>
    dsimp only [debit]
    split_ifs with hless
    · exact hidle rfl
    · exact ⟨_, _, rfl, .debit hfunction (not_lt.mp hless)⟩
  | ensureMonthlyTokens subscription =>
    dsimp only [ensureMonthlyTokens]
    split_ifs
    · exact hidle rfl
    · cases hamount : PLAN_MONTHLY_TOKENS (planKey subscription) with
      | none => exact hidle rfl
      | some amount => exact ⟨_, _, rfl, .ensureMonthlyTokens _ hfunction hamount⟩
  | grantSignupBonus =>
    dsimp only [grantSignupBonus]
    split_ifs with hgranted
    · exact hidle rfl
    · exact ⟨_, _, rfl, .grantSignupBonus _ hfunction (Bool.eq_false_iff.mpr hgranted)⟩
  | claimSignupBonusNotification =>
    dsimp only [claimSignupBonusNotification, Outcome.effect]
    split_ifs
    · exact ⟨_, [], by rw [List.append_nil], .claimSignupBonusNotification hfunction⟩
    · exact hidle rfl

/-! ## Balanced outcomes -/

/-- The balance changes by what is recorded, stays nonnegative, and all that is
recorded is the user's. -/
structure Outcome.Balanced {α : Type} (userId : UUID) (row : Option UserToken)
    (outcome : Outcome α) : Prop where
  balance_eq : outcome.token.balance = getBalance row + ledgerSum outcome.recorded
  balance_nonneg : 0 ≤ getBalance row → 0 ≤ outcome.token.balance
  owned : ∀ tx ∈ outcome.recorded, tx.userId = userId

namespace Outcome.Balanced

variable {α β : Type} {userId : UUID} {row : Option UserToken} {found : Outcome α}

/-- Whatever keeps the balance and records nothing more is balanced. -/
theorem keep (h : found.Balanced userId row) {token : UserToken}
    (hbalance : token.balance = found.token.balance) (result : Except TokenError β) :
    (Outcome.mk token found.recorded result).Balanced userId row where
  balance_eq := hbalance.trans h.balance_eq
  balance_nonneg hrow := hbalance ▸ h.balance_nonneg hrow
  owned := h.owned

/-- Whatever changes the balance by an amount it records, and not below zero, is balanced. -/
theorem record (h : found.Balanced userId row) {token : UserToken} {amount : ℤ}
    (hbalance : token.balance = found.token.balance + amount)
    (hnonneg : 0 ≤ found.token.balance → 0 ≤ found.token.balance + amount)
    (txType : TokenTransactionType) (description : Option String) (createdAt : Datetime)
    (result : Except TokenError β) :
    (Outcome.mk token
      (found.recorded ++ [recordTransaction userId amount txType description createdAt])
      result).Balanced userId row where
  balance_eq := by
    simp only [hbalance, h.balance_eq, recordTransaction, ledgerSum_append, ledgerSum_cons,
      ledgerSum_nil]
    ring
  balance_nonneg hrow := hbalance ▸ hnonneg (h.balance_nonneg hrow)
  owned tx htx := by
    rcases List.mem_append.mp htx with htx | htx
    · exact h.owned tx htx
    · obtain rfl := List.mem_singleton.mp htx
      rfl

end Outcome.Balanced

theorem getOrCreateBalance_balanced (userId : UUID) (clock : Clock) (row : Option UserToken) :
    (getOrCreateBalance userId clock row).Balanced userId row := by
  cases row with
  | none => exact ⟨rfl, fun _ => le_rfl, by simp [getOrCreateBalance, recordTransaction]⟩
  | some token =>
    exact ⟨by simp [getOrCreateBalance], id, by simp [getOrCreateBalance]⟩

/-- Every call changes the balance by what it records for its user, and not below zero. -/
theorem TokenCall.run_balanced (call : TokenCall) (row : Option UserToken) :
    (Outcome.mk (call.run row).1 (call.run row).2 (.ok ())).Balanced call.userId row := by
  have hfound := getOrCreateBalance_balanced call.userId call.clock row
  obtain ⟨token, recorded, hrun, hwrites⟩ := call.run_cases row
  rw [hrun]
  cases hwrites with
  | nothing =>
    rw [List.append_nil]
    exact hfound.keep rfl _
  | credit hfunction => exact hfound.record rfl (by omega) _ _ _ _
  | creditReferralInviter text hfunction => exact hfound.record rfl (by omega) _ _ _ _
  | claimReferralNotification hfunction =>
    rw [List.append_nil]
    exact hfound.keep (by rfl) _
  | debit hfunction henough =>
    exact hfound.record (Int.sub_eq_add_neg ..) (by omega) _ _ _ _
  | ensureMonthlyTokens text hfunction hamount =>
    have hpos := PLAN_MONTHLY_TOKENS_pos hamount
    exact hfound.record rfl (by omega) _ _ _ _
  | grantSignupBonus text hfunction hfirst =>
    exact hfound.record rfl (by simp only [SIGNUP_BONUS_TOKENS]; omega) _ _ _ _
  | claimSignupBonusNotification hfunction =>
    rw [List.append_nil]
    exact hfound.keep (by rfl) _

/-! ## Concurrent sessions -/

/-- The token rows, by user, and the transactions that calls record. -/
def tokenTable : Table UUID UserToken TokenCall TokenTransaction where
  keyOf := TokenCall.userId
  locks := TokenCall.locks
  run := TokenCall.run
  entryKey := TokenTransaction.userId
  entryKey_run call row := (call.run_balanced row).owned

/-- Committed token rows and transactions, and the sessions at work on them. -/
abbrev TokenState (τ : Type*) := State τ UUID UserToken TokenCall TokenTransaction

variable {τ : Type*} [DecidableEq τ] {s : TokenState τ}

/-- In every reachable committed state, a user's balance is the sum of the user's
transactions, and it is nonnegative. -/
theorem balance_eq_ledgerSum (h : Reachable tokenTable s) (userId : UUID) :
    getBalance (s.row userId) = ledgerSum (s.log.filter fun tx => tx.userId = userId) ∧
      0 ≤ getBalance (s.row userId) := by
  refine h.invariant userId
    (fun row txs => getBalance row = ledgerSum txs ∧ 0 ≤ getBalance row) ⟨rfl, le_rfl⟩ ?_
  rintro call row txs - ⟨hsum, hnonneg⟩
  have hbalanced := call.run_balanced row
  refine ⟨?_, hbalanced.balance_nonneg hnonneg⟩
  rw [getBalance_some, ledgerSum_append, ← hsum]
  exact hbalanced.balance_eq

/-! ### Two sessions -/

/-- The signup bonus. -/
def bonusCall : TokenCall := ⟨7, fun _ => .utc 2026 1 10 9, .grantSignupBonus⟩

/-- The cost of a draft. -/
def draftCall : TokenCall := ⟨7, fun _ => .utc 2026 1 10 10, .debit 10 .draftUsage (some "초안 생성")⟩

/-- Both sessions find no row, and the insert of the second fails once the first has committed the
bonus. A draft is taken from it and rolled back, and another is taken meanwhile. -/
theorem balance_eq_ledgerSum_draft : ∃ s : TokenState Bool,
    Reachable tokenTable s ∧ s.calls = [bonusCall, draftCall] ∧
    getBalance (s.row 7) = 40 ∧
    getBalance (s.row 7) = ledgerSum (s.log.filter fun tx => tx.userId = 7) ∧
      0 ≤ getBalance (s.row 7) := by
  have hfree : ∀ {s : TokenState Bool} {t}, (s.session !t).held 7 = none → s.Free t 7 := by
    intro s t hheld u hut
    rwa [← Bool.eq_not_of_ne hut] at hheld
  have hmiss : Reachable tokenTable (State.init.setSession true _) :=
    .single (.miss true bonusCall rfl rfl)
  have hmiss' := hmiss.tail (.miss false draftCall rfl rfl)
  have hinsert := hmiss'.tail (.insert true bonusCall rfl rfl (hfree rfl))
  have hcommit := (hinsert.tail (.commit true rfl)).tail (.fail false)
  have hlock := hcommit.tail (.lock true draftCall _ rfl rfl rfl (hfree rfl))
  have hrollback := (hlock.tail (.rollback true)).tail (.rollback false)
  have hdraft := hrollback.tail (.lock false draftCall _ rfl rfl rfl (hfree rfl))
  have hcommit' := hdraft.tail (.commit false rfl)
  exact ⟨_, hcommit', rfl, rfl, balance_eq_ledgerSum hcommit' 7⟩

end Logit.Tokens
