import Logit.Tokens.Ledger

/-!
# The signup bonus

A token row says whether its user has had the signup bonus, and a call that grants the
bonus says so in the row. So the calls of a user, one after another, grant it once.

## Main definitions

* `TokenFunction.types` — the types of the transactions a function records
* `bonusesOf` — the signup bonuses of a user among transactions

## Main results

* `TokenCall.run_types` — a call records no other types than those of its function
* `TokenCall.run_bonus` — a call grants the bonus only where the row has not had it
-/

namespace Logit.Tokens

open Python Subscriptions

/-- The types of the transactions a function records; opening a row records one of its own. -/
def TokenFunction.types : TokenFunction → List TokenTransactionType
  | .getOrCreateBalance _ => [.balanceInit]
  | .credit _ txType _ => [.balanceInit, txType]
  | .creditReferralInviter _ _ => [.balanceInit, .referralInviter]
  | .claimReferralNotification => [.balanceInit]
  | .debit _ txType _ => [.balanceInit, txType]
  | .ensureMonthlyTokens _ => [.balanceInit, .monthlyGrant]
  | .grantSignupBonus => [.balanceInit, .signupBonus]
  | .claimSignupBonusNotification => [.balanceInit]

/-- The row says that the bonus has been granted. -/
def hasBonus (row : Option UserToken) : Bool := row.any (·.signupBonusGranted)

@[simp] theorem hasBonus_some (token : UserToken) :
    hasBonus (some token) = token.signupBonusGranted := rfl

section Functions

variable (userId : UUID) (clock : Clock) (row : Option UserToken)

theorem getOrCreateBalance_recorded_type :
    ∀ tx ∈ (getOrCreateBalance userId clock row).recorded, tx.type = .balanceInit := by
  cases row <;> simp [getOrCreateBalance, recordTransaction]

theorem getOrCreateBalance_signupBonusGranted :
    (getOrCreateBalance userId clock row).token.signupBonusGranted = hasBonus row := by
  cases row <;> rfl

end Functions

/-- A call records no other types than those of its function. -/
theorem TokenCall.run_types (call : TokenCall) (row : Option UserToken) :
    ∀ tx ∈ (call.run row).2, tx.type ∈ call.function.types := by
  obtain ⟨token, recorded, hrun, hwrites⟩ := call.run_cases row
  rw [hrun]
  intro tx htx
  rcases List.mem_append.mp htx with hopened | hmore
  · rw [getOrCreateBalance_recorded_type _ _ _ tx hopened]
    cases call.function <;> exact List.mem_cons_self
  · cases hwrites with
    | nothing => cases hmore
    | claimReferralNotification => cases hmore
    | claimSignupBonusNotification => cases hmore
    | _ =>
      obtain rfl := List.mem_singleton.mp hmore
      simp [TokenFunction.types, recordTransaction, *]

/-- Only `grant_signup_bonus` changes what the row says about the bonus. -/
theorem TokenCall.run_hasBonus {call : TokenCall} (h : call.function ≠ .grantSignupBonus)
    (row : Option UserToken) : hasBonus (some (call.run row).1) = hasBonus row := by
  rw [← getOrCreateBalance_signupBonusGranted call.userId call.clock row]
  obtain ⟨token, recorded, hrun, hwrites⟩ := call.run_cases row
  rw [hrun]
  cases hwrites with
  | grantSignupBonus text hfunction => exact absurd hfunction h
  | _ => rfl

/-- The signup bonuses of a user among transactions. -/
def bonusesOf (userId : UUID) (txs : List TokenTransaction) : ℕ :=
  txs.countP fun tx => tx.userId = userId ∧ tx.type = .signupBonus

@[simp] theorem bonusesOf_append (userId : UUID) (txs more : List TokenTransaction) :
    bonusesOf userId (txs ++ more) = bonusesOf userId txs + bonusesOf userId more :=
  List.countP_append

theorem bonusesOf_eq_zero {userId : UUID} {txs : List TokenTransaction}
    (h : ∀ tx ∈ txs, tx.type ≠ .signupBonus) : bonusesOf userId txs = 0 :=
  List.countP_eq_zero.mpr fun tx htx => by simp [h tx htx]

/-- A call that does not record the bonus under another name grants it only where the row has
not had it, and then says so in the row. -/
theorem TokenCall.run_bonus {call : TokenCall}
    (htypes : .signupBonus ∈ call.function.types → call.function = .grantSignupBonus)
    (row : Option UserToken) :
    bonusesOf call.userId (call.run row).2 + (hasBonus row).toNat ≤
      (hasBonus (some (call.run row).1)).toNat := by
  by_cases hgrant : call.function = .grantSignupBonus
  · have hrecorded : bonusesOf call.userId
        (getOrCreateBalance call.userId call.clock row).recorded = 0 :=
      bonusesOf_eq_zero fun tx htx => by
        rw [getOrCreateBalance_recorded_type _ _ _ tx htx]
        decide
    have hfound := getOrCreateBalance_signupBonusGranted call.userId call.clock row
    unfold TokenCall.run
    rw [hgrant]
    dsimp only [grantSignupBonus, Outcome.effect]
    split_ifs with hhad
    · rw [hrecorded, hasBonus_some, hfound, Nat.zero_add]
    · rw [hfound] at hhad
      rw [bonusesOf_append, hrecorded, Bool.eq_false_iff.mpr hhad]
      simp [bonusesOf, recordTransaction]
  · have hnone : ∀ tx ∈ (call.run row).2, tx.type ≠ .signupBonus := fun tx htx htype =>
      hgrant (htypes (htype ▸ call.run_types row tx htx))
    rw [bonusesOf_eq_zero hnone, TokenCall.run_hasBonus hgrant, Nat.zero_add]

end Logit.Tokens
