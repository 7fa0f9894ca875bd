import Logit.Tokens.SignupBonus

/-!
# Announced rewards

Inviters are rewarded, and new users given their bonus, in requests the user does not see.
The token row keeps what its user has not been told of, and a claim tells the user and clears
it. The calls of a user run one at a time, whatever requests they belong to, so every reward
is announced once: what committed claims have told and what the row still keeps add up to
what has been recorded.

A transaction that is lost, between the creation of an account and its bonus or anywhere
else, leaves no calls. The balance query grants the bonus again, so it makes up for it.

## Main definitions

* `ServiceCall` — a call the service makes
* `Entry`, `announcementTable` — what calls record and tell their users
* `balanceRequest` — the calls of a balance query
* `Announced` — what has been told and what is kept is what has been recorded

## Main results

* `announced_of_reachable` — every reachable committed state announces rewards once, and after
  a balance query the bonus has been granted
-/

namespace Logit.Tokens

open Concurrency Python Subscriptions

/-! ## Calls -/

/-- Signup bonuses and the rewards of inviters are recorded by their own functions alone. -/
def TokenFunction.Own (function : TokenFunction) : Prop :=
  (.signupBonus ∈ function.types → function = .grantSignupBonus) ∧
    (.referralInviter ∈ function.types →
      ∃ amount description, function = .creditReferralInviter amount description)

/-- A call the service makes. -/
structure ServiceCall extends TokenCall where
  own : function.Own

/-- What a claim of referral rewards tells the user: their amount and number. -/
def TokenCall.referralClaims (call : TokenCall) (row : Option UserToken) : List (ℤ × ℤ) :=
  match call.function with
  | .claimReferralNotification =>
    (claimReferralNotification call.userId call.clock row).result.toOption.toList
  | _ => []

/-- What a claim of the signup bonus tells the user. -/
def TokenCall.signupClaims (call : TokenCall) (row : Option UserToken) : List ℤ :=
  match call.function with
  | .claimSignupBonusNotification =>
    (claimSignupBonusNotification call.userId call.clock row).result.toOption.toList
  | _ => []

/-- What a call leaves besides the row. -/
inductive Entry
  | recorded (tx : TokenTransaction)
  | toldReferral (userId : UUID) (claim : ℤ × ℤ)
  | toldSignup (userId : UUID) (amount : ℤ)
  deriving DecidableEq, Repr

def Entry.userId : Entry → UUID
  | .recorded tx => tx.userId
  | .toldReferral userId _ => userId
  | .toldSignup userId _ => userId

/-- The transactions a call records, and what it tells its user. -/
def TokenCall.entries (call : TokenCall) (row : Option UserToken) : List Entry :=
  (call.run row).2.map .recorded ++ (call.referralClaims row).map (.toldReferral call.userId) ++
    (call.signupClaims row).map (.toldSignup call.userId)

/-- The token rows, with all that calls record and tell. -/
def announcementTable : Table UUID UserToken ServiceCall Entry where
  keyOf call := call.userId
  locks call := call.toTokenCall.locks
  run call row := ((call.run row).1, call.entries row)
  entryKey := Entry.userId
  entryKey_run call row entry hentry := by
    simp only [TokenCall.entries, List.mem_append, List.mem_map] at hentry
    rcases hentry with (⟨tx, htx, rfl⟩ | ⟨_, -, rfl⟩) | ⟨_, -, rfl⟩
    · exact (call.run_balanced row).owned tx htx
    · rfl
    · rfl

/-- The calls of a balance query, in their order; the credit of an attendance is one of them
where the user has checked in. -/
def balanceRequest (userId : UUID) (clock : ℕ → Clock) (subscription : Option Subscription)
    (checkedIn : Bool) : List TokenCall :=
  [⟨userId, clock 0, .ensureMonthlyTokens subscription⟩] ++
    (if checkedIn then
      [⟨userId, clock 1, .credit ATTENDANCE_TOKENS.toNat .attendance (some "출석 이벤트")⟩]
    else []) ++
    [⟨userId, clock 2, .grantSignupBonus⟩, ⟨userId, clock 3, .claimSignupBonusNotification⟩,
      ⟨userId, clock 4, .claimReferralNotification⟩]

/-! ## Entries -/

/-- The transactions among entries. -/
def transactionsOf (entries : List Entry) : List TokenTransaction :=
  entries.filterMap fun
    | .recorded tx => some tx
    | _ => none

/-- What claims of referral rewards have told. -/
def referralClaimsOf (entries : List Entry) : List (ℤ × ℤ) :=
  entries.filterMap fun
    | .toldReferral _ claim => some claim
    | _ => none

/-- What claims of the signup bonus have told. -/
def signupClaimsOf (entries : List Entry) : List ℤ :=
  entries.filterMap fun
    | .toldSignup _ amount => some amount
    | _ => none

/-- The transactions of one type. -/
def ofType (type : TokenTransactionType) (txs : List TokenTransaction) : List TokenTransaction :=
  txs.filter (·.type = type)

@[simp] theorem ofType_append (type : TokenTransactionType) (txs more : List TokenTransaction) :
    ofType type (txs ++ more) = ofType type txs ++ ofType type more :=
  List.filter_append ..

theorem ofType_eq_nil {type : TokenTransactionType} {txs : List TokenTransaction}
    (h : ∀ tx ∈ txs, tx.type ≠ type) : ofType type txs = [] :=
  List.filter_eq_nil_iff.mpr fun tx htx => by simpa using h tx htx

variable {call : TokenCall} {row : Option UserToken} {entries : List Entry}

@[simp] theorem transactionsOf_run : transactionsOf (entries ++ call.entries row) =
    transactionsOf entries ++ (call.run row).2 := by
  simp [transactionsOf, TokenCall.entries, List.filterMap_map]

@[simp] theorem referralClaimsOf_run : referralClaimsOf (entries ++ call.entries row) =
    referralClaimsOf entries ++ call.referralClaims row := by
  simp [referralClaimsOf, TokenCall.entries, List.filterMap_map]

@[simp] theorem signupClaimsOf_run : signupClaimsOf (entries ++ call.entries row) =
    signupClaimsOf entries ++ call.signupClaims row := by
  simp [signupClaimsOf, TokenCall.entries, List.filterMap_map]

/-! ## What is kept and told -/

/-- The referral rewards a row keeps for its user to be told, by amount and number. -/
def keptReferral (row : Option UserToken) : ℤ × ℤ :=
  row.elim (0, 0) fun token => (token.unnotifiedReferralAmount, token.unnotifiedReferralCount)

/-- The signup bonus a row keeps for its user to be told. -/
def keptSignup (row : Option UserToken) : ℤ := row.elim 0 (·.unnotifiedSignupBonusAmount)

/-- What claims have told, and what the row keeps, is what has been recorded; the signup bonus
has been recorded at most once, and the row says whether it has. -/
structure Announced (row : Option UserToken) (entries : List Entry) : Prop where
  referralAmount : ((referralClaimsOf entries).map Prod.fst).sum + (keptReferral row).1 =
    ledgerSum (ofType .referralInviter (transactionsOf entries))
  referralCount : ((referralClaimsOf entries).map Prod.snd).sum + (keptReferral row).2 =
    (ofType .referralInviter (transactionsOf entries)).length
  bonus_le_one : (ofType .signupBonus (transactionsOf entries)).length ≤ 1
  bonus_iff : ofType .signupBonus (transactionsOf entries) ≠ [] ↔ hasBonus row = true
  signupAmount : (signupClaimsOf entries).sum + keptSignup row =
    ledgerSum (ofType .signupBonus (transactionsOf entries))

section Functions

variable (userId : UUID) (clock : Clock) (row : Option UserToken)

theorem getOrCreateBalance_keptReferral :
    keptReferral (some (getOrCreateBalance userId clock row).token) = keptReferral row := by
  cases row <;> rfl

theorem getOrCreateBalance_keptSignup :
    keptSignup (some (getOrCreateBalance userId clock row).token) = keptSignup row := by
  cases row <;> rfl

/-- Opening a row records no reward. -/
theorem getOrCreateBalance_ofType {type : TokenTransactionType} (htype : type ≠ .balanceInit) :
    ofType type (getOrCreateBalance userId clock row).recorded = [] :=
  ofType_eq_nil fun tx htx => by
    rw [getOrCreateBalance_recorded_type userId clock row tx htx]
    exact htype.symm

end Functions

/-- Only two functions change the referral rewards a row keeps. -/
theorem TokenCall.run_keptReferral
    (hcredit : ∀ amount description, call.function ≠ .creditReferralInviter amount description)
    (hclaim : call.function ≠ .claimReferralNotification) (row : Option UserToken) :
    keptReferral (some (call.run row).1) = keptReferral row := by
  rw [← getOrCreateBalance_keptReferral call.userId call.clock row]
  obtain ⟨token, recorded, hrun, hwrites⟩ := call.run_cases row
  rw [hrun]
  cases hwrites with
  | creditReferralInviter text hfunction => exact absurd hfunction (hcredit _ _)
  | claimReferralNotification hfunction => exact absurd hfunction hclaim
  | _ => rfl

/-- Only two functions change the signup bonus a row keeps. -/
theorem TokenCall.run_keptSignup (hgrant : call.function ≠ .grantSignupBonus)
    (hclaim : call.function ≠ .claimSignupBonusNotification) (row : Option UserToken) :
    keptSignup (some (call.run row).1) = keptSignup row := by
  rw [← getOrCreateBalance_keptSignup call.userId call.clock row]
  obtain ⟨token, recorded, hrun, hwrites⟩ := call.run_cases row
  rw [hrun]
  cases hwrites with
  | grantSignupBonus text hfunction => exact absurd hfunction hgrant
  | claimSignupBonusNotification hfunction => exact absurd hfunction hclaim
  | _ => rfl

/-- What a call tells of referral rewards, and what it leaves to be told, is what the row kept
and what the call records. -/
theorem TokenCall.run_referral (hown : call.function.Own) (row : Option UserToken) :
    ((call.referralClaims row).map Prod.fst).sum + (keptReferral (some (call.run row).1)).1 =
        (keptReferral row).1 + ledgerSum (ofType .referralInviter (call.run row).2) ∧
      ((call.referralClaims row).map Prod.snd).sum + (keptReferral (some (call.run row).1)).2 =
        (keptReferral row).2 + (ofType .referralInviter (call.run row).2).length := by
  have hfound := getOrCreateBalance_keptReferral call.userId call.clock row
  have hopened := getOrCreateBalance_ofType call.userId call.clock row
    (show TokenTransactionType.referralInviter ≠ .balanceInit by decide)
  by_cases hclaim : call.function = .claimReferralNotification
  · -- All that was kept is told.
    unfold TokenCall.run TokenCall.referralClaims
    rw [hclaim, ← hfound]
    dsimp only [claimReferralNotification, Outcome.effect]
    rw [hopened]
    split_ifs with hkept
    · simp [keptReferral, Except.toOption]
    · obtain ⟨hamount, hcount⟩ := not_or.mp hkept
      simp [keptReferral, Except.toOption, not_not.mp hamount, not_not.mp hcount]
  · have hsilent : call.referralClaims row = [] := by
      unfold TokenCall.referralClaims
      split
      · next hfunction => exact absurd hfunction hclaim
      · rfl
    rw [hsilent]
    by_cases hcredit : ∃ amount description,
        call.function = .creditReferralInviter amount description
    · -- The reward is recorded, and kept to be told.
      obtain ⟨amount, description, hfunction⟩ := hcredit
      unfold TokenCall.run
      rw [hfunction, ← hfound]
      dsimp only [creditReferralInviter, Outcome.effect]
      rw [ofType_append, hopened]
      simp [keptReferral, ofType, recordTransaction]
    · have hnone : ofType .referralInviter (call.run row).2 = [] :=
        ofType_eq_nil fun tx htx htype =>
          hcredit (hown.2 (htype ▸ call.run_types row tx htx))
      rw [hnone, call.run_keptReferral (fun a d h => hcredit ⟨a, d, h⟩) hclaim row]
      simp

/-- What a call tells of the signup bonus, and what it leaves to be told, is what the row kept
and what the call records, as long as a row without the bonus keeps nothing. -/
theorem TokenCall.run_signup (hown : call.function.Own) {row : Option UserToken}
    (hkept : hasBonus row = false → keptSignup row = 0) :
    (call.signupClaims row).sum + keptSignup (some (call.run row).1) =
        keptSignup row + ledgerSum (ofType .signupBonus (call.run row).2) ∧
      (ofType .signupBonus (call.run row).2).length + (hasBonus row).toNat =
        (hasBonus (some (call.run row).1)).toNat ∧
      (hasBonus (some (call.run row).1) = false → keptSignup (some (call.run row).1) = 0) := by
  have hfound := getOrCreateBalance_keptSignup call.userId call.clock row
  have hbonus := getOrCreateBalance_signupBonusGranted call.userId call.clock row
  have hopened := getOrCreateBalance_ofType call.userId call.clock row
    (show TokenTransactionType.signupBonus ≠ .balanceInit by decide)
  by_cases hgrant : call.function = .grantSignupBonus
  · have hsilent : call.signupClaims row = [] := by rw [TokenCall.signupClaims, hgrant]
    rw [hsilent]
    unfold TokenCall.run
    rw [hgrant]
    dsimp only [grantSignupBonus, Outcome.effect]
    split_ifs with hhad
    · -- The bonus has been granted before.
      rw [hopened, hasBonus_some, hfound, hbonus]
      exact ⟨by simp, by simp, hkept⟩
    · rw [hbonus, Bool.not_eq_true] at hhad
      rw [ofType_append, hopened, hkept hhad, hhad]
      simp [keptSignup, ofType, recordTransaction]
  · have hnone : ofType .signupBonus (call.run row).2 = [] :=
      ofType_eq_nil fun tx htx htype => hgrant (hown.1 (htype ▸ call.run_types row tx htx))
    rw [hnone, TokenCall.run_hasBonus hgrant]
    by_cases hclaim : call.function = .claimSignupBonusNotification
    · -- All that was kept is told.
      unfold TokenCall.run TokenCall.signupClaims
      rw [hclaim, ← hfound]
      dsimp only [claimSignupBonusNotification, Outcome.effect]
      split_ifs with hsome
      · simp [keptSignup, Except.toOption]
      · rw [not_not] at hsome
        simp [keptSignup, Except.toOption, hsome]
    · have hsilent : call.signupClaims row = [] := by
        unfold TokenCall.signupClaims
        split
        · next hfunction => exact absurd hfunction hclaim
        · rfl
      rw [hsilent, TokenCall.run_keptSignup hgrant hclaim]
      exact ⟨by simp, by simp, hkept⟩

/-! ## Concurrent sessions -/

/-- What calls keep of a row and what they have left: rewards are announced once, and a row
without the bonus keeps none to be told. -/
structure AnnouncedSoFar (row : Option UserToken) (entries : List Entry) : Prop where
  announced : Announced row entries
  kept : hasBonus row = false → keptSignup row = 0

theorem AnnouncedSoFar.none : AnnouncedSoFar none [] :=
  ⟨⟨rfl, rfl, by decide, by simp [transactionsOf, ofType, hasBonus], rfl⟩, fun _ => rfl⟩

/-- One more call of the user. -/
theorem AnnouncedSoFar.run (h : AnnouncedSoFar row entries) (hown : call.function.Own) :
    AnnouncedSoFar (some (call.run row).1) (entries ++ call.entries row) := by
  obtain ⟨⟨hamount, hcount, hone, hiff, hsignup⟩, hkept⟩ := h
  obtain ⟨hamount', hcount'⟩ := call.run_referral hown row
  obtain ⟨hsignup', hone', hkept'⟩ := TokenCall.run_signup hown hkept
  -- At most one bonus, and one just if the row says so: the row counts the bonuses.
  have hbonus : (ofType .signupBonus (transactionsOf entries)).length = (hasBonus row).toNat := by
    cases hhad : hasBonus row
    · have hnil : ofType .signupBonus (transactionsOf entries) = [] := by
        simpa [hhad] using hiff
      rw [hnil]
      rfl
    · have hne := List.length_pos_iff.mpr (hiff.mpr hhad)
      exact le_antisymm hone hne
  have hbonus' : (ofType .signupBonus (transactionsOf (entries ++ call.entries row))).length =
      (hasBonus (some (call.run row).1)).toNat := by
    rw [transactionsOf_run, ofType_append, List.length_append, hbonus]
    omega
  refine ⟨⟨?_, ?_, ?_, ?_, ?_⟩, hkept'⟩
  · rw [referralClaimsOf_run, transactionsOf_run, ofType_append, ledgerSum_append, List.map_append,
      List.sum_append]
    omega
  · rw [referralClaimsOf_run, transactionsOf_run, ofType_append, List.length_append,
      List.map_append, List.sum_append]
    push_cast
    omega
  · rw [hbonus']
    exact Bool.toNat_le _
  · rw [← List.length_pos_iff, hbonus']
    cases hasBonus (some (call.run row).1) <;> simp
  · rw [signupClaimsOf_run, transactionsOf_run, ofType_append, ledgerSum_append, List.sum_append]
    omega

variable {τ : Type*} [DecidableEq τ] {s : State τ UUID UserToken ServiceCall Entry}

/-- A row that says that the bonus has been granted goes on to say so, and a call that grants it
makes it say so. -/
theorem TokenCall.hasBonus_run (h : hasBonus row = true ∨ call.function = .grantSignupBonus) :
    hasBonus (some (call.run row).1) = true := by
  by_cases hgrant : call.function = .grantSignupBonus
  · have hbonus := getOrCreateBalance_signupBonusGranted call.userId call.clock row
    unfold TokenCall.run
    rw [hgrant]
    dsimp only [grantSignupBonus, Outcome.effect]
    split_ifs with hhad
    · exact hhad
    · rfl
  · rw [TokenCall.run_hasBonus hgrant]
    exact h.resolve_right hgrant

/-- After calls one of which grants the bonus, the row says that it has been granted. -/
theorem hasBonus_runAll {calls : List ServiceCall} (row : Option UserToken)
    (h : hasBonus row = true ∨ ∃ call ∈ calls, call.function = .grantSignupBonus) :
    hasBonus (announcementTable.runAll row calls).1 = true := by
  -- By induction on the calls; once the row says so, it goes on to say so.
  induction calls generalizing row with
  | nil => simpa using h
  | cons call calls ih =>
    rw [Table.runAll_cons]
    apply ih
    rcases h with hhad | ⟨granting, hmem, hgranting⟩
    · exact .inl (TokenCall.hasBonus_run (.inl hhad))
    · rcases List.mem_cons.mp hmem with rfl | hmem
      · exact .inl (TokenCall.hasBonus_run (.inr hgranting))
      · exact .inr ⟨granting, hmem, hgranting⟩

/-- In every reachable committed state the rewards of a user have been announced once, and after
a balance query the signup bonus has been granted. -/
theorem announced_of_reachable (h : Reachable announcementTable s) (userId : UUID) :
    Announced (s.row userId) (s.log.filter fun entry => entry.userId = userId) ∧
      ∀ clock subscription checkedIn,
        balanceRequest userId clock subscription checkedIn <:+: s.calls.map (·.toTokenCall) →
          ∃ token, s.row userId = some token ∧ token.signupBonusGranted = true := by
  constructor
  · have hsoFar : AnnouncedSoFar (s.row userId) (announcementTable.entriesOf userId s.log) :=
      h.invariant userId AnnouncedSoFar .none fun call row entries _ hrun => hrun.run call.own
    exact hsoFar.announced
  · intro clock subscription checkedIn hrequest
    obtain ⟨call, hmem, hcall⟩ := List.mem_map.mp
      (hrequest.subset (show ⟨userId, clock 2, .grantSignupBonus⟩ ∈ _ by simp [balanceRequest]))
    have hkey : call ∈ announcementTable.callsOf userId s.calls := by
      simp [Table.callsOf, announcementTable, hmem, hcall]
    have hgranted := hasBonus_runAll none (.inr ⟨call, hkey, by rw [hcall]⟩)
    have hrow : (announcementTable.runAll none (announcementTable.callsOf userId s.calls)).1 =
        s.row userId := congrArg Prod.fst (h.committed userId)
    rw [hrow] at hgranted
    exact (Option.any_eq_true ..).mp hgranted

/-- A user signs up and invites another, and then asks for the balance. -/
def invitingUser : List TokenCall :=
  [⟨7, fun _ => .utc 2026 1 10 9, .grantSignupBonus⟩,
    ⟨7, fun _ => .utc 2026 1 10 9, .creditReferralInviter REFERRAL_TOKENS.toNat none⟩] ++
    balanceRequest 7 (fun _ _ => .utc 2026 1 10 9) none false

theorem own_of_mem_invitingUser : ∀ call ∈ invitingUser, call.function.Own := by
  simp [invitingUser, balanceRequest, TokenFunction.Own, TokenFunction.types]

theorem announced_of_reachable_told : ∃ s : State Unit UUID UserToken ServiceCall Entry,
    Reachable announcementTable s ∧ s.calls.map (·.toTokenCall) = invitingUser ∧
      (referralClaimsOf (s.log.filter fun entry => entry.userId = 7)) = [(10, 1)] ∧
      Announced (s.row 7) (s.log.filter fun entry => entry.userId = 7) ∧
      ∃ token, s.row 7 = some token ∧ token.signupBonusGranted = true := by
  obtain ⟨s, h, hcalls⟩ := exists_reachable_calls announcementTable
    (show ∀ call ∈ invitingUser.pmap ServiceCall.mk own_of_mem_invitingUser,
      announcementTable.locks call = true by decide)
  have hcalls' : s.calls.map (·.toTokenCall) = invitingUser := by
    rw [hcalls, List.map_pmap]
    exact List.pmap_eq_self.mpr fun _ _ => rfl
  have hentries : announcementTable.entriesOf 7 s.log = _ :=
    (congrArg Prod.snd (h.committed 7)).symm
  obtain ⟨hannounced, hgranted⟩ := announced_of_reachable h 7
  refine ⟨s, h, hcalls', ?_, hannounced, hgranted (fun _ _ => .utc 2026 1 10 9) none false ?_⟩
  · change referralClaimsOf (announcementTable.entriesOf 7 s.log) = _
    rw [hentries, hcalls]
    decide
  · rw [hcalls']
    exact List.suffix_append _ _ |>.isInfix

end Logit.Tokens
