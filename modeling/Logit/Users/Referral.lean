import Logit.Python.Text
import Logit.Tokens.SignupBonus
import Logit.Users.Model
import Mathlib.Data.List.Nodup

/-!
# Referrals

A user who enters the code of another is referred by the other, and both are granted
tokens. Everything an application writes it writes in one transaction, and the row of the
invited user is claimed by an update that finds it unclaimed.

## Main definitions

* `Database` — the tables a referral reads and writes
* `applyReferralCode`, `applyReferral` — an application of a code, and the request
* `getOrCreateReferralCode`, `getReferralStats` — a user's own code, and whom it has invited
* `Accounted` — the referral transactions are those of the users referred
* `UserAccounts` — what that comes to for one user

## Main results

* `Accounted.refer` — a referral of an unreferred user by another keeps accounts
* `Accounted.user` — what accounts say of one user
-/

namespace Logit.Users

open Calendar Python Tokens

/-- The tables a referral reads and writes; users are keyed by id. -/
structure Database where
  users : List (UUID × User)
  tokens : UUID → Option UserToken
  transactions : List TokenTransaction

/-- Nobody has signed up yet. -/
def Database.empty : Database := ⟨[], fun _ => none, []⟩

/-! ## Applying a code -/

/-- The reasons for which a code is refused. -/
inductive Reason
  | alreadyReferred
  | invalidCode
  | selfReferral
  deriving DecidableEq, Repr

/-- The status and the detail a refused request is answered with. -/
def Reason.exception : Reason → ℕ × String
  | alreadyReferred => (409, "이미 초대 코드를 사용했습니다.")
  | invalidCode => (404, "유효하지 않은 초대 코드입니다.")
  | selfReferral => (400, "자신의 초대 코드는 사용할 수 없습니다.")

/-- What an application of a code comes to. -/
inductive ReferralResult
  | success (inviterId : UUID)
  | refused (reason : Reason)
  /-- A query that should find one row at most has found more. -/
  | multipleResultsFound
  deriving DecidableEq, Repr

variable (upcase : Char → List Char)

/-- The users with a code. -/
def usersOfCode (db : Database) (code : String) : List (UUID × User) :=
  db.users.filter fun row => row.2.referralCode = some code

/-- What is checked before anything is written, on the row as it was loaded: the inviter, if
nothing is wrong. -/
def checkReferral (db : Database) (inviteeId : UUID) (loaded : User) (code : String) :
    Except ReferralResult UUID :=
  if loaded.referredByUserId.any (· ≠ "") then .error (.refused .alreadyReferred)
  else
    match usersOfCode db (strip (upper upcase code)) with
    | [] => .error (.refused .invalidCode)
    | [(inviterId, _)] =>
      if inviterId = inviteeId then .error (.refused .selfReferral) else .ok inviterId
    | _ => .error .multipleResultsFound

/-- `User.id == invitee_id, User.referred_by_user_id.is_(None)`. -/
def Unreferred (inviteeId : UUID) (row : UUID × User) : Prop :=
  row.1 = inviteeId ∧ row.2.referredByUserId = none

instance (inviteeId : UUID) : DecidablePred (Unreferred inviteeId) := fun _ =>
  inferInstanceAs (Decidable (_ ∧ _))

/-- The update of a row that claims it for an inviter. -/
def claimRow (inviteeId inviterId : UUID) (row : UUID × User) : UUID × User :=
  if Unreferred inviteeId row then
    (row.1, { row.2 with referredByUserId := some inviterId.str })
  else row

/-- The rows the update is made to. -/
def rowcount (db : Database) (inviteeId : UUID) : ℕ := db.users.countP (Unreferred inviteeId ·)

/-- The reward of the inviter. -/
def inviterCall (inviterId : UUID) (clock : Clock) : TokenCall :=
  ⟨inviterId, clock, .creditReferralInviter REFERRAL_TOKENS.toNat none⟩

/-- The reward of the invited user. -/
def inviteeCall (inviteeId inviterId : UUID) (clock : Clock) : TokenCall :=
  ⟨inviteeId, clock, .credit REFERRAL_TOKENS.toNat .referralInvitee
    (some ("초대 코드 입력 보상 (inviter:" ++ inviterId.str ++ ")"))⟩

/-- What the two rewards leave of their token rows, with the transactions they record. -/
structure Rewards where
  inviter : UserToken × List TokenTransaction
  invitee : UserToken × List TokenTransaction

/-- The tables after a referral with its rewards. -/
def Database.refer (db : Database) (inviteeId inviterId : UUID) (rewards : Rewards) :
    Database where
  users := db.users.map (claimRow inviteeId inviterId)
  tokens := Function.update (Function.update db.tokens inviterId (some rewards.inviter.1))
    inviteeId (some rewards.invitee.1)
  transactions := db.transactions ++ (rewards.inviter.2 ++ rewards.invitee.2)

/-- Applies a code for a user who was loaded before; each reward reads the clock for itself. -/
def applyReferralCode (db : Database) (inviteeId : UUID) (loaded : User) (code : String)
    (inviterClock inviteeClock : Clock) : ReferralResult × Database :=
  match checkReferral upcase db inviteeId loaded code with
  | .error result => (result, db)
  | .ok inviterId =>
    -- The check may have been of a row that has changed since.
    if rowcount db inviteeId = 0 then (.refused .alreadyReferred, db)
    else
      let inviter := (inviterCall inviterId inviterClock).run (db.tokens inviterId)
      let invitee := (inviteeCall inviteeId inviterId inviteeClock).run
        (Function.update db.tokens inviterId (some inviter.1) inviteeId)
      (.success inviterId, db.refer inviteeId inviterId ⟨inviter, invitee⟩)

/-- How a request ends. -/
inductive ReferralReply
  | message (text : String)
  | httpException (status : ℕ) (detail : String)
  | raised
  deriving DecidableEq, Repr

/-- A request that applies a code, and what it commits. -/
def applyReferral (db : Database) (inviteeId : UUID) (loaded : User) (code : String)
    (inviterClock inviteeClock : Clock) : ReferralReply × Database :=
  match applyReferralCode upcase db inviteeId loaded code inviterClock inviteeClock with
  | (.success _, after) => (.message "초대 코드 적용 완료", after)
  | (.refused reason, _) => (.httpException reason.exception.1 reason.exception.2, db)
  | (.multipleResultsFound, _) => (.raised, db)

variable {upcase}

theorem checkReferral_ok {db : Database} {inviteeId inviterId : UUID} {loaded : User}
    {code : String} (h : checkReferral upcase db inviteeId loaded code = .ok inviterId) :
    inviterId ≠ inviteeId := by
  unfold checkReferral at h
  split_ifs at h
  split at h
  · cases h
  · split_ifs at h with hself
    cases h
    exact hself
  · cases h

/-! ## A user's own code -/

/-- The capital letters and the digits. -/
def CODE_CHARS : List Char := "ABCDEFGHIJKLMNOPQRSTUVWXYZ0123456789".toList

/-- A code, by the characters that are drawn for it. -/
def generateCode (choice : Fin 8 → Fin 36) : String :=
  "LOGIT-" ++ String.ofList (List.ofFn fun i => CODE_CHARS.get (choice i))

theorem mem_generateCode (choice : Fin 8 → Fin 36) :
    ∀ c ∈ (generateCode choice).toList, c ∈ '-' :: CODE_CHARS := by
  intro c hc
  rw [generateCode, String.toList_append] at hc
  rcases List.mem_append.mp hc with hprefix | hdrawn
  · have hall : ("LOGIT-".toList.all fun c => c ∈ '-' :: CODE_CHARS) = true := by decide
    exact of_decide_eq_true (List.all_eq_true.mp hall c hprefix)
  · rw [String.toList_ofList] at hdrawn
    obtain ⟨i, rfl⟩ := List.mem_ofFn.mp hdrawn
    exact List.mem_cons_of_mem _ (List.get_mem _ _)

theorem isSpace_of_mem_generateCode (choice : Fin 8 → Fin 36) :
    ∀ c ∈ (generateCode choice).toList, isSpace c = false := by
  have hspace : (('-' :: CODE_CHARS).all fun c => !isSpace c) = true := by decide
  exact fun c hc => Bool.eq_false_of_not_eq_true'
    (List.all_eq_true.mp hspace c (mem_generateCode choice c hc))

/-- The first code drawn that is not in use; `none` where an exception is raised. -/
def drawCode (db : Database) : List String → Option String
  | [] => none
  | code :: codes =>
    match usersOfCode db code with
    | [] => some code
    | [_] => drawCode db codes
    | _ => none

/-- The code of a user; one without a code gets a new one, and ten draws are made for it. -/
def getOrCreateReferralCode (db : Database) (userId : UUID) (loaded : User)
    (draws : Fin 10 → Fin 8 → Fin 36) : Option (String × Database) :=
  match loaded.referralCode.filter (· ≠ "") with
  | some code => some (code, db)
  | none => do
    let code ← drawCode db (List.ofFn fun i => generateCode (draws i))
    return (code, { db with users := db.users.map fun row =>
      if row.1 = userId then (row.1, { row.2 with referralCode := some code }) else row })

/-- The users that a user has invited. -/
def invitedUsers (db : Database) (userId : UUID) : List (UUID × User) :=
  db.users.filter fun row => row.2.referredByUserId = some userId.str

structure ReferralStats where
  code : String
  invitedCount : ℕ
  deriving DecidableEq, Repr

def getReferralStats (db : Database) (userId : UUID) (loaded : User)
    (draws : Fin 10 → Fin 8 → Fin 36) : Option (ReferralStats × Database) := do
  let (code, db) ← getOrCreateReferralCode db userId loaded draws
  return (⟨code, (invitedUsers db userId).length⟩, db)

/-! ## Accounts -/

/-- The number of transactions of a type and a user. -/
def countOf (type : TokenTransactionType) (userId : UUID) (txs : List TokenTransaction) : ℕ :=
  txs.countP fun tx => tx.type = type ∧ tx.userId = userId

@[simp] theorem countOf_append (type : TokenTransactionType) (userId : UUID)
    (txs more : List TokenTransaction) :
    countOf type userId (txs ++ more) = countOf type userId txs + countOf type userId more :=
  List.countP_append

/-- Every user referred has been rewarded as an invited user, and whoever has referred the user
as an inviter; nobody else has, and nobody has referred themselves. -/
structure Accounted (db : Database) : Prop where
  keyed : (db.users.map Prod.fst).Nodup
  invitee : ∀ userId, countOf .referralInvitee userId db.transactions =
    db.users.countP fun row => row.1 = userId ∧ row.2.referredByUserId.isSome = true
  inviter : ∀ userId, countOf .referralInviter userId db.transactions =
    (invitedUsers db userId).length
  notSelf : ∀ row ∈ db.users, row.2.referredByUserId ≠ some row.1.str

theorem accounted_empty : Accounted .empty :=
  ⟨.nil, fun _ => rfl, fun _ => rfl, fun _ h => nomatch h⟩

variable {db : Database} {inviteeId inviterId userId : UUID}

/-- A user's own code changes nothing that an invitation is counted by. -/
theorem invitedCount_getReferralStats {loaded : User} {draws : Fin 10 → Fin 8 → Fin 36}
    {stats : ReferralStats} {after : Database}
    (h : getReferralStats db userId loaded draws = some (stats, after)) :
    stats.invitedCount = (invitedUsers db userId).length := by
  simp only [getReferralStats, Option.bind_eq_bind, Option.bind_eq_some_iff, Option.pure_def,
    Option.some.injEq, Prod.mk.injEq, Prod.exists] at h
  obtain ⟨code, db', hcode, rfl, rfl⟩ := h
  unfold getOrCreateReferralCode at hcode
  split at hcode
  · cases hcode
    rfl
  · simp only [Option.bind_eq_bind, Option.bind_eq_some_iff, Option.pure_def, Option.some.injEq,
      Prod.mk.injEq] at hcode
    obtain ⟨-, -, -, rfl⟩ := hcode
    simp only [invitedUsers, List.filter_map, List.length_map]
    congr 1
    refine List.filter_congr fun row _ => ?_
    simp only [Function.comp]
    split_ifs <;> rfl

/-! ### One referral -/

/-- A call that grants tokens records nothing else of its type. -/
theorem countOf_granted {type granted : TokenTransactionType} (htype : type ≠ .balanceInit)
    {clock : Clock} {row : Option UserToken} {amount : ℤ} {description : Option String}
    {createdAt : Datetime} {granteeId : UUID} :
    countOf type userId ((getOrCreateBalance granteeId clock row).recorded ++
      [recordTransaction granteeId amount granted description createdAt]) =
        if granted = type ∧ granteeId = userId then 1 else 0 := by
  have hfound : countOf type userId (getOrCreateBalance granteeId clock row).recorded = 0 :=
    List.countP_eq_zero.mpr fun tx htx => by
      simp [getOrCreateBalance_recorded_type _ _ _ tx htx, htype.symm]
  rw [countOf_append, hfound, Nat.zero_add, countOf, List.countP_singleton]
  exact if_congr decide_eq_true_iff rfl rfl

/-- The rewards of a referral, on whatever token rows they find. -/
def Rewards.Granted (rewards : Rewards) (inviteeId inviterId : UUID) : Prop :=
  (∃ clock row, rewards.inviter = (inviterCall inviterId clock).run row) ∧
    ∃ clock row, rewards.invitee = (inviteeCall inviteeId inviterId clock).run row

theorem Rewards.Granted.countOf {rewards : Rewards} (h : rewards.Granted inviteeId inviterId)
    (type : TokenTransactionType) (htype : type ≠ .balanceInit) (userId : UUID) :
    countOf type userId (rewards.inviter.2 ++ rewards.invitee.2) =
      (if .referralInviter = type ∧ inviterId = userId then 1 else 0) +
        if .referralInvitee = type ∧ inviteeId = userId then 1 else 0 := by
  obtain ⟨⟨clock, row, hinviter⟩, clock', row', hinvitee⟩ := h
  rw [countOf_append, hinviter, hinvitee]
  exact congrArg₂ (· + ·) (countOf_granted htype) (countOf_granted htype)

/-- The claim of a row changes it and no other. -/
theorem map_claimRow {users : List (UUID × User)} {user : User}
    (hkeyed : (users.map Prod.fst).Nodup) (hrow : (inviteeId, user) ∈ users)
    (hnone : user.referredByUserId = none) (inviterId : UUID) :
    ∃ before after, users = before ++ (inviteeId, user) :: after ∧
      users.map (claimRow inviteeId inviterId) =
        before ++ (inviteeId, { user with referredByUserId := some inviterId.str }) :: after := by
  obtain ⟨before, after, rfl⟩ := List.append_of_mem hrow
  refine ⟨before, after, rfl, ?_⟩
  rw [List.map_append, List.map_cons, List.nodup_append, List.nodup_cons] at hkeyed
  obtain ⟨-, ⟨hafter, -⟩, hbefore⟩ := hkeyed
  have hkeep : ∀ rows : List (UUID × User), (∀ row ∈ rows, row.1 ≠ inviteeId) →
      rows.map (claimRow inviteeId inviterId) = rows := by
    intro rows hrows
    refine (List.map_congr_left fun row hmem => ?_).trans (List.map_id rows)
    exact if_neg fun hunreferred => hrows row hmem hunreferred.1
  have hearlier : ∀ row ∈ before, row.1 ≠ inviteeId := fun row hmem =>
    hbefore row.1 (List.mem_map_of_mem hmem) inviteeId List.mem_cons_self
  have hlater : ∀ row ∈ after, row.1 ≠ inviteeId := by
    rintro row hmem rfl
    exact hafter (show row.1 ∈ after.map Prod.fst from List.mem_map_of_mem hmem)
  have hclaimed : claimRow inviteeId inviterId (inviteeId, user) =
      (inviteeId, { user with referredByUserId := some inviterId.str }) := if_pos ⟨rfl, hnone⟩
  rw [List.map_append, List.map_cons, hkeep before hearlier, hkeep after hlater, hclaimed]

/-- The rows of a kind are one more if the row claimed comes to be of it. -/
theorem countP_map_claimRow {users : List (UUID × User)} {user : User}
    (hkeyed : (users.map Prod.fst).Nodup) (hrow : (inviteeId, user) ∈ users)
    (hnone : user.referredByUserId = none) (inviterId : UUID) {p : UUID × User → Bool}
    (hold : p (inviteeId, user) = false) :
    (users.map (claimRow inviteeId inviterId)).countP p = users.countP p +
      if p (inviteeId, { user with referredByUserId := some inviterId.str }) then 1 else 0 := by
  obtain ⟨before, after, husers, hclaimed⟩ := map_claimRow hkeyed hrow hnone inviterId
  rw [hclaimed, husers, List.countP_append, List.countP_append, List.countP_cons,
    List.countP_cons, hold, if_neg Bool.false_ne_true]
  omega

/-- A referral of a user who has not been referred, by another, keeps accounts. -/
theorem Accounted.refer (h : Accounted db) {user : User} (hrow : (inviteeId, user) ∈ db.users)
    (hnone : user.referredByUserId = none) (hother : inviterId ≠ inviteeId) {rewards : Rewards}
    (hrewards : rewards.Granted inviteeId inviterId) :
    Accounted (db.refer inviteeId inviterId rewards) := by
  obtain ⟨before, after, husers, hclaimed⟩ := map_claimRow h.keyed hrow hnone inviterId
  constructor
  case keyed =>
    have hkeyed := h.keyed
    rw [Database.refer, hclaimed]
    rw [husers] at hkeyed
    simpa only [List.map_append, List.map_cons] using hkeyed
  case invitee =>
    intro userId
    have hrows := countP_map_claimRow h.keyed hrow hnone inviterId
      (p := fun row => row.1 = userId ∧ row.2.referredByUserId.isSome = true) (by simp [hnone])
    rw [Database.refer, hrows, countOf_append, h.invitee userId, hrewards.countOf _ (by decide)]
    simp
  case inviter =>
    intro userId
    have hrows := countP_map_claimRow h.keyed hrow hnone inviterId
      (p := fun row => row.2.referredByUserId = some userId.str) (by simp [hnone])
    have hinviter := h.inviter userId
    rw [invitedUsers, ← List.countP_eq_length_filter] at hinviter ⊢
    rw [Database.refer, hrows, countOf_append, hinviter, hrewards.countOf _ (by decide)]
    simp [UUID.str_injective.eq_iff]
  case notSelf =>
    intro row hmem
    rw [Database.refer, hclaimed] at hmem
    rcases List.mem_append.mp hmem with hmem | hmem
    · exact h.notSelf row (husers ▸ List.mem_append_left _ hmem)
    · rcases List.mem_cons.mp hmem with rfl | hmem
      · exact fun heq => hother (UUID.str_injective (Option.some.inj heq))
      · exact h.notSelf row (husers ▸ List.mem_append_right _ (List.mem_cons_of_mem _ hmem))

/-- The accounts of one user, as they are reported. -/
structure UserAccounts (db : Database) (userId : UUID) : Prop where
  atMostOnce : countOf .referralInvitee userId db.transactions ≤ 1
  once_iff : ∀ user, (userId, user) ∈ db.users →
    (countOf .referralInvitee userId db.transactions = 1 ↔ user.referredByUserId.isSome = true)
  notSelf : ∀ user, (userId, user) ∈ db.users → user.referredByUserId ≠ some userId.str
  invited : countOf .referralInviter userId db.transactions =
    db.users.countP fun row => row.2.referredByUserId = some userId.str
  reported : ∀ loaded draws stats after,
    getReferralStats db userId loaded draws = some (stats, after) →
      stats.invitedCount = countOf .referralInviter userId db.transactions

/-- Where accounts are kept, those of every user are in order. -/
theorem Accounted.user (h : Accounted db) (userId : UUID) : UserAccounts db userId := by
  have hle : (db.users.countP fun row => row.1 = userId ∧ row.2.referredByUserId.isSome = true) ≤
      db.users.countP fun row => row.1 = userId :=
    List.countP_mono_left fun row _ hrow => decide_eq_true (of_decide_eq_true hrow).1
  have hone : (db.users.countP fun row => row.1 = userId) ≤ 1 := by
    have hnodup := List.nodup_iff_count.mp h.keyed userId
    rwa [List.count_eq_countP, List.countP_map] at hnodup
  rw [← h.invitee userId] at hle
  refine ⟨hle.trans hone, fun user hmem => ⟨fun hcount => ?_, fun hreferred => ?_⟩,
    fun user hmem => h.notSelf _ hmem, ?_, fun loaded draws stats after hstats => ?_⟩
  · rw [h.invitee userId] at hcount
    obtain ⟨row, hrow, hreferred⟩ := List.countP_pos_iff.mp (hcount ▸ Nat.one_pos)
    obtain ⟨hid, hreferred⟩ := of_decide_eq_true hreferred
    obtain rfl : row = (userId, user) := List.inj_on_of_nodup_map h.keyed hrow hmem hid
    exact hreferred
  · refine le_antisymm (hle.trans hone) ?_
    rw [h.invitee userId]
    exact List.countP_pos_iff.mpr ⟨(userId, user), hmem, decide_eq_true ⟨rfl, hreferred⟩⟩
  · rw [h.inviter userId, invitedUsers, List.countP_eq_length_filter]
  · rw [invitedCount_getReferralStats hstats, h.inviter userId]

end Logit.Users
