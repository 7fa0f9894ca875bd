import Logit.Concurrency.Locks
import Logit.Concurrency.Pool
import Logit.Users.Referral

/-!
# Referrals at the same time

Any number of users apply codes at once, each request in a transaction of its own that may
end at any point without a trace. A request checks the row of its user as it has loaded it,
which may be out of date; the update that claims the row waits for its lock and finds the
latest committed row. Locks are held to the end of the transaction, and nobody sees what it
has written before its commit. Meanwhile other requests sign users up, change profiles and
grant and take tokens.

## Main definitions

* `RowKey`, `Shared` — rows that are locked, the committed tables and the locks taken
* `ReferralTask`, `ReferralAct`, `referrals` — the requests, and their statements
* `OtherRequests` — what all other requests do
* `Sound` — what every run keeps

## Main results

* `runs_applyReferral` — a request that runs alone does what `applyReferral` does
* `Sound.step` — every statement keeps accounts
* `userAccounts_of_reachable` — accounts in every committed state
-/

namespace Logit.Users

open Calendar Concurrency Python Tokens

/-! ## Requests -/

/-- A row that a statement locks. -/
inductive RowKey
  | user (userId : UUID)
  | token (userId : UUID)
  deriving DecidableEq, Repr

/-- The committed tables, and the locks of open transactions. -/
structure Shared where
  db : Database
  locks : List RowKey

/-- Where a request stands between two of its statements. -/
inductive ReferralTask
  | authenticating (inviteeId : UUID) (code : String)
  /-- The user has been loaded. -/
  | checking (inviteeId : UUID) (loaded : User) (code : String)
  /-- The inviter has been found. -/
  | claiming (inviteeId inviterId : UUID)
  /-- The row of the user has been claimed. -/
  | rewarding (inviteeId inviterId : UUID)
  /-- The inviter has been rewarded. -/
  | thanking (inviteeId inviterId : UUID) (inviter : UserToken × List TokenTransaction)
  /-- Both have been. -/
  | committing (inviteeId inviterId : UUID) (rewards : Rewards)
  | over

/-- The rows that a request has locked. -/
def ReferralTask.held : ReferralTask → List RowKey
  | rewarding inviteeId _ => [.user inviteeId]
  | thanking inviteeId inviterId _ => [.token inviterId, .user inviteeId]
  | committing inviteeId inviterId _ => [.token inviteeId, .token inviterId, .user inviteeId]
  | _ => []

/-- The end of a transaction gives its locks back. -/
def Shared.unlock (s : Shared) (task : ReferralTask) : Shared :=
  { s with locks := s.locks.filter (· ∉ task.held) }

def Shared.lock (s : Shared) (key : RowKey) : Shared := { s with locks := key :: s.locks }

variable (upcase : Char → List Char)

/-- One statement of a request, or the end of its transaction. -/
inductive ReferralAct : Shared → ReferralTask → Shared → ReferralTask → Prop
  | authenticate {s : Shared} {inviteeId : UUID} {loaded : User} {code : String}
      (hrow : (inviteeId, loaded) ∈ s.db.users) (hactive : loaded.isActive = true) :
      ReferralAct s (.authenticating inviteeId code) s (.checking inviteeId loaded code)
  | check {s : Shared} {inviteeId inviterId : UUID} {loaded : User} {code : String}
      (hchecked : checkReferral upcase s.db inviteeId loaded code = .ok inviterId) :
      ReferralAct s (.checking inviteeId loaded code) s (.claiming inviteeId inviterId)
  /-- The update has waited for the lock, and the latest committed row is unclaimed. -/
  | claim {s : Shared} {inviteeId inviterId : UUID} (hfree : .user inviteeId ∉ s.locks)
      (hcount : rowcount s.db inviteeId ≠ 0) :
      ReferralAct s (.claiming inviteeId inviterId) (s.lock (.user inviteeId))
        (.rewarding inviteeId inviterId)
  | reward {s : Shared} {inviteeId inviterId : UUID} (clock : Clock)
      (hfree : .token inviterId ∉ s.locks) :
      ReferralAct s (.rewarding inviteeId inviterId) (s.lock (.token inviterId))
        (.thanking inviteeId inviterId
          ((inviterCall inviterId clock).run (s.db.tokens inviterId)))
  | thank {s : Shared} {inviteeId inviterId : UUID} {inviter : UserToken × List TokenTransaction}
      (clock : Clock) (hfree : .token inviteeId ∉ s.locks) :
      ReferralAct s (.thanking inviteeId inviterId inviter) (s.lock (.token inviteeId))
        (.committing inviteeId inviterId
          ⟨inviter, (inviteeCall inviteeId inviterId clock).run (s.db.tokens inviteeId)⟩)
  | commit {s : Shared} {inviteeId inviterId : UUID} {rewards : Rewards} :
      ReferralAct s (.committing inviteeId inviterId rewards)
        (Shared.unlock { s with db := s.db.refer inviteeId inviterId rewards }
          (.committing inviteeId inviterId rewards)) .over
  /-- A transaction may be rolled back at any statement: the code is refused, a statement
  raises, two transactions wait for each other, or the connection is lost. -/
  | rollback {s : Shared} {task : ReferralTask} : ReferralAct s task (s.unlock task) .over

/-- A request that starts. -/
def ReferralTask.Starts : ReferralTask → Prop
  | authenticating _ _ => True
  | _ => False

/-- Other requests sign users up, change everything of a user but the inviter, record
transactions of other types, and write the token rows that are not locked. -/
structure OtherRequests (s s' : Shared) : Prop where
  users : ∃ (change : UUID → User → User) (created : List (UUID × User)),
    (∀ userId user, (change userId user).referredByUserId = user.referredByUserId) ∧
      (∀ row ∈ created, row.2.referredByUserId = none) ∧
      s'.db.users = s.db.users.map (fun row => (row.1, change row.1 row.2)) ++ created
  keyed : (s'.db.users.map Prod.fst).Nodup
  transactions : ∃ more, (∀ tx ∈ more, tx.type ≠ .referralInviter ∧ tx.type ≠ .referralInvitee) ∧
    s'.db.transactions = s.db.transactions ++ more
  tokens : ∀ userId, .token userId ∈ s.locks → s'.db.tokens userId = s.db.tokens userId
  locks : s'.locks = s.locks

/-- The requests that apply codes. -/
def referrals : Program Shared ReferralTask :=
  ⟨OtherRequests, ReferralTask.Starts, ReferralAct upcase⟩

variable {upcase}

/-! ### One request alone -/

theorem unlock_of_held (db : Database) (task : ReferralTask) :
    Shared.unlock ⟨db, task.held⟩ task = ⟨db, []⟩ := by
  simp [Shared.unlock]

theorem act_rollback (db : Database) (task : ReferralTask) :
    ReferralAct upcase ⟨db, task.held⟩ task ⟨db, []⟩ .over := by
  rw [← unlock_of_held db task]
  exact .rollback

theorem act_commit (db : Database) (inviteeId inviterId : UUID) (rewards : Rewards) :
    ReferralAct upcase ⟨db, (ReferralTask.committing inviteeId inviterId rewards).held⟩
      (.committing inviteeId inviterId rewards) ⟨db.refer inviteeId inviterId rewards, []⟩
      .over := by
  rw [← unlock_of_held (db.refer inviteeId inviterId rewards)
    (.committing inviteeId inviterId rewards)]
  exact .commit

/-- A request that runs alone does what `applyReferral` does. -/
theorem runs_applyReferral {db : Database} {inviteeId : UUID} {loaded : User}
    (hrow : (inviteeId, loaded) ∈ db.users) (hactive : loaded.isActive = true) (code : String)
    (inviterClock inviteeClock : Clock) :
    (referrals upcase).Runs (⟨db, []⟩, .authenticating inviteeId code)
      (⟨(applyReferral upcase db inviteeId loaded code inviterClock inviteeClock).2, []⟩,
        .over) := by
  refine .step (.authenticate hrow hactive) ?_
  unfold applyReferral applyReferralCode
  cases hchecked : checkReferral upcase db inviteeId loaded code with
  | error result => cases result <;> exact .last (act_rollback db (.checking inviteeId loaded code))
  | ok inviterId =>
    refine .step (.check hchecked) ?_
    dsimp only
    split_ifs with hcount
    · exact .last (act_rollback db (.claiming inviteeId inviterId))
    · have hother : inviteeId ≠ inviterId := (checkReferral_ok hchecked).symm
      rw [Function.update_of_ne hother]
      refine .step (.claim (by simp) hcount) (.step (.reward inviterClock (by simp [Shared.lock]))
        (.step (.thank inviteeClock (by simp [Shared.lock, hother])) ?_))
      exact .last (act_commit db inviteeId inviterId _)

/-! ## What every run keeps -/

/-- The user can be referred by the inviter. -/
def Referable (db : Database) (inviteeId inviterId : UUID) : Prop :=
  inviterId ≠ inviteeId ∧
    ∃ user, (inviteeId, user) ∈ db.users ∧ user.referredByUserId = none

/-- What a request has made sure of. -/
def ReferralTask.Ready (db : Database) : ReferralTask → Prop
  | claiming inviteeId inviterId => inviterId ≠ inviteeId
  | rewarding inviteeId inviterId => Referable db inviteeId inviterId
  | thanking inviteeId inviterId inviter => Referable db inviteeId inviterId ∧
      ∃ clock row, inviter = (inviterCall inviterId clock).run row
  | committing inviteeId inviterId rewards => Referable db inviteeId inviterId ∧
      rewards.Granted inviteeId inviterId
  | _ => True

/-- The accounts are kept, no row is locked twice, and every request is where it says. -/
structure Sound (p : Pool Shared ReferralTask) : Prop where
  accounted : Accounted p.shared.db
  exclusive : Exclusive ReferralTask.held p.shared.locks p.tasks
  ready : ∀ task ∈ p.tasks, task.Ready p.shared.db

variable {db db' : Database} {inviteeId inviterId : UUID}

/-- The update finds a row just when the user has not been referred. -/
theorem rowcount_ne_zero :
    rowcount db inviteeId ≠ 0 ↔
      ∃ user, (inviteeId, user) ∈ db.users ∧ user.referredByUserId = none := by
  rw [rowcount, Nat.ne_zero_iff_zero_lt, List.countP_pos_iff]
  constructor
  · rintro ⟨⟨userId, user⟩, hmem, hunreferred⟩
    obtain ⟨rfl, hnone⟩ := of_decide_eq_true hunreferred
    exact ⟨user, hmem, hnone⟩
  · rintro ⟨user, hmem, hnone⟩
    exact ⟨_, hmem, decide_eq_true ⟨rfl, hnone⟩⟩

/-- A request is where it says as long as the row it has claimed stays unclaimed. -/
theorem ReferralTask.Ready.frame {task : ReferralTask} (h : task.Ready db)
    (hkeep : ∀ inviteeId, .user inviteeId ∈ task.held → ∀ user, (inviteeId, user) ∈ db.users →
      user.referredByUserId = none →
        ∃ user, (inviteeId, user) ∈ db'.users ∧ user.referredByUserId = none) :
    task.Ready db' := by
  cases task with
  | rewarding inviteeId inviterId =>
    obtain ⟨hother, user, hmem, hnone⟩ := h
    exact ⟨hother, hkeep inviteeId (by simp [held]) user hmem hnone⟩
  | thanking inviteeId inviterId inviter =>
    obtain ⟨⟨hother, user, hmem, hnone⟩, hgranted⟩ := h
    exact ⟨⟨hother, hkeep inviteeId (by simp [held]) user hmem hnone⟩, hgranted⟩
  | committing inviteeId inviterId rewards =>
    obtain ⟨⟨hother, user, hmem, hnone⟩, hgranted⟩ := h
    exact ⟨⟨hother, hkeep inviteeId (by simp [held]) user hmem hnone⟩, hgranted⟩
  | claiming => exact h
  | _ => trivial

/-- A referral leaves the rows of other users alone. -/
theorem mem_refer {userId : UUID} (hother : userId ≠ inviteeId) {user : User}
    (hmem : (userId, user) ∈ db.users) (rewards : Rewards) :
    (userId, user) ∈ (db.refer inviteeId inviterId rewards).users :=
  List.mem_map.mpr ⟨_, hmem, if_neg fun hunreferred => hother hunreferred.1⟩

theorem OtherRequests.mem {s s' : Shared} (h : OtherRequests s s') {userId : UUID} {user : User}
    (hmem : (userId, user) ∈ s.db.users) :
    ∃ user', (userId, user') ∈ s'.db.users ∧ user'.referredByUserId = user.referredByUserId := by
  obtain ⟨change, created, hchange, -, husers⟩ := h.users
  refine ⟨change userId user, ?_, hchange userId user⟩
  rw [husers]
  exact List.mem_append_left _ (List.mem_map.mpr ⟨_, hmem, rfl⟩)

/-- Other requests leave the number of users referred in some way as it was. -/
theorem OtherRequests.countP_users {s s' : Shared} (h : OtherRequests s s')
    {p : UUID → Option String → Bool} (hnone : ∀ userId, p userId none = false) :
    (s'.db.users.countP fun row => p row.1 row.2.referredByUserId) =
      s.db.users.countP fun row => p row.1 row.2.referredByUserId := by
  obtain ⟨change, created, hchange, hcreated, husers⟩ := h.users
  have hnew : (created.countP fun row => p row.1 row.2.referredByUserId) = 0 :=
    List.countP_eq_zero.mpr fun row hrow => by simp [hcreated row hrow, hnone]
  rw [husers, List.countP_append, hnew, Nat.add_zero, List.countP_map]
  exact List.countP_congr fun row _ => by simp [hchange]

theorem OtherRequests.countOf {s s' : Shared} (h : OtherRequests s s')
    {type : TokenTransactionType} (htype : type = .referralInviter ∨ type = .referralInvitee)
    (userId : UUID) :
    countOf type userId s'.db.transactions = countOf type userId s.db.transactions := by
  obtain ⟨more, hmore, htransactions⟩ := h.transactions
  have hnew : Users.countOf type userId more = 0 := List.countP_eq_zero.mpr fun tx htx => by
    obtain ⟨hinviter, hinvitee⟩ := hmore tx htx
    rcases htype with rfl | rfl
    · simp [hinviter]
    · simp [hinvitee]
  rw [htransactions, countOf_append, hnew, Nat.add_zero]

/-- What other requests do keeps accounts. -/
theorem OtherRequests.accounted {s s' : Shared} (h : OtherRequests s s')
    (haccounted : Accounted s.db) : Accounted s'.db where
  keyed := h.keyed
  invitee userId := by
    rw [h.countOf (.inr rfl), haccounted.invitee userId]
    exact (h.countP_users (p := fun id referrer => id = userId ∧ referrer.isSome = true)
      (by simp)).symm
  inviter userId := by
    rw [h.countOf (.inl rfl), haccounted.inviter userId, invitedUsers, invitedUsers,
      ← List.countP_eq_length_filter, ← List.countP_eq_length_filter]
    exact (h.countP_users (p := fun _ referrer => referrer = some userId.str) (by simp)).symm
  notSelf row hrow := by
    obtain ⟨change, created, hchange, hcreated, husers⟩ := h.users
    rw [husers] at hrow
    rcases List.mem_append.mp hrow with hrow | hrow
    · obtain ⟨old, hold, rfl⟩ := List.mem_map.mp hrow
      rw [hchange]
      exact haccounted.notSelf old hold
    · rw [hcreated row hrow]
      simp

/-! ### One statement -/

theorem Sound.act {s s' : Shared} {task task' : ReferralTask} {before after : List ReferralTask}
    (h : Sound ⟨s, before ++ task :: after⟩) (hact : ReferralAct upcase s task s' task') :
    Sound ⟨s', before ++ task' :: after⟩ := by
  obtain ⟨haccounted, hexclusive, hready⟩ := h
  have hthis : task.Ready s.db := hready task (by simp)
  have hstay (hnext : task'.Ready s.db) : ∀ other ∈ before ++ task' :: after, other.Ready s.db :=
    forall_mem_middle hready (fun _ _ hother => hother) fun _ => hnext
  cases hact with
  | authenticate hrow hactive => exact ⟨haccounted, hexclusive.keep rfl, hstay trivial⟩
  | check hchecked =>
    exact ⟨haccounted, hexclusive.keep rfl, hstay (checkReferral_ok hchecked)⟩
  | claim hfree hcount =>
    exact ⟨haccounted, hexclusive.acquire hfree rfl, hstay ⟨hthis, rowcount_ne_zero.mp hcount⟩⟩
  | reward clock hfree =>
    exact ⟨haccounted, hexclusive.acquire hfree rfl, hstay ⟨hthis, clock, _, rfl⟩⟩
  | thank clock hfree =>
    obtain ⟨hreferable, hinviter⟩ := hthis
    exact ⟨haccounted, hexclusive.acquire hfree rfl,
      hstay ⟨hreferable, hinviter, clock, _, rfl⟩⟩
  | @commit inviteeId inviterId rewards =>
    obtain ⟨⟨hother, user, hrow, hnone⟩, hgranted⟩ := hthis
    refine ⟨haccounted.refer hrow hnone hother hgranted, hexclusive.release rfl,
      forall_mem_middle hready (fun other hmem hother => hother.frame ?_) fun _ => trivial⟩
    intro userId hheld user hrow hnone
    -- The row is locked, so no other request has claimed it.
    have hne : userId ≠ inviteeId := by
      rintro rfl
      exact hexclusive.not_mem_held (by simp [ReferralTask.held]) hmem hheld
    exact ⟨user, mem_refer hne hrow rewards, hnone⟩
  | rollback => exact ⟨haccounted, hexclusive.release rfl, hstay trivial⟩

theorem Sound.step {p q : Pool Shared ReferralTask} (h : Sound p)
    (hstep : Pool.Step (referrals upcase) p q) : Sound q := by
  cases hstep with
  | env ts hothers =>
    obtain ⟨haccounted, hexclusive, hready⟩ := h
    refine ⟨hothers.accounted haccounted, ?_, fun task hmem => (hready task hmem).frame ?_⟩
    · rw [hothers.locks]
      exact hexclusive
    · intro userId _ user hrow hnone
      obtain ⟨user', hrow', hsame⟩ := hothers.mem hrow
      exact ⟨user', hrow', hsame.trans hnone⟩
  | @start task s ts hstart =>
    obtain ⟨haccounted, hexclusive, hready⟩ := h
    cases task with
    | authenticating inviteeId code =>
      refine ⟨haccounted, hexclusive.start rfl, ?_⟩
      simp only [List.forall_mem_cons]
      exact ⟨trivial, hready⟩
    | _ => exact hstart.elim
  | act before after hact => exact h.act hact

theorem sound_of_reachable {p : Pool Shared ReferralTask}
    (h : Pool.Reachable (referrals upcase) ⟨.empty, []⟩ p) : Sound p := by
  -- By induction on the run, from tables without users.
  induction h with
  | refl => exact ⟨accounted_empty, .nil _, fun _ hmem => nomatch hmem⟩
  | tail hrun hstep ih => exact ih.step hstep

/-! ## Accounts in every committed state -/

/-- However many users apply codes at once, every user's accounts are in order in every
committed state. -/
theorem userAccounts_of_reachable {p : Pool Shared ReferralTask}
    (h : Pool.Reachable (referrals upcase) ⟨.empty, []⟩ p) (userId : UUID) :
    UserAccounts p.shared.db userId :=
  (sound_of_reachable h).accounted.user userId

/-! ### A code that is entered twice -/

/-- A user with a code, or without. -/
def member (email : String) (referralCode : Option String) : User where
  email := email
  fullName := none
  isActive := true
  oauthProvider := some .google
  oauthProviderId := some email
  profileImageUrl := none
  termsAgreed := true
  termsAgreedAt := none
  phone := none
  referralCode := referralCode
  referredByUserId := none
  refreshToken := none

/-- Two users, the first of whom has a code. -/
def twoMembers : Database :=
  { Database.empty with
    users := [(1, member "inviter@example.com" (some "LOGIT-AB12CD34")),
      (2, member "invitee@example.com" none)] }

/-- The upper cases of ASCII. -/
def asciiUpcase (c : Char) : List Char := [c.toUpper]

theorem otherRequests_twoMembers : OtherRequests ⟨.empty, []⟩ ⟨twoMembers, []⟩ where
  users := ⟨fun _ user => user, twoMembers.users, fun _ _ => rfl, by decide, rfl⟩
  keyed := by decide
  transactions := ⟨[], fun _ hmem => absurd hmem List.not_mem_nil, rfl⟩
  tokens _ hlocked := nomatch hlocked
  locks := rfl

/-- The second user enters the code of the first in two requests. Both pass the checks before one
of them goes through, and the update of the other finds no row. -/
theorem userAccounts_of_reachable_twice : ∃ p,
    Pool.Reachable (referrals asciiUpcase) ⟨.empty, []⟩ p ∧
      p.tasks = [.over, .claiming 2 1] ∧ rowcount p.shared.db 2 = 0 ∧
      countOf .referralInviter 1 p.shared.db.transactions = 1 ∧
      countOf .referralInvitee 2 p.shared.db.transactions = 1 ∧
      UserAccounts p.shared.db 1 ∧ UserAccounts p.shared.db 2 := by
  let clock : Clock := fun _ => .utc 2026 1 10 9
  have hsignedUp : Pool.Reachable (referrals asciiUpcase) ⟨.empty, []⟩ ⟨⟨twoMembers, []⟩, []⟩ :=
    .single (.env [] otherRequests_twoMembers)
  have hrow : (2, member "invitee@example.com" none) ∈ twoMembers.users := by decide
  have hchecked : (referrals asciiUpcase).Runs
      (⟨twoMembers, []⟩, .authenticating 2 "LOGIT-AB12CD34") (⟨twoMembers, []⟩, .claiming 2 1) :=
    .step (.authenticate hrow rfl) (.last (.check (by decide +kernel)))
  have hruns : (referrals asciiUpcase).Runs
      (⟨twoMembers, []⟩, .authenticating 2 " logit-ab12cd34") _ :=
    runs_applyReferral hrow rfl _ clock clock
  have hreach := hruns.reachable trivial (hchecked.reachable trivial hsignedUp)
  have haccounts := userAccounts_of_reachable hreach
  exact ⟨_, hreach, rfl, by decide +kernel, by decide +kernel, by decide +kernel, haccounts 1,
    haccounts 2⟩

end Logit.Users
