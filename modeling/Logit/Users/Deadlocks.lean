import Logit.Concurrency.Waiting
import Logit.Users.ReferralSessions

/-!
# Applications of codes that wait for each other

An application of a code locks the row of its user, then the tokens of the inviter, then those of
its user, and holds all of them to the end of its transaction. So two users who enter each other's
codes at once may wait for each other. The locks are those of applications; those of other requests
are left aside.

## Main definitions

* `ReferralTask.wanted` — the row that an application locks next
* `Unstuck` — what is expected of applications that wait

## Main results

* `rewarding_of_stuck` — where applications on a circle stand
* `unstuck_of_reachable` — in every run, who waits in a circle, and that the others go on
-/

namespace Logit.Users

open Calendar Concurrency Python Tokens

/-- The row that an application waits for before its next statement. -/
def ReferralTask.wanted : ReferralTask → Option RowKey
  | claiming inviteeId _ => some (.user inviteeId)
  | rewarding _ inviterId => some (.token inviterId)
  | thanking inviteeId _ _ => some (.token inviteeId)
  | _ => none

/-- Applications wait for each other in a circle. -/
abbrev Stuck (tasks : List ReferralTask) (t u : ReferralTask) : Prop :=
  OnCircle ReferralTask.held ReferralTask.wanted tasks t u

variable (upcase : Char → List Char)

/-- What is expected of applications that wait for each other's locks. -/
structure Unstuck (p : Pool Shared ReferralTask) : Prop where
  /-- An application whose lock is taken can only be rolled back. -/
  heldUp : ∀ task key, key ∈ task.wanted → key ∈ p.shared.locks → ∀ s' task',
    ReferralAct upcase p.shared task s' task' → task' = .over
  /-- On a circle every application has claimed its user and rewarded the inviter, whose own
  application waits for it. No user of them has been referred yet. -/
  invited : ∀ t u, Stuck p.tasks t u → ∃ inviteeId inviterId inviter nextId next,
    t = .thanking inviteeId inviterId inviter ∧ u = .thanking nextId inviteeId next ∧
      nextId ≠ inviteeId ∧ Referable p.shared.db nextId inviteeId
  /-- Once an application on a circle is rolled back, the one that waits for it goes on. -/
  recovers : ∀ t u, Stuck p.tasks t u → ∀ key ∈ t.wanted, key ∉ (p.shared.unlock u).locks
  /-- There is no circle where, say, every inviter has joined before the users who are invited. -/
  ordered : ∀ joined : UUID → ℕ, (∀ inviteeId inviterId inviter,
      .thanking inviteeId inviterId inviter ∈ p.tasks → joined inviterId < joined inviteeId) →
    ∀ t u, ¬ Stuck p.tasks t u
  /-- Without a circle some application is not held up, as long as any is not over. -/
  goesOn : (∃ task ∈ p.tasks, task ≠ .over) → (∃ t u, Stuck p.tasks t u) ∨
    ∃ task ∈ p.tasks, task ≠ .over ∧ ∀ key ∈ task.wanted, key ∉ p.shared.locks

variable {upcase} {s s' : Shared} {task task' t u : ReferralTask} {tasks : List ReferralTask}

/-! ## Circles -/

/-- An application that has a lock is not over. -/
theorem ne_over_of_held {key : RowKey} (hkey : key ∈ task.held) : task ≠ .over := by
  rintro rfl
  exact absurd hkey List.not_mem_nil

/-- An application that waits for the row of a user has no lock. -/
theorem held_eq_nil_of_wanted {userId : UUID} (h : task.wanted = some (.user userId)) :
    task.held = [] := by
  cases task with
  | claiming inviteeId inviterId => rfl
  | _ => cases h

/-- On a circle every application has rewarded the inviter, and is about to reward its user. -/
theorem exists_thanking_of_stuck (h : Stuck tasks t u) :
    ∃ inviteeId inviterId inviter, t = .thanking inviteeId inviterId inviter := by
  have hwanted : t.wanted ≠ none := h.wanted_ne_none
  cases t with
  | thanking inviteeId inviterId inviter => exact ⟨_, _, _, rfl⟩
  | claiming inviteeId inviterId => exact absurd rfl h.held_ne_nil
  | rewarding inviteeId inviterId =>
    -- All it has is the row of its user, and nobody on the circle waits for that.
    obtain ⟨w, hbefore⟩ := h.before
    obtain ⟨lock, hlock, hheld⟩ := hbefore.waitsFor.wanted
    obtain rfl := List.mem_singleton.mp hheld
    exact absurd (held_eq_nil_of_wanted hlock) hbefore.held_ne_nil
  | _ => exact absurd rfl hwanted

/-- The next application on a circle is by a user whom the user of this one has invited. -/
theorem rewarding_of_stuck (h : Stuck tasks t u) : ∃ inviteeId inviterId inviter nextId next,
    t = .thanking inviteeId inviterId inviter ∧ u = .thanking nextId inviteeId next := by
  obtain ⟨inviteeId, inviterId, inviter, rfl⟩ := exists_thanking_of_stuck h
  obtain ⟨v, hnext⟩ := h.next
  obtain ⟨nextId, nextInviter, next, rfl⟩ := exists_thanking_of_stuck hnext
  obtain ⟨lock, hlock, hheld⟩ := h.waitsFor.wanted
  obtain rfl := Option.some.inj hlock
  obtain rfl : inviteeId = nextInviter := by simpa [ReferralTask.held] using hheld
  exact ⟨inviteeId, inviterId, inviter, nextId, next, rfl, rfl⟩

/-! ## Every run -/

/-- An application whose lock is taken can only be rolled back. -/
theorem eq_over_of_locked {key : RowKey} (hwanted : key ∈ task.wanted) (hlocked : key ∈ s.locks)
    (hact : ReferralAct upcase s task s' task') : task' = .over := by
  cases hact with
  | claim hfree hcount =>
    obtain rfl := Option.some.inj hwanted
    exact absurd hlocked hfree
  | reward clock hfree =>
    obtain rfl := Option.some.inj hwanted
    exact absurd hlocked hfree
  | thank clock hfree =>
    obtain rfl := Option.some.inj hwanted
    exact absurd hlocked hfree
  | rollback => rfl
  | _ => cases hwanted

/-- The lock that an application waits for is given back with those of the one that holds it. -/
theorem not_mem_unlock_of_waitsFor
    (h : WaitsFor ReferralTask.held ReferralTask.wanted tasks t u) {key : RowKey}
    (hkey : key ∈ t.wanted) (s : Shared) : key ∉ (s.unlock u).locks := by
  obtain ⟨lock, hlock, hheld⟩ := h.wanted
  obtain rfl : key = lock := Option.mem_unique hkey hlock
  simp [Shared.unlock, hheld]

/-- When the user of an application has joined. -/
def ReferralTask.joined (joined : UUID → ℕ) : ReferralTask → ℕ
  | thanking inviteeId _ _ => joined inviteeId
  | _ => 0

theorem Sound.unstuck {p : Pool Shared ReferralTask} (h : Sound p) : Unstuck upcase p where
  heldUp task key hwanted hlocked s' task' := eq_over_of_locked hwanted hlocked
  invited t u hstuck := by
    obtain ⟨inviteeId, inviterId, inviter, nextId, next, rfl, rfl⟩ := rewarding_of_stuck hstuck
    have hready : Referable p.shared.db nextId inviteeId := (h.ready _ hstuck.waitsFor.holds).1
    exact ⟨inviteeId, inviterId, inviter, nextId, next, rfl, rfl, hready.1.symm, hready⟩
  recovers t u hstuck key hkey := not_mem_unlock_of_waitsFor hstuck.waitsFor hkey p.shared
  ordered joined hjoined t u := by
    -- Each application waits for that of a user who has joined later.
    have hlater : ∀ t u, Stuck p.tasks t u → t.joined joined < u.joined joined := by
      intro t u hstuck
      obtain ⟨inviteeId, inviterId, inviter, nextId, next, rfl, rfl⟩ := rewarding_of_stuck hstuck
      exact hjoined nextId inviteeId next hstuck.waitsFor.holds
    exact not_onCircle_of_lt hlater
  goesOn hopen := by
    by_contra hnone
    push Not at hnone
    obtain ⟨hcircle, hlocked⟩ := hnone
    have hwaits : ∀ t ∈ p.tasks, t ≠ .over →
        ∃ u, u ≠ .over ∧ WaitsFor ReferralTask.held ReferralTask.wanted p.tasks t u := by
      intro t ht htopen
      obtain ⟨key, hkey, htaken⟩ := hlocked t ht htopen
      obtain ⟨u, hwait⟩ := h.exclusive.exists_waitsFor ht hkey htaken
      obtain ⟨lock, -, hheld⟩ := hwait.wanted
      exact ⟨u, ne_over_of_held hheld, hwait⟩
    obtain ⟨t, u, hstuck⟩ := exists_onCircle hopen hwaits
    exact hcircle t u hstuck

/-- However many users apply codes at once, those whose applications wait in a circle have entered
each other's codes, and otherwise some application goes on. -/
theorem unstuck_of_reachable {p : Pool Shared ReferralTask}
    (h : Pool.Reachable (referrals upcase) ⟨.empty, []⟩ p) : Unstuck upcase p :=
  (sound_of_reachable h).unstuck

/-! ### Two users who enter each other's codes -/

/-- An application, up to where it rewards its user. -/
theorem runs_thanking {inviteeId inviterId : UUID} {loaded : User} {code : String} (clock : Clock)
    (hrow : (inviteeId, loaded) ∈ s.db.users) (hactive : loaded.isActive = true)
    (hchecked : checkReferral upcase s.db inviteeId loaded code = .ok inviterId)
    (hcount : rowcount s.db inviteeId ≠ 0) (huser : .user inviteeId ∉ s.locks)
    (htoken : .token inviterId ∉ s.locks) :
    (referrals upcase).Runs (s, .authenticating inviteeId code)
      ((s.lock (.user inviteeId)).lock (.token inviterId), .thanking inviteeId inviterId
        ((inviterCall inviterId clock).run (s.db.tokens inviterId))) :=
  .step (.authenticate hrow hactive) (.step (.check hchecked) (.step (.claim huser hcount)
    (.last (.reward clock (by simpa [Shared.lock] using htoken)))))

/-- Two users with codes. -/
def twoCodes : Database :=
  { Database.empty with
    users := [(1, member "first@example.com" (some "LOGIT-AB12CD34")),
      (2, member "second@example.com" (some "LOGIT-EF56GH78"))] }

theorem otherRequests_twoCodes : OtherRequests ⟨.empty, []⟩ ⟨twoCodes, []⟩ where
  users := ⟨fun _ user => user, twoCodes.users, fun _ _ => rfl, by decide, rfl⟩
  keyed := by decide
  transactions := ⟨[], fun _ hmem => absurd hmem List.not_mem_nil, rfl⟩
  tokens _ hlocked := absurd hlocked List.not_mem_nil
  locks := rfl

/-- Each enters the other's code, and both applications have rewarded the other: neither can do
more than be rolled back, and then the other goes on. -/
theorem unstuck_of_reachable_mutual : ∃ (p : Pool Shared ReferralTask) (t u : ReferralTask),
    Pool.Reachable (referrals asciiUpcase) ⟨.empty, []⟩ p ∧
      p.shared.locks = [.token 1, .user 2, .token 2, .user 1] ∧ Stuck p.tasks t u ∧
      t.wanted = some (.token 1) ∧ u.wanted = some (.token 2) ∧ Unstuck asciiUpcase p := by
  let clock : Clock := fun _ => .utc 2026 1 10 9
  have hsignedUp : Pool.Reachable (referrals asciiUpcase) ⟨.empty, []⟩ ⟨⟨twoCodes, []⟩, []⟩ :=
    .single (.env [] otherRequests_twoCodes)
  let second := (inviterCall 2 clock).run (twoCodes.tokens 2)
  have hfirst : (referrals asciiUpcase).Runs (⟨twoCodes, []⟩, .authenticating 1 "LOGIT-EF56GH78")
      (⟨twoCodes, [.token 2, .user 1]⟩, .thanking 1 2 second) :=
    runs_thanking clock (.head _) rfl (by decide +kernel) (by decide) (by decide) (by decide)
  let first := (inviterCall 1 clock).run (twoCodes.tokens 1)
  have hsecond : (referrals asciiUpcase).Runs
      (⟨twoCodes, [.token 2, .user 1]⟩, .authenticating 2 "LOGIT-AB12CD34")
      (⟨twoCodes, [.token 1, .user 2, .token 2, .user 1]⟩, .thanking 2 1 first) :=
    runs_thanking clock (.tail _ (.head _)) rfl (by decide +kernel) (by decide) (by decide)
      (by decide)
  have hreach := hsecond.reachable trivial (hfirst.reachable trivial hsignedUp)
  have hforth : WaitsFor ReferralTask.held ReferralTask.wanted
      [.thanking 2 1 first, .thanking 1 2 second] (.thanking 1 2 second) (.thanking 2 1 first) :=
    ⟨.tail _ (.head _), .head _, .token 1, rfl, .head _⟩
  have hback : WaitsFor ReferralTask.held ReferralTask.wanted
      [.thanking 2 1 first, .thanking 1 2 second] (.thanking 2 1 first) (.thanking 1 2 second) :=
    ⟨.head _, .tail _ (.head _), .token 2, rfl, .head _⟩
  exact ⟨_, _, _, hreach, rfl, ⟨hforth, .single hback⟩, rfl, rfl, unstuck_of_reachable hreach⟩

end Logit.Users
