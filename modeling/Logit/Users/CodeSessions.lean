import Logit.Users.ReferralSessions

/-!
# Codes that are handed out

A user's code is made when it is first asked for: a request that has loaded its user without a
code draws codes until one is not in use, and writes it with an update that does not look at
what the row holds by then. Codes of different users are kept apart by the index of the
column. Two first requests of one user may both write, and the code that was answered first
is replaced. As long as codes are written to rows without one, every code that has been
answered stays the user's, and whoever enters it finds the user.

## Main definitions

* `CodeStore`, `CodeTask`, `CodeAct`, `codeRequests` — the requests for codes, statement by
  statement
* `OtherWrites` — what all other requests do to users
* `FindsNone` — a code is written to a row without one
* `EnteredAs` — a code as it may be entered
* `Valid` — a code is the user's, and finds the user

## Main results

* `runs_getReferralStats` — a request that runs alone does what `getReferralStats` does
* `SoundCodes.step` — every statement keeps codes apart and where they are
* `valid_of_reachable` — the codes that have been answered are valid in every later state
-/

namespace Logit.Users

open Concurrency Python

/-! ## Requests -/

/-- A row of a user, or an entry of the index of codes. -/
inductive CodeKey
  | row (userId : UUID)
  | code (code : String)
  deriving DecidableEq, Repr

/-- The committed tables, the locks of open transactions, and the answers so far. -/
structure CodeStore where
  db : Database
  locks : List CodeKey
  replies : List (UUID × ReferralStats)

/-- Where a request for a code stands between two of its statements. -/
inductive CodeTask
  | authenticating (userId : UUID)
  /-- The user has been loaded without a code, and some draws are left. -/
  | drawing (userId : UUID) (left : ℕ)
  /-- A code has been found that is not in use. -/
  | writing (userId : UUID) (code : String)
  /-- The row has been locked. -/
  | indexing (userId : UUID) (code : String)
  /-- The code is known; if it is new, it has been written. -/
  | counting (userId : UUID) (code : String) (isNew : Bool)
  | committing (userId : UUID) (stats : ReferralStats) (isNew : Bool)
  | over

namespace CodeTask

/-- What a request has locked. -/
def held : CodeTask → List CodeKey
  | indexing userId _ => [.row userId]
  | counting userId code true => [.code code, .row userId]
  | committing userId stats true => [.code stats.code, .row userId]
  | _ => []

/-- How a request goes on with the user it has loaded: a code that is not empty is taken, and
otherwise ten draws are made. -/
def loaded (userId : UUID) (user : User) : CodeTask :=
  match user.referralCode.filter (· ≠ "") with
  | some code => counting userId code false
  | none => drawing userId 10

/-- A request that starts. -/
def Starts : CodeTask → Prop
  | authenticating _ => True
  | _ => False

end CodeTask

/-- The tables once a user has been given a code. -/
def Database.withCode (db : Database) (userId : UUID) (code : String) : Database :=
  { db with users := db.users.map fun row =>
    if row.1 = userId then (row.1, { row.2 with referralCode := some code }) else row }

namespace CodeStore

/-- The end of a transaction gives its locks back. -/
def unlock (s : CodeStore) (task : CodeTask) : CodeStore :=
  { s with locks := s.locks.filter (· ∉ task.held) }

def lock (s : CodeStore) (key : CodeKey) : CodeStore := { s with locks := key :: s.locks }

/-- A request is answered once it has been committed. -/
def reply (s : CodeStore) (userId : UUID) (stats : ReferralStats) (isNew : Bool) : CodeStore :=
  { s with
    db := if isNew then s.db.withCode userId stats.code else s.db
    replies := (userId, stats) :: s.replies }

end CodeStore

/-- One statement of a request for a code, or the end of its transaction. -/
inductive CodeAct : CodeStore → CodeTask → CodeStore → CodeTask → Prop
  | authenticate {s : CodeStore} {userId : UUID} {user : User}
      (hrow : (userId, user) ∈ s.db.users) (hactive : user.isActive = true) :
      CodeAct s (.authenticating userId) s (.loaded userId user)
  | draw {s : CodeStore} {userId : UUID} {left : ℕ} (choice : Fin 8 → Fin 36)
      (hunused : usersOfCode s.db (generateCode choice) = []) :
      CodeAct s (.drawing userId (left + 1)) s (.writing userId (generateCode choice))
  /-- The code is another user's. -/
  | redraw {s : CodeStore} {userId : UUID} {left : ℕ} (choice : Fin 8 → Fin 36)
      {owner : UUID × User} (hused : usersOfCode s.db (generateCode choice) = [owner]) :
      CodeAct s (.drawing userId (left + 1)) s (.drawing userId left)
  /-- The update has waited for the lock of the row, whatever the row holds by now. -/
  | update {s : CodeStore} {userId : UUID} {user : User} {code : String}
      (hrow : (userId, user) ∈ s.db.users) (hfree : .row userId ∉ s.locks) :
      CodeAct s (.writing userId code) (s.lock (.row userId)) (.indexing userId code)
  /-- The index takes the code: no other row has it, and no other transaction is writing it. -/
  | index {s : CodeStore} {userId : UUID} {code : String} (hfree : .code code ∉ s.locks)
      (hunique : ∀ row ∈ usersOfCode s.db code, row.1 = userId) :
      CodeAct s (.indexing userId code) (s.lock (.code code)) (.counting userId code true)
  | count {s : CodeStore} {userId : UUID} {code : String} {isNew : Bool} :
      CodeAct s (.counting userId code isNew) s
        (.committing userId ⟨code, (invitedUsers s.db userId).length⟩ isNew)
  | commit {s : CodeStore} {userId : UUID} {stats : ReferralStats} {isNew : Bool} :
      CodeAct s (.committing userId stats isNew)
        ((s.reply userId stats isNew).unlock (.committing userId stats isNew)) .over
  /-- A transaction may be rolled back at any statement: all draws are in use, the index
  refuses the code, two transactions wait for each other, or the connection is lost. -/
  | rollback {s : CodeStore} {task : CodeTask} : CodeAct s task (s.unlock task) .over

/-- Other requests sign users up without a code, change everything of a user but the code, and
write other tables. -/
structure OtherWrites (s s' : CodeStore) : Prop where
  users : ∃ (change : UUID → User → User) (created : List (UUID × User)),
    (∀ userId user, (change userId user).referralCode = user.referralCode) ∧
      (∀ row ∈ created, row.2.referralCode = none) ∧
      s'.db.users = s.db.users.map (fun row => (row.1, change row.1 row.2)) ++ created
  keyed : (s'.db.users.map Prod.fst).Nodup
  locks : s'.locks = s.locks
  replies : s'.replies = s.replies

/-- The requests for codes. -/
def codeRequests : Program CodeStore CodeTask := ⟨OtherWrites, CodeTask.Starts, CodeAct⟩

/-- A code is written to a row without one, if it is written: the update locks the row. -/
def FindsNone (s : CodeStore) : CodeTask → CodeStore → Prop
  | .writing userId _, s' => s' = s.lock (.row userId) →
    ∀ user, (userId, user) ∈ s.db.users → user.referralCode.filter (· ≠ "") = none
  | _, _ => True

/-- The requests for codes where every code is written to a row without one. -/
abbrev orderlyRequests : Program CodeStore CodeTask := codeRequests.restricted FindsNone

/-! ### One request alone -/

variable {db : Database} {userId : UUID} {user : User} {code : String}
  {replies : List (UUID × ReferralStats)}

/-- The draws of a request that is alone end at the first code that is not in use. -/
theorem runs_drawCode {choices : List (Fin 8 → Fin 36)}
    (hcode : drawCode db (choices.map generateCode) = some code) :
    orderlyRequests.Runs (⟨db, [], replies⟩, .drawing userId choices.length)
      (⟨db, [], replies⟩, .writing userId code) ∧ usersOfCode db code = [] := by
  induction choices with
  | nil => cases hcode
  | cons choice choices ih =>
    rw [List.map_cons, drawCode] at hcode
    split at hcode
    · next hunused =>
      cases hcode
      exact ⟨.last ⟨trivial, .draw choice hunused⟩, hunused⟩
    · next hused =>
      obtain ⟨hruns, hunused⟩ := ih hcode
      exact ⟨.step ⟨trivial, .redraw choice hused⟩ hruns, hunused⟩
    · cases hcode

theorem length_invitedUsers_withCode (db : Database) (userId inviterId : UUID) (code : String) :
    (invitedUsers (db.withCode userId code) inviterId).length =
      (invitedUsers db inviterId).length := by
  simp only [invitedUsers, Database.withCode, List.filter_map, List.length_map]
  congr 1
  refine List.filter_congr fun row _ => ?_
  simp only [Function.comp]
  split_ifs <;> rfl

/-- The code of a user and the number of users invited, with a code that is drawn if there is
none. -/
theorem getReferralStats_eq (db : Database) (userId : UUID) (user : User)
    (draws : Fin 10 → Fin 8 → Fin 36) :
    getReferralStats db userId user draws =
      match user.referralCode.filter (· ≠ "") with
      | some code => some (⟨code, (invitedUsers db userId).length⟩, db)
      | none => (drawCode db ((List.ofFn draws).map generateCode)).map fun code =>
          (⟨code, (invitedUsers db userId).length⟩, db.withCode userId code) := by
  unfold getReferralStats getOrCreateReferralCode
  rw [List.map_ofFn]
  cases user.referralCode.filter (· ≠ "") with
  | some code => rfl
  | none =>
    change ((drawCode db (List.ofFn (generateCode ∘ draws)) >>= fun code =>
      some (code, db.withCode userId code)) >>= fun drawn =>
        some ((⟨drawn.1, (invitedUsers drawn.2 userId).length⟩ : ReferralStats), drawn.2)) = _
    cases drawCode db (List.ofFn (generateCode ∘ draws)) with
    | none => rfl
    | some code => simp [length_invitedUsers_withCode]

/-- A code that is not in use is written and answered, once the row is locked. -/
theorem runs_indexing (hunused : usersOfCode db code = []) :
    orderlyRequests.Runs (⟨db, [.row userId], replies⟩, .indexing userId code)
      (⟨db.withCode userId code, [],
        (userId, ⟨code, (invitedUsers db userId).length⟩) :: replies⟩, .over) := by
  let stats : ReferralStats := ⟨code, (invitedUsers db userId).length⟩
  have hcommit : CodeAct ⟨db, [.code code, .row userId], replies⟩ (.committing userId stats true)
      ⟨db.withCode userId code, [], (userId, stats) :: replies⟩ .over := by
    have hcommit := @CodeAct.commit ⟨db, [.code code, .row userId], replies⟩ userId stats true
    simpa [stats, CodeStore.unlock, CodeStore.reply, CodeTask.held] using hcommit
  exact .step ⟨trivial, .index (by simp) (by simp [hunused])⟩
    (.step ⟨trivial, .count⟩ (.last ⟨trivial, hcommit⟩))

/-- A request that runs alone does what `getReferralStats` does. -/
theorem runs_getReferralStats (hkeyed : (db.users.map Prod.fst).Nodup)
    (hrow : (userId, user) ∈ db.users) (hactive : user.isActive = true)
    (draws : Fin 10 → Fin 8 → Fin 36) :
    orderlyRequests.Runs (⟨db, [], replies⟩, .authenticating userId)
      (match getReferralStats db userId user draws with
        | some (stats, after) => ⟨after, [], (userId, stats) :: replies⟩
        | none => ⟨db, [], replies⟩, .over) := by
  refine .step ⟨trivial, .authenticate hrow hactive⟩ ?_
  rw [getReferralStats_eq, CodeTask.loaded]
  cases hcode : user.referralCode.filter (· ≠ "") with
  | some code => exact .step ⟨trivial, .count⟩ (.last ⟨trivial, .commit⟩)
  | none =>
    cases hdrawn : drawCode db ((List.ofFn draws).map generateCode) with
    | none => exact .last ⟨trivial, .rollback⟩
    | some code =>
      obtain ⟨hruns, hunused⟩ := @runs_drawCode db userId code replies _ hdrawn
      rw [List.length_ofFn] at hruns
      have hnone : FindsNone ⟨db, [], replies⟩ (.writing userId code)
          (CodeStore.lock ⟨db, [], replies⟩ (.row userId)) := by
        intro _ other hother
        cases List.inj_on_of_nodup_map hkeyed hother hrow rfl
        exact hcode
      exact (hruns.act ⟨hnone, .update hrow List.not_mem_nil⟩).trans (runs_indexing hunused)

/-! ## What every run keeps -/

/-- A user has a code. -/
def HasCode (db : Database) (userId : UUID) (code : String) : Prop :=
  ∃ user, (userId, user) ∈ db.users ∧ user.referralCode = some code

/-- There is a user, and without a code. -/
def Codeless (db : Database) (userId : UUID) : Prop :=
  (∃ user, (userId, user) ∈ db.users) ∧ ∀ code, ¬ HasCode db userId code

/-- A code as it is drawn. -/
def Drawn (code : String) : Prop := ∃ choice, generateCode choice = code

/-- Codes have been drawn, and no two users have the same. -/
structure Coded (db : Database) : Prop where
  keyed : (db.users.map Prod.fst).Nodup
  drawn : ∀ userId code, HasCode db userId code → Drawn code
  unique : ∀ userId other code, HasCode db userId code → HasCode db other code → userId = other

namespace CodeTask

/-- A code is the user's, or if it is new nobody's, and the user has none. -/
def Known (db : Database) (userId : UUID) (code : String) : Bool → Prop
  | false => HasCode db userId code
  | true => Drawn code ∧ Codeless db userId ∧ ∀ other, ¬ HasCode db other code

/-- What a request has made sure of. -/
def Ready (db : Database) : CodeTask → Prop
  | writing _ code => Drawn code
  | indexing userId code => Drawn code ∧ Codeless db userId
  | counting userId code isNew => Known db userId code isNew
  | committing userId stats isNew => Known db userId stats.code isNew
  | _ => True

end CodeTask

/-- Codes are apart, nothing is locked twice, every request is where it says, and the codes
that have been answered are where they were. -/
structure SoundCodes (p : Pool CodeStore CodeTask) : Prop where
  coded : Coded p.shared.db
  exclusive : Exclusive CodeTask.held p.shared.locks p.tasks
  ready : ∀ task ∈ p.tasks, task.Ready p.shared.db
  replied : ∀ reply ∈ p.shared.replies, HasCode p.shared.db reply.1 reply.2.code

variable {db' : Database} {s s' : CodeStore} {task task' : CodeTask}

/-! ### Users and codes -/

theorem mem_usersOfCode {row : UUID × User} :
    row ∈ usersOfCode db code ↔ row ∈ db.users ∧ row.2.referralCode = some code := by
  simp [usersOfCode]

theorem Drawn.ne_empty (h : Drawn code) : code ≠ "" := by
  obtain ⟨choice, rfl⟩ := h
  intro hempty
  have hlength := congrArg (fun text : String => text.toList.length) hempty
  simp [generateCode] at hlength

theorem mem_withCode {other : UUID} :
    (other, user) ∈ (db.withCode userId code).users ↔ ∃ before, (other, before) ∈ db.users ∧
      user = if other = userId then { before with referralCode := some code } else before := by
  unfold Database.withCode
  rw [List.mem_map]
  constructor
  · rintro ⟨⟨id, before⟩, hmem, heq⟩
    split_ifs at heq with hself
    · cases heq
      exact ⟨before, hmem, (if_pos hself).symm⟩
    · cases heq
      exact ⟨user, hmem, (if_neg hself).symm⟩
  · rintro ⟨before, hmem, rfl⟩
    refine ⟨_, hmem, ?_⟩
    split_ifs <;> rfl

theorem exists_withCode {other : UUID} :
    (∃ user, (other, user) ∈ (db.withCode userId code).users) ↔
      ∃ user, (other, user) ∈ db.users := by
  constructor
  · rintro ⟨user, hmem⟩
    obtain ⟨before, hbefore, -⟩ := mem_withCode.mp hmem
    exact ⟨before, hbefore⟩
  · rintro ⟨before, hbefore⟩
    exact ⟨_, mem_withCode.mpr ⟨before, hbefore, rfl⟩⟩

/-- One user gets a code, whatever it has been before, and nobody else does. -/
theorem hasCode_withCode {other : UUID} {code' : String} :
    HasCode (db.withCode userId code) other code' ↔
      if other = userId then code' = code ∧ ∃ user, (userId, user) ∈ db.users
      else HasCode db other code' := by
  unfold HasCode
  simp only [mem_withCode]
  split_ifs with hself
  · subst hself
    constructor
    · rintro ⟨_, ⟨before, hbefore, rfl⟩, hcode⟩
      exact ⟨(Option.some.inj hcode).symm, before, hbefore⟩
    · rintro ⟨rfl, before, hbefore⟩
      exact ⟨_, ⟨before, hbefore, rfl⟩, rfl⟩
  · constructor
    · rintro ⟨user, ⟨before, hbefore, heq⟩, hcode⟩
      exact ⟨user, heq ▸ hbefore, hcode⟩
    · rintro ⟨before, hbefore, hcode⟩
      exact ⟨before, ⟨before, hbefore, rfl⟩, hcode⟩

theorem OtherWrites.hasCode (h : OtherWrites s s') :
    HasCode s'.db userId code ↔ HasCode s.db userId code := by
  obtain ⟨change, created, hchange, hcreated, husers⟩ := h.users
  unfold HasCode
  rw [husers]
  constructor
  · rintro ⟨user, hmem, hcode⟩
    rcases List.mem_append.mp hmem with hmem | hmem
    · obtain ⟨⟨id, before⟩, hbefore, heq⟩ := List.mem_map.mp hmem
      cases heq
      exact ⟨before, hbefore, (hchange id before).symm.trans hcode⟩
    · -- A user who has just signed up has no code.
      rw [hcreated _ hmem] at hcode
      cases hcode
  · rintro ⟨before, hbefore, hcode⟩
    exact ⟨change userId before, List.mem_append_left _ (List.mem_map.mpr ⟨_, hbefore, rfl⟩),
      (hchange userId before).trans hcode⟩

theorem OtherWrites.exists_row (h : OtherWrites s s')
    (hrow : ∃ user, (userId, user) ∈ s.db.users) : ∃ user, (userId, user) ∈ s'.db.users := by
  obtain ⟨change, created, -, -, husers⟩ := h.users
  obtain ⟨user, hrow⟩ := hrow
  refine ⟨change userId user, ?_⟩
  rw [husers]
  exact List.mem_append_left _ (List.mem_map.mpr ⟨_, hrow, rfl⟩)

theorem OtherWrites.coded (h : OtherWrites s s') (hcoded : Coded s.db) : Coded s'.db where
  keyed := h.keyed
  drawn userId code hcode := hcoded.drawn userId code (h.hasCode.mp hcode)
  unique userId other code hcode hother :=
    hcoded.unique userId other code (h.hasCode.mp hcode) (h.hasCode.mp hother)

/-- A new code of a user without one keeps codes apart. -/
theorem Coded.withCode (h : Coded db) (hdrawn : Drawn code)
    (hunused : ∀ other, ¬ HasCode db other code) : Coded (db.withCode userId code) where
  keyed := by
    have hsame : (db.withCode userId code).users.map Prod.fst = db.users.map Prod.fst := by
      rw [Database.withCode, List.map_map]
      refine List.map_congr_left fun row _ => ?_
      simp only [Function.comp]
      split_ifs <;> rfl
    rw [hsame]
    exact h.keyed
  drawn other code' hcode := by
    rw [hasCode_withCode] at hcode
    split_ifs at hcode with hself
    · exact hcode.1 ▸ hdrawn
    · exact h.drawn other code' hcode
  unique first second code' hfirst hsecond := by
    rw [hasCode_withCode] at hfirst hsecond
    split_ifs at hfirst hsecond with hself hself' hself'
    · exact hself.trans hself'.symm
    · exact absurd (hfirst.1 ▸ hsecond) (hunused second)
    · exact absurd (hsecond.1 ▸ hfirst) (hunused first)
    · exact h.unique first second code' hfirst hsecond

/-- A request is where it says as long as codes stay, and what it has locked does. -/
theorem CodeTask.Ready.frame (h : task.Ready db)
    (hkeep : ∀ userId code, HasCode db userId code → HasCode db' userId code)
    (hrow : ∀ userId, .row userId ∈ task.held → Codeless db userId → Codeless db' userId)
    (hcode : ∀ code, .code code ∈ task.held → (∀ other, ¬ HasCode db other code) →
      ∀ other, ¬ HasCode db' other code) : task.Ready db' := by
  have hknown : ∀ userId code isNew,
      (isNew = true → .row userId ∈ task.held ∧ .code code ∈ task.held) →
        Known db userId code isNew → Known db' userId code isNew := by
    intro userId code isNew hheld hknown
    cases isNew with
    | false => exact hkeep userId code hknown
    | true =>
      obtain ⟨hdrawn, hcodeless, hunused⟩ := hknown
      exact ⟨hdrawn, hrow userId (hheld rfl).1 hcodeless, hcode code (hheld rfl).2 hunused⟩
  cases task with
  | writing => exact h
  | indexing userId code => exact ⟨h.1, hrow userId (by simp [held]) h.2⟩
  | counting userId code isNew =>
    refine hknown userId code isNew ?_ h
    rintro rfl
    simp [held]
  | committing userId stats isNew =>
    refine hknown userId stats.code isNew ?_ h
    rintro rfl
    simp [held]
  | _ => trivial

/-- A new code of a user without one replaces none. -/
theorem hasCode_withCode_of_codeless {other : UUID} {code' : String}
    (hcodeless : Codeless db userId) (hcode : HasCode db other code') :
    HasCode (db.withCode userId code) other code' := by
  rw [hasCode_withCode, if_neg]
  · exact hcode
  · rintro rfl
    exact hcodeless.2 code' hcode

/-- A new code leaves the requests where they are that have locked neither its user's row nor
the code. -/
theorem CodeTask.Ready.withCode (h : task.Ready db) (hcodeless : Codeless db userId)
    (hrow : .row userId ∉ task.held) (hcode : .code code ∉ task.held) :
    task.Ready (db.withCode userId code) := by
  refine h.frame (fun other code' => hasCode_withCode_of_codeless hcodeless) ?_ ?_
  · intro other hheld hnone
    have hne : other ≠ userId := by
      rintro rfl
      exact hrow hheld
    refine ⟨exists_withCode.mpr hnone.1, fun code' hwritten => ?_⟩
    have hbefore := hasCode_withCode.mp hwritten
    rw [if_neg hne] at hbefore
    exact hnone.2 code' hbefore
  · intro code' hheld hfree other hwritten
    have hne : code' ≠ code := by
      rintro rfl
      exact hcode hheld
    have hbefore := hasCode_withCode.mp hwritten
    split_ifs at hbefore with hself
    · exact hne hbefore.1
    · exact hfree other hbefore

/-! ### One statement -/

theorem CodeTask.held_loaded (userId : UUID) (user : User) : (loaded userId user).held = [] := by
  unfold loaded
  split <;> rfl

/-- A user who is loaded with a code has it. -/
theorem CodeTask.ready_loaded (hrow : (userId, user) ∈ db.users) :
    (loaded userId user).Ready db := by
  unfold loaded
  split
  · next code hcode => exact ⟨user, hrow, (Option.filter_eq_some_iff.mp hcode).1⟩
  · trivial

theorem SoundCodes.act {before after : List CodeTask} (h : SoundCodes ⟨s, before ++ task :: after⟩)
    (hguard : FindsNone s task s') (hact : CodeAct s task s' task') :
    SoundCodes ⟨s', before ++ task' :: after⟩ := by
  obtain ⟨hcoded, hexclusive, hready, hreplied⟩ := h
  have hthis : task.Ready s.db := hready task (by simp)
  have hstay (hnext : task'.Ready s.db) : ∀ other ∈ before ++ task' :: after, other.Ready s.db :=
    forall_mem_middle hready (fun _ _ hother => hother) fun _ => hnext
  cases hact with
  | authenticate hrow hactive =>
    exact ⟨hcoded, hexclusive.keep (CodeTask.held_loaded ..), hstay (CodeTask.ready_loaded hrow),
      hreplied⟩
  | draw choice hunused => exact ⟨hcoded, hexclusive.keep rfl, hstay ⟨choice, rfl⟩, hreplied⟩
  | redraw choice hused => exact ⟨hcoded, hexclusive.keep rfl, hstay trivial, hreplied⟩
  | update hrow hfree =>
    refine ⟨hcoded, hexclusive.acquire hfree rfl, hstay ⟨hthis, ⟨_, hrow⟩, ?_⟩, hreplied⟩
    rintro code ⟨user, hmem, hcode⟩
    have hnone := hguard rfl user hmem
    rw [hcode, Option.filter_some] at hnone
    split_ifs at hnone with hne
    exact (hcoded.drawn _ code ⟨user, hmem, hcode⟩).ne_empty (by simpa using hne)
  | index hfree hunique =>
    obtain ⟨hdrawn, hcodeless⟩ := hthis
    refine ⟨hcoded, hexclusive.acquire hfree rfl, hstay ⟨hdrawn, hcodeless, ?_⟩, hreplied⟩
    rintro other ⟨user, hmem, hcode⟩
    obtain rfl := hunique _ (mem_usersOfCode.mpr ⟨hmem, hcode⟩)
    exact hcodeless.2 _ ⟨user, hmem, hcode⟩
  | @count _ _ isNew =>
    exact ⟨hcoded, hexclusive.keep (by cases isNew <;> rfl), hstay hthis, hreplied⟩
  | @commit userId stats isNew =>
    cases isNew with
    | false =>
      exact ⟨hcoded, hexclusive.release rfl, hstay trivial,
        List.forall_mem_cons.mpr ⟨hthis, hreplied⟩⟩
    | true =>
      obtain ⟨hdrawn, hcodeless, hunused⟩ := hthis
      have hothers : ∀ other ∈ before ++ after, other.Ready s.db →
          other.Ready (s.db.withCode userId stats.code) := fun other hmem hother =>
        hother.withCode hcodeless (hexclusive.not_mem_held (by simp [CodeTask.held]) hmem)
          (hexclusive.not_mem_held (by simp [CodeTask.held]) hmem)
      refine ⟨hcoded.withCode hdrawn hunused, hexclusive.release rfl,
        forall_mem_middle hready hothers fun _ => trivial,
        List.forall_mem_cons.mpr ⟨hasCode_withCode.mpr (by simp [hcodeless.1]), ?_⟩⟩
      exact fun reply hreply => hasCode_withCode_of_codeless hcodeless (hreplied reply hreply)
  | rollback => exact ⟨hcoded, hexclusive.release rfl, hstay trivial, hreplied⟩

theorem SoundCodes.step {p q : Pool CodeStore CodeTask} (h : SoundCodes p)
    (hstep : Pool.Step orderlyRequests p q) : SoundCodes q := by
  cases hstep with
  | env ts hothers =>
    obtain ⟨hcoded, hexclusive, hready, hreplied⟩ := h
    refine ⟨hothers.coded hcoded, ?_, fun task hmem => (hready task hmem).frame ?_ ?_ ?_, ?_⟩
    · rw [hothers.locks]
      exact hexclusive
    · exact fun userId code hcode => hothers.hasCode.mpr hcode
    · exact fun userId _ hcodeless => ⟨hothers.exists_row hcodeless.1,
        fun code hcode => hcodeless.2 code (hothers.hasCode.mp hcode)⟩
    · exact fun code _ hunused other hcode => hunused other (hothers.hasCode.mp hcode)
    · rw [hothers.replies]
      exact fun reply hreply => hothers.hasCode.mpr (hreplied reply hreply)
  | @start task s ts hstart =>
    obtain ⟨hcoded, hexclusive, hready, hreplied⟩ := h
    cases task with
    | authenticating userId =>
      exact ⟨hcoded, hexclusive.start rfl, List.forall_mem_cons.mpr ⟨trivial, hready⟩, hreplied⟩
    | _ => exact hstart.elim
  | act before after hact => exact h.act hact.1 hact.2

theorem soundCodes_of_reachable {p : Pool CodeStore CodeTask}
    (h : Pool.Reachable orderlyRequests ⟨.empty, [], []⟩ p) : SoundCodes p := by
  -- By induction on the run, from tables without users.
  induction h with
  | refl =>
    refine ⟨⟨.nil, ?_, ?_⟩, .nil _, fun _ hmem => absurd hmem List.not_mem_nil,
      fun _ hmem => absurd hmem List.not_mem_nil⟩
    · rintro userId code ⟨user, hmem, -⟩
      cases hmem
    · rintro userId other code ⟨user, hmem, -⟩
      cases hmem
  | tail hrun hstep ih => exact ih.step hstep

/-! ## Codes that are entered -/

/-- A text that is a code in any letter case, with any white space around it. -/
def EnteredAs (code text : String) : Prop :=
  ∃ before letters after : List Char, text = String.ofList (before ++ (letters ++ after)) ∧
    (∀ c ∈ before ++ after, isSpace c = true) ∧ letters.map Char.toUpper = code.toList

/-- The upper cases of ASCII and of white space, as Unicode has them. -/
structure Upcases (upcase : Char → List Char) : Prop where
  ascii : ∀ c, c.toNat < 128 → upcase c = [c.toUpper]
  space : ∀ c, isSpace c = true → upcase c = [c]

/-- A code is the user's, and whoever enters it finds the user. -/
structure Valid (upcase : Char → List Char) (db : Database) (userId : UUID) (code : String) :
    Prop where
  hasCode : HasCode db userId code
  found : ∀ text, EnteredAs code text → ∀ inviteeId loaded,
    ¬ loaded.referredByUserId.any (· ≠ "") → checkReferral upcase db inviteeId loaded text =
      if userId = inviteeId then .error (.refused .selfReferral) else .ok userId

variable {upcase : Char → List Char}

theorem toNat_lt_of_toUpper {c : Char} (h : c.toUpper.toNat < 128) : c.toNat < 128 := by
  unfold Char.toUpper at h
  split_ifs at h with hlower
  · exact (UInt32.le_iff_toNat_le.mp hlower.2).trans_lt (by decide)
  · exact h

theorem toNat_lt_of_mem_generateCode (choice : Fin 8 → Fin 36) :
    ∀ c ∈ (generateCode choice).toList, c.toNat < 128 := by
  have hascii : (('-' :: CODE_CHARS).all fun c => c.toNat < 128) = true := by decide
  exact fun c hc =>
    of_decide_eq_true (List.all_eq_true.mp hascii c (mem_generateCode choice c hc))

/-- A code that is entered is looked up as it was drawn. -/
theorem strip_upper_enteredAs (hupcases : Upcases upcase) (hdrawn : Drawn code) {text : String}
    (hentered : EnteredAs code text) : strip (upper upcase text) = code := by
  obtain ⟨before, letters, after, rfl, hspace, hletters⟩ := hentered
  obtain ⟨hbefore, hafter⟩ := List.forall_mem_append.mp hspace
  obtain ⟨choice, rfl⟩ := hdrawn
  have hspaces : ∀ cs : List Char, (∀ c ∈ cs, isSpace c = true) → cs.flatMap upcase = cs := by
    intro cs hcs
    rw [List.flatMap_congr fun c hc => hupcases.space c (hcs c hc), List.flatMap_singleton']
  -- What becomes a character of a code is ASCII.
  have hascii : ∀ c ∈ letters, c.toNat < 128 := by
    intro c hc
    have hchar : c.toUpper ∈ (generateCode choice).toList := hletters ▸ List.mem_map_of_mem hc
    exact toNat_lt_of_toUpper (toNat_lt_of_mem_generateCode choice _ hchar)
  have hupper : letters.flatMap upcase = (generateCode choice).toList := by
    rw [List.flatMap_congr fun c hc => hupcases.ascii c (hascii c hc), ← hletters]
    exact (List.map_eq_flatMap ..).symm
  rw [upper, String.toList_ofList, List.flatMap_append, List.flatMap_append, hspaces before hbefore,
    hspaces after hafter, hupper, strip_append hbefore hafter (isSpace_of_mem_generateCode choice)
      (by simp [generateCode]), String.ofList_toList]

theorem usersOfCode_eq (h : Coded db) (hrow : (userId, user) ∈ db.users)
    (hcode : user.referralCode = some code) : usersOfCode db code = [(userId, user)] := by
  have hmem : (userId, user) ∈ usersOfCode db code := mem_usersOfCode.mpr ⟨hrow, hcode⟩
  have hnodup : (usersOfCode db code).Nodup := (h.keyed.of_map Prod.fst).filter _
  have hsame : ∀ row ∈ usersOfCode db code, row = (userId, user) := by
    rintro ⟨other, owner⟩ howner
    obtain ⟨hother, hsame⟩ := mem_usersOfCode.mp howner
    obtain rfl := h.unique other userId code ⟨owner, hother, hsame⟩ ⟨user, hrow, hcode⟩
    exact List.inj_on_of_nodup_map h.keyed hother hrow rfl
  rcases hrows : usersOfCode db code with _ | ⟨row, _ | ⟨other, rows⟩⟩
  · rw [hrows] at hmem
    cases hmem
  · rw [hsame row (by simp [hrows])]
  · rw [hrows] at hnodup hsame
    have hfirst := hsame row (by simp)
    have hsecond := hsame other (by simp)
    simp [hfirst, hsecond] at hnodup

theorem valid_of_coded (hupcases : Upcases upcase) (h : Coded db) (hcode : HasCode db userId code) :
    Valid upcase db userId code := by
  refine ⟨hcode, fun text hentered inviteeId loaded hreferred => ?_⟩
  rw [checkReferral, strip_upper_enteredAs hupcases (h.drawn userId code hcode) hentered]
  obtain ⟨user, hrow, hcode⟩ := hcode
  rw [usersOfCode_eq h hrow hcode, if_neg hreferred]

/-- However many users ask for their codes at once, and other requests are made: as long as
codes are written to rows without one, the codes that have been answered stay valid. -/
theorem valid_of_reachable (hupcases : Upcases upcase) {p : Pool CodeStore CodeTask}
    (h : Pool.Reachable orderlyRequests ⟨.empty, [], []⟩ p) :
    ∀ reply ∈ p.shared.replies, Valid upcase p.shared.db reply.1 reply.2.code := by
  have hsound := soundCodes_of_reachable h
  exact fun reply hreply => valid_of_coded hupcases hsound.coded (hsound.replied reply hreply)

/-! ### First requests -/

theorem upcases_asciiUpcase : Upcases asciiUpcase where
  ascii _ _ := rfl
  space c hspace := by
    have hlower : ¬ (c.val ≥ 'a'.val ∧ c.val ≤ 'z'.val) := by
      simp only [isSpace, Bool.or_eq_true, Bool.and_eq_true, decide_eq_true_eq, beq_iff_eq,
        Char.toNat] at hspace
      rw [ge_iff_le, UInt32.le_iff_toNat_le, UInt32.le_iff_toNat_le]
      have ha : 'a'.val.toNat = 97 := rfl
      have hz : 'z'.val.toNat = 122 := rfl
      omega
    have hsame : c.toUpper = c := dif_neg hlower
    rw [asciiUpcase, hsame]

/-- A user who has just signed up. -/
def newMember : Database :=
  { Database.empty with users := [(2, member "invitee@example.com" none)] }

theorem otherWrites_newMember : OtherWrites ⟨.empty, [], []⟩ ⟨newMember, [], []⟩ where
  users := ⟨fun _ user => user, newMember.users, fun _ _ => rfl, by decide, rfl⟩
  keyed := by decide
  locks := rfl
  replies := rfl

theorem reachable_newMember :
    Pool.Reachable orderlyRequests ⟨.empty, [], []⟩ ⟨⟨newMember, [], []⟩, []⟩ :=
  .single (.env [] otherWrites_newMember)

/-- The user asks for a code for the first time. -/
theorem runs_newMember :
    orderlyRequests.Runs (⟨newMember, [], []⟩, .authenticating 2)
      (⟨newMember.withCode 2 "LOGIT-AAAAAAAA", [], [(2, ⟨"LOGIT-AAAAAAAA", 0⟩)]⟩, .over) := by
  have hcode : drawCode newMember ((List.ofFn fun _ : Fin 10 => fun _ => 0).map generateCode) =
      some "LOGIT-AAAAAAAA" := by decide +kernel
  have hruns := @runs_getReferralStats newMember 2 _ [] (by decide) List.mem_cons_self rfl
    fun _ _ => 0
  rw [getReferralStats_eq] at hruns
  simp only [member, Option.filter_none, hcode, Option.map_some] at hruns
  exact hruns

/-- A request loads the user without a code and is about to write one when another is answered,
and ends there; a third is answered the same code. -/
theorem valid_of_reachable_again : ∃ p,
    Pool.Reachable orderlyRequests ⟨.empty, [], []⟩ p ∧
      p.shared.replies = [(2, ⟨"LOGIT-AAAAAAAA", 0⟩), (2, ⟨"LOGIT-AAAAAAAA", 0⟩)] ∧
      Valid asciiUpcase p.shared.db 2 "LOGIT-AAAAAAAA" := by
  have hunused : usersOfCode newMember "LOGIT-BBBBBBBB" = [] := by decide +kernel
  have hwriting : orderlyRequests.Runs (⟨newMember, [], []⟩, .authenticating 2)
      (⟨newMember, [], []⟩, .writing 2 "LOGIT-BBBBBBBB") :=
    .step ⟨trivial, .authenticate List.mem_cons_self rfl⟩
      (.last ⟨trivial, .draw (fun _ => 1) hunused⟩)
  have hanswered :=
    runs_newMember.reachable trivial (hwriting.reachable trivial reachable_newMember)
  have hrollback : orderlyRequests.Runs
      (⟨newMember.withCode 2 "LOGIT-AAAAAAAA", [], [(2, ⟨"LOGIT-AAAAAAAA", 0⟩)]⟩,
        .writing 2 "LOGIT-BBBBBBBB")
      (⟨newMember.withCode 2 "LOGIT-AAAAAAAA", [], [(2, ⟨"LOGIT-AAAAAAAA", 0⟩)]⟩, .over) :=
    .last ⟨nofun, .rollback⟩
  have hrolledBack := hrollback.reachable_middle [.over] [] hanswered
  have hagain : orderlyRequests.Runs
      (⟨newMember.withCode 2 "LOGIT-AAAAAAAA", [], [(2, ⟨"LOGIT-AAAAAAAA", 0⟩)]⟩,
        .authenticating 2) _ :=
    .step ⟨trivial, .authenticate List.mem_cons_self rfl⟩ (.step ⟨trivial, .count⟩
      (.last ⟨trivial, .commit⟩))
  have hreach := hagain.reachable trivial hrolledBack
  exact ⟨_, hreach, rfl, valid_of_reachable upcases_asciiUpcase hreach (2, ⟨"LOGIT-AAAAAAAA", 0⟩)
    List.mem_cons_self⟩

/-- The user asks for a code twice at the same time: both requests load the user without a code,
and the code that is answered first is replaced by the other. -/
theorem not_valid :
    ¬ ∀ (upcase : Char → List Char) (p : Pool CodeStore CodeTask), Upcases upcase →
      Pool.Reachable codeRequests ⟨.empty, [], []⟩ p →
        ∀ reply ∈ p.shared.replies, Valid upcase p.shared.db reply.1 reply.2.code := by
  intro h
  have hrow : (2, member "invitee@example.com" none) ∈ newMember.users := List.mem_cons_self
  have hload : CodeAct ⟨newMember, [], []⟩ (.authenticating 2) ⟨newMember, [], []⟩
      (.loaded 2 (member "invitee@example.com" none)) := .authenticate hrow rfl
  have hloaded : Pool.Reachable codeRequests ⟨.empty, [], []⟩
      ⟨⟨newMember, [], []⟩, [.drawing 2 10]⟩ :=
    Program.Runs.reachable (.last hload) trivial reachable_newMember.of_restricted
  have hanswered := runs_newMember.of_restricted.reachable trivial hloaded
  obtain ⟨user, hrow⟩ := exists_withCode.mpr ⟨_, hrow⟩
  have hunused : usersOfCode (newMember.withCode 2 "LOGIT-AAAAAAAA") "LOGIT-BBBBBBBB" = [] := by
    decide +kernel
  have hdraw : codeRequests.Runs
      (⟨newMember.withCode 2 "LOGIT-AAAAAAAA", [], [(2, ⟨"LOGIT-AAAAAAAA", 0⟩)]⟩, .drawing 2 10)
      (_, .writing 2 "LOGIT-BBBBBBBB") := .last (CodeAct.draw (fun _ => 1) hunused)
  have hwrite := hdraw.act (.update hrow List.not_mem_nil)
  have hreplaced := Program.Runs.reachable_middle
    (hwrite.trans (runs_indexing hunused).of_restricted) [.over] [] hanswered
  have hvalid := h asciiUpcase _ upcases_asciiUpcase hreplaced (2, ⟨"LOGIT-AAAAAAAA", 0⟩)
    (List.mem_cons_of_mem _ List.mem_cons_self)
  have hcode := hasCode_withCode.mp hvalid.hasCode
  exact absurd hcode.1 (by decide)

end Logit.Users
