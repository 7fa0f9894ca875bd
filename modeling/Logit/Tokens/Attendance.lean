import Logit.Concurrency.Pool
import Logit.Tokens.Ledger

/-!
# Attendance

A user who checks in is granted a few tokens once a day, as long as the pool of the
event lasts. The rest of the pool is a counter in Redis. Whoever finds the counter
missing sets it to what the committed attendance transactions have left of the pool;
this takes a read of the counter, a sum over the database and a write of the counter,
with any number of other actions in between.

A check-in is a task over the shared state of Redis and the database, and each of its
Redis commands and database statements is one action. The task goes on until the
request's transaction commits or rolls back.

## Main definitions

* `Shared` — the keys in Redis, and the committed transactions
* `CheckIn` — a check-in, by the command it runs next
* `redisStep` — the Redis commands and the sum over the database
* `Command` — what a command does, and the command that follows it
* `checkIn` — all actions of check-ins
* `NeverRaises` — a check-in does not set the counter above its present value

## Main results

* `attendance_le_total` — as long as no check-in raises the counter, the committed
  attendance transactions stay within the pool
* `race_overspends` — two check-ins that find the counter missing can exceed it
-/

namespace Logit.Tokens

open Calendar Concurrency Python

/-- What the attendance transactions among transactions have granted. -/
def attendanceSum (txs : List TokenTransaction) : ℤ :=
  ledgerSum (txs.filter fun tx => tx.type = .attendance)

@[simp] theorem attendanceSum_nil : attendanceSum [] = 0 := rfl

@[simp] theorem attendanceSum_append (txs more : List TokenTransaction) :
    attendanceSum (txs ++ more) = attendanceSum txs + attendanceSum more := by
  simp [attendanceSum]

/-! ## The program -/

/-- The shared state: Redis, and the database as far as attendance goes. -/
structure Shared where
  /-- `attendance:pool_remaining`. -/
  pool : Option ℤ
  /-- `attendance:event_ended` exists. -/
  ended : Bool
  /-- The keys `attendance:{user_id}:{today}` that exist. -/
  dayKeys : UUID × Date → Bool
  /-- The rows of `attendance_logs`, committed or of open transactions; their index
  lets no two have the same user and date. -/
  logs : List AttendanceLog
  /-- The committed transactions. -/
  transactions : List TokenTransaction

/-- The command a check-in runs next. -/
inductive Pc
  /-- `EXISTS attendance:event_ended`. -/
  | checkEnded
  /-- `SET NX` of the day's key. -/
  | acquire
  /-- `GET` of the counter. -/
  | getPool
  /-- `SELECT SUM` over the attendance transactions. -/
  | sumDistributed
  /-- `SET` of the counter. -/
  | setPool (remaining : ℤ)
  /-- `SET attendance:event_ended`, where a new counter is too small. -/
  | setEnded
  /-- `DECRBY` of the counter. -/
  | decrement
  /-- `INCRBY` of the counter, which had been too small. -/
  | giveBack
  /-- `SET attendance:event_ended`, after that. -/
  | markEnded
  /-- `DEL` of the day's key, after that. -/
  | release
  /-- The attendance row and the credit. -/
  | record
  /-- `INCRBY` of the counter, after an exception in the database. -/
  | undo
  /-- `DEL` of the day's key, after that. -/
  | undoRelease
  | returned (success : Bool) (message : String)
  | raised
  /-- The request's transaction is over. -/
  | finished
  deriving DecidableEq, Repr

/-- A check-in of a user on a date, within a transaction. -/
structure CheckIn where
  userId : UUID
  today : Date
  pc : Pc
  /-- The transactions the open database transaction has written. -/
  pending : List TokenTransaction
  /-- The attendance row it has written. -/
  pendingLog : Option AttendanceLog

variable {s s' : Shared} {t t' : CheckIn}

/-- The check-in goes on to another command. -/
def CheckIn.goto (t : CheckIn) (pc : Pc) : CheckIn := { t with pc }

/-- The database transaction is over. -/
def CheckIn.close (t : CheckIn) (pc : Pc) : CheckIn :=
  { t with pc, pending := [], pendingLog := none }

/-- The shared state with a day's key set or deleted. -/
def Shared.setDayKey (s : Shared) (t : CheckIn) (present : Bool) : Shared :=
  { s with dayKeys := Function.update s.dayKeys (t.userId, t.today) present }

/-- A Redis command of a check-in, or its sum over the database; `none` where the check-in
runs none. -/
def redisStep (s : Shared) (t : CheckIn) : Option (Shared × CheckIn) :=
  match t.pc with
  | .checkEnded =>
    if s.ended then some (s, t.goto (.returned false "event_ended"))
    else some (s, t.goto .acquire)
  | .acquire =>
    if s.dayKeys (t.userId, t.today) then
      some (s, t.goto (.returned false "already_checked_in"))
    else some (s.setDayKey t true, t.goto .getPool)
  | .getPool =>
    match s.pool with
    | some _ => some (s, t.goto .decrement)
    | none => some (s, t.goto .sumDistributed)
  -- The sum reads committed rows only, and the value is kept until the counter is set.
  | .sumDistributed =>
    some (s, t.goto (.setPool
      (max 0 (ATTENDANCE_EVENT_TOTAL_POOL - attendanceSum s.transactions))))
  | .setPool remaining =>
    some ({ s with pool := some remaining },
      -- The check-in that ends the event still goes on to decrement.
      t.goto (if remaining < ATTENDANCE_TOKENS then .setEnded else .decrement))
  | .setEnded => some ({ s with ended := true }, t.goto .decrement)
  | .decrement =>
    -- A missing counter is decremented from zero.
    let newRemaining := s.pool.getD 0 - ATTENDANCE_TOKENS
    some ({ s with pool := some newRemaining },
      t.goto (if newRemaining < 0 then .giveBack else .record))
  | .giveBack =>
    some ({ s with pool := some (s.pool.getD 0 + ATTENDANCE_TOKENS) }, t.goto .markEnded)
  | .markEnded => some ({ s with ended := true }, t.goto .release)
  | .release => some (s.setDayKey t false, t.goto (.returned false "event_ended"))
  | .undo =>
    some ({ s with pool := some (s.pool.getD 0 + ATTENDANCE_TOKENS) }, t.goto .undoRelease)
  | .undoRelease => some (s.setDayKey t false, t.goto .raised)
  | .record | .returned .. | .raised | .finished => none

section Commands

theorem redisStep_sumDistributed (h : t.pc = .sumDistributed) : redisStep s t =
    some (s, t.goto (.setPool
      (max 0 (ATTENDANCE_EVENT_TOTAL_POOL - attendanceSum s.transactions)))) := by
  rw [redisStep, h]

theorem redisStep_setPool {remaining : ℤ} (h : t.pc = .setPool remaining) : redisStep s t =
    some ({ s with pool := some remaining },
      t.goto (if remaining < ATTENDANCE_TOKENS then .setEnded else .decrement)) := by
  rw [redisStep, h]

theorem redisStep_setEnded (h : t.pc = .setEnded) :
    redisStep s t = some ({ s with ended := true }, t.goto .decrement) := by
  rw [redisStep, h]

theorem redisStep_decrement (h : t.pc = .decrement) : redisStep s t =
    some ({ s with pool := some (s.pool.getD 0 - ATTENDANCE_TOKENS) },
      t.goto (if s.pool.getD 0 - ATTENDANCE_TOKENS < 0 then .giveBack else .record)) := by
  rw [redisStep, h]

theorem redisStep_giveBack (h : t.pc = .giveBack) : redisStep s t =
    some ({ s with pool := some (s.pool.getD 0 + ATTENDANCE_TOKENS) }, t.goto .markEnded) := by
  rw [redisStep, h]

theorem redisStep_markEnded (h : t.pc = .markEnded) :
    redisStep s t = some ({ s with ended := true }, t.goto .release) := by
  rw [redisStep, h]

theorem redisStep_release (h : t.pc = .release) :
    redisStep s t = some (s.setDayKey t false, t.goto (.returned false "event_ended")) := by
  rw [redisStep, h]

end Commands

/-- What a command of a check-in does to the shared state, and the command it goes on to. -/
inductive Command (s : Shared) (t : CheckIn) : Shared → Pc → Prop
  | ended (hpc : t.pc = .checkEnded) (hended : s.ended = true) :
      Command s t s (.returned false "event_ended")
  | notEnded (hpc : t.pc = .checkEnded) (hended : s.ended = false) : Command s t s .acquire
  | taken (hpc : t.pc = .acquire) (hkey : s.dayKeys (t.userId, t.today) = true) :
      Command s t s (.returned false "already_checked_in")
  | acquired (hpc : t.pc = .acquire) (hkey : s.dayKeys (t.userId, t.today) = false) :
      Command s t (s.setDayKey t true) .getPool
  | found (hpc : t.pc = .getPool) {present : ℤ} (hpool : s.pool = some present) :
      Command s t s .decrement
  | missing (hpc : t.pc = .getPool) (hpool : s.pool = none) : Command s t s .sumDistributed
  | summed (hpc : t.pc = .sumDistributed) : Command s t s
      (.setPool (max 0 (ATTENDANCE_EVENT_TOTAL_POOL - attendanceSum s.transactions)))
  | setShort {remaining : ℤ} (hpc : t.pc = .setPool remaining)
      (hshort : remaining < ATTENDANCE_TOKENS) :
      Command s t { s with pool := some remaining } .setEnded
  | set {remaining : ℤ} (hpc : t.pc = .setPool remaining)
      (henough : ATTENDANCE_TOKENS ≤ remaining) :
      Command s t { s with pool := some remaining } .decrement
  | setEnded (hpc : t.pc = .setEnded) : Command s t { s with ended := true } .decrement
  | overdraw (hpc : t.pc = .decrement) (hshort : s.pool.getD 0 < ATTENDANCE_TOKENS) :
      Command s t { s with pool := some (s.pool.getD 0 - ATTENDANCE_TOKENS) } .giveBack
  | take (hpc : t.pc = .decrement) (henough : ATTENDANCE_TOKENS ≤ s.pool.getD 0) :
      Command s t { s with pool := some (s.pool.getD 0 - ATTENDANCE_TOKENS) } .record
  | giveBack (hpc : t.pc = .giveBack) :
      Command s t { s with pool := some (s.pool.getD 0 + ATTENDANCE_TOKENS) } .markEnded
  | markEnded (hpc : t.pc = .markEnded) : Command s t { s with ended := true } .release
  | release (hpc : t.pc = .release) :
      Command s t (s.setDayKey t false) (.returned false "event_ended")
  | undo (hpc : t.pc = .undo) :
      Command s t { s with pool := some (s.pool.getD 0 + ATTENDANCE_TOKENS) } .undoRelease
  | undoRelease (hpc : t.pc = .undoRelease) : Command s t (s.setDayKey t false) .raised

/-- A check-in that runs a command goes on to another one, and changes nothing else of itself. -/
theorem redisStep_cases (h : redisStep s t = some (s', t')) :
    ∃ pc, t' = t.goto pc ∧ Command s t s' pc := by
  unfold redisStep at h
  cases hpc : t.pc with
  | checkEnded =>
    simp only [hpc] at h
    split_ifs at h with hended <;> cases h
    · exact ⟨_, rfl, .ended hpc hended⟩
    · exact ⟨_, rfl, .notEnded hpc (Bool.eq_false_of_not_eq_true hended)⟩
  | acquire =>
    simp only [hpc] at h
    split_ifs at h with hkey <;> cases h
    · exact ⟨_, rfl, .taken hpc hkey⟩
    · exact ⟨_, rfl, .acquired hpc (Bool.eq_false_of_not_eq_true hkey)⟩
  | getPool =>
    simp only [hpc] at h
    split at h <;> cases h
    · next hpool => exact ⟨_, rfl, .found hpc hpool⟩
    · next hpool => exact ⟨_, rfl, .missing hpc hpool⟩
  | setPool remaining =>
    simp only [hpc] at h
    cases h
    split_ifs with hshort
    · exact ⟨_, rfl, .setShort hpc hshort⟩
    · exact ⟨_, rfl, .set hpc (not_lt.mp hshort)⟩
  | decrement =>
    simp only [hpc] at h
    cases h
    split_ifs with hneg
    · exact ⟨_, rfl, .overdraw hpc (by omega)⟩
    · exact ⟨_, rfl, .take hpc (by omega)⟩
  | sumDistributed =>
    simp only [hpc] at h
    cases h
    exact ⟨_, rfl, .summed hpc⟩
  | setEnded =>
    simp only [hpc] at h
    cases h
    exact ⟨_, rfl, .setEnded hpc⟩
  | giveBack =>
    simp only [hpc] at h
    cases h
    exact ⟨_, rfl, .giveBack hpc⟩
  | markEnded =>
    simp only [hpc] at h
    cases h
    exact ⟨_, rfl, .markEnded hpc⟩
  | release =>
    simp only [hpc] at h
    cases h
    exact ⟨_, rfl, .release hpc⟩
  | undo =>
    simp only [hpc] at h
    cases h
    exact ⟨_, rfl, .undo hpc⟩
  | undoRelease =>
    simp only [hpc] at h
    cases h
    exact ⟨_, rfl, .undoRelease hpc⟩
  | record => simp [hpc] at h
  | returned success message => simp [hpc] at h
  | raised => simp [hpc] at h
  | finished => simp [hpc] at h

/-- The rows of the index without those of a transaction that is undone. -/
def Shared.dropLog (s : Shared) (t : CheckIn) : Shared :=
  match t.pendingLog with
  | some row => { s with logs := s.logs.erase row }
  | none => s

/-- One action of a check-in. -/
inductive CheckIn.Act (s : Shared) (t : CheckIn) : Shared → CheckIn → Prop
  | redis {s' : Shared} {t' : CheckIn} (h : redisStep s t = some (s', t')) : Act s t s' t'
  /-- The attendance row and the credit go through; the credit finds some token row. -/
  | record (clock : Clock) (row : Option UserToken) (hpc : t.pc = .record)
      (hindex : ⟨t.userId, t.today⟩ ∉ s.logs) :
      Act s t { s with logs := ⟨t.userId, t.today⟩ :: s.logs }
        { t with
          pc := .returned true "success"
          pending := t.pending ++ (credit t.userId clock row ATTENDANCE_TOKENS .attendance
            (some "출석 이벤트")).recorded
          pendingLog := some ⟨t.userId, t.today⟩ }
  /-- A statement raises, and the database gives up the transaction. -/
  | recordFails (hpc : t.pc = .record) : Act s t (s.dropLog t) (t.close .undo)
  /-- The request goes on and records transactions of other kinds. -/
  | goOn (txs : List TokenTransaction) {success : Bool} {message : String}
      (hpc : t.pc = .returned success message) (htxs : ∀ tx ∈ txs, tx.type ≠ .attendance) :
      Act s t s { t with pending := t.pending ++ txs }
  | commit {success : Bool} {message : String} (hpc : t.pc = .returned success message) :
      Act s t { s with transactions := s.transactions ++ t.pending } (t.close .finished)
  /-- The request ends without a commit, after a result, an exception or in between. -/
  | rollback : Act s t (s.dropLog t) (t.close .finished)

/-- A key expires: a day's key after its time to live. -/
inductive Shared.Expires (s : Shared) : Shared → Prop
  | dayKey (key : UUID × Date) :
      Expires s { s with dayKeys := Function.update s.dayKeys key false }

/-- Check-ins of any number of users; a request may have written transactions of other kinds
before it checks in. -/
def checkIn : Program Shared CheckIn where
  env := Shared.Expires
  start t := t.pc = .checkEnded ∧ attendanceSum t.pending = 0 ∧ t.pendingLog = none
  act := CheckIn.Act

/-- The check-in does not set the counter above its present value. -/
def NeverRaises (s : Shared) (t : CheckIn) (s' : Shared) : Prop :=
  ∀ remaining, t.pc = .setPool remaining → s'.pool = some remaining →
    ∀ present ∈ s.pool, remaining ≤ present

/-! ## The budget -/

/-- What a check-in has been granted and may still commit. -/
def CheckIn.granted (t : CheckIn) : ℤ :=
  attendanceSum t.pending + if t.pc = .record then ATTENDANCE_TOKENS else 0

/-- What a check-in has taken from the counter and has neither committed nor given back. -/
def CheckIn.taken (t : CheckIn) : ℤ :=
  t.granted + if t.pc = .giveBack ∨ t.pc = .undo then ATTENDANCE_TOKENS else 0

theorem CheckIn.granted_le_taken (t : CheckIn) : t.granted ≤ t.taken := by
  have hamount : (0 : ℤ) ≤ ATTENDANCE_TOKENS := by decide
  unfold CheckIn.taken
  split_ifs <;> omega

/-- The commands a check-in may be at while nobody has set the counter. -/
def Pc.early : Pc → Bool
  | .checkEnded | .acquire | .getPool | .sumDistributed | .setPool _ | .returned .. | .raised
  | .finished => true
  | _ => false

/-- A check-in while nobody has set the counter: nothing has been granted, and a value
about to be set is what the pool has left. -/
structure CheckIn.Early (s : Shared) (t : CheckIn) : Prop where
  pc : t.pc.early = true
  pending : attendanceSum t.pending = 0
  remaining : ∀ remaining, t.pc = .setPool remaining →
    remaining = max 0 (ATTENDANCE_EVENT_TOTAL_POOL - attendanceSum s.transactions)

theorem CheckIn.Early.granted_eq_zero (h : t.Early s) : t.granted = 0 := by
  have hrecord : t.pc ≠ .record := by
    intro hpc
    simpa [hpc, Pc.early] using h.pc
  simp [CheckIn.granted, h.pending, hrecord]

theorem CheckIn.Early.taken_eq_zero (h : t.Early s) : t.taken = 0 := by
  have hgive : ¬ (t.pc = .giveBack ∨ t.pc = .undo) := by
    rintro (hpc | hpc) <;> simpa [hpc, Pc.early] using h.pc
  simp [CheckIn.taken, h.granted_eq_zero, hgive]

/-- Everything granted fits the pool, and the counter holds no more than is left of it. -/
structure Budget (p : Pool Shared CheckIn) : Prop where
  nonneg : ∀ t ∈ p.tasks, 0 ≤ attendanceSum t.pending
  granted_le : attendanceSum p.shared.transactions + total CheckIn.granted p.tasks ≤
    ATTENDANCE_EVENT_TOTAL_POOL
  pool_le : ∀ present ∈ p.shared.pool,
    present + attendanceSum p.shared.transactions + total CheckIn.taken p.tasks ≤
      ATTENDANCE_EVENT_TOTAL_POOL
  early : p.shared.pool = none → ∀ t ∈ p.tasks, t.Early p.shared

theorem attendanceSum_credit (userId : UUID) (clock : Clock) (row : Option UserToken) (amount : ℤ)
    (description : Option String) :
    attendanceSum (credit userId clock row amount .attendance description).recorded = amount := by
  cases row <;> simp [attendanceSum, credit, getOrCreateBalance, recordTransaction]

theorem attendanceSum_of_ne {txs : List TokenTransaction}
    (h : ∀ tx ∈ txs, tx.type ≠ .attendance) : attendanceSum txs = 0 := by
  have hnone : (txs.filter fun tx => tx.type = .attendance) = [] :=
    List.filter_eq_nil_iff.mpr fun tx htx => by simpa using h tx htx
  rw [attendanceSum, hnone, ledgerSum_nil]

@[simp] theorem dropLog_pool (s : Shared) (t : CheckIn) : (s.dropLog t).pool = s.pool := by
  unfold Shared.dropLog
  split <;> rfl

@[simp] theorem dropLog_transactions (s : Shared) (t : CheckIn) :
    (s.dropLog t).transactions = s.transactions := by
  unfold Shared.dropLog
  split <;> rfl

/-- What an action does to the counter, to the committed transactions and to what the
check-in has been granted. -/
inductive CheckIn.Effect (s : Shared) (t : CheckIn) (s' : Shared) (t' : CheckIn) : Prop
  /-- The counter stays, and nothing is granted that was not before. -/
  | keep (hpool : s'.pool = s.pool)
      (hgranted : attendanceSum s'.transactions + t'.granted ≤
        attendanceSum s.transactions + t.granted)
      (htaken : attendanceSum s'.transactions + t'.taken ≤
        attendanceSum s.transactions + t.taken)
  /-- The counter is set. -/
  | set (remaining : ℤ) (hpc : t.pc = .setPool remaining) (hpool : s'.pool = some remaining)
      (htransactions : s'.transactions = s.transactions) (hgranted : t'.granted = t.granted)
      (htaken : t'.taken = t.taken)
  /-- Tokens are taken from the counter, and granted if it stays nonnegative. -/
  | take (hpc : t.pc = .decrement)
      (hpool : s'.pool = some (s.pool.getD 0 - ATTENDANCE_TOKENS))
      (htransactions : s'.transactions = s.transactions)
      (hgranted : t'.granted = t.granted ∨
        0 ≤ s.pool.getD 0 - ATTENDANCE_TOKENS ∧ t'.granted = t.granted + ATTENDANCE_TOKENS)
      (htaken : t'.taken = t.taken + ATTENDANCE_TOKENS)
  /-- Tokens are given back to the counter. -/
  | give (hpc : t.pc = .giveBack ∨ t.pc = .undo)
      (hpool : s'.pool = some (s.pool.getD 0 + ATTENDANCE_TOKENS))
      (htransactions : s'.transactions = s.transactions) (hgranted : t'.granted = t.granted)
      (htaken : t'.taken = t.taken - ATTENDANCE_TOKENS)

/-- At these commands nothing is granted or taken beyond what the transaction has written. -/
def Pc.plain : Pc → Bool
  | .record | .giveBack | .undo => false
  | _ => true

theorem CheckIn.Effect.goto {pc : Pc} (hpool : s'.pool = s.pool)
    (htransactions : s'.transactions = s.transactions) (hpc : t.pc.plain = true)
    (hpc' : pc.plain = true) : CheckIn.Effect s t s' (t.goto pc) := by
  have hgranted : (t.goto pc).granted = t.granted := by
    unfold CheckIn.granted
    rw [if_neg, if_neg]
    · rfl
    · intro h
      simp [h, Pc.plain] at hpc
    · intro h
      simp [show pc = .record from h, Pc.plain] at hpc'
  have htaken : (t.goto pc).taken = t.taken := by
    unfold CheckIn.taken
    rw [if_neg, if_neg, hgranted]
    · rintro (h | h) <;> simp [h, Pc.plain] at hpc
    · rintro (h | h) <;> simp [show pc = _ from h, Pc.plain] at hpc'
  refine .keep hpool ?_ ?_
  · rw [htransactions, hgranted]
  · rw [htransactions, htaken]

theorem redisStep_effect (h : redisStep s t = some (s', t')) : CheckIn.Effect s t s' t' := by
  obtain ⟨pc, rfl, hcommand⟩ := redisStep_cases h
  cases hcommand with
  | setShort hpc hshort =>
    exact .set _ hpc rfl rfl (by simp [CheckIn.granted, CheckIn.goto, hpc])
      (by simp [CheckIn.taken, CheckIn.granted, CheckIn.goto, hpc])
  | set hpc henough =>
    exact .set _ hpc rfl rfl (by simp [CheckIn.granted, CheckIn.goto, hpc])
      (by simp [CheckIn.taken, CheckIn.granted, CheckIn.goto, hpc])
  | overdraw hpc hshort =>
    refine .take hpc rfl rfl (.inl ?_) ?_
    · simp [CheckIn.granted, CheckIn.goto, hpc]
    · simp [CheckIn.taken, CheckIn.granted, CheckIn.goto, hpc]
  | take hpc henough =>
    refine .take hpc rfl rfl (.inr ⟨by omega, ?_⟩) ?_
    · simp [CheckIn.granted, CheckIn.goto, hpc]
    · simp [CheckIn.taken, CheckIn.granted, CheckIn.goto, hpc]
  | giveBack hpc =>
    refine .give (.inl hpc) rfl rfl ?_ ?_ <;>
      simp [CheckIn.taken, CheckIn.granted, CheckIn.goto, hpc]
  | undo hpc =>
    refine .give (.inr hpc) rfl rfl ?_ ?_ <;>
      simp [CheckIn.taken, CheckIn.granted, CheckIn.goto, hpc]
  | _ hpc => exact .goto rfl rfl (by simp [hpc, Pc.plain]) rfl

theorem CheckIn.Act.effect (h : CheckIn.Act s t s' t') (hnonneg : 0 ≤ attendanceSum t.pending) :
    CheckIn.Effect s t s' t' := by
  have hamount : (0 : ℤ) ≤ ATTENDANCE_TOKENS := by decide
  cases h with
  | redis h => exact redisStep_effect h
  | record clock row hpc hindex =>
    refine .keep rfl ?_ ?_ <;>
      simp [CheckIn.taken, CheckIn.granted, hpc, attendanceSum_credit]
  | recordFails hpc =>
    refine .keep (dropLog_pool s t) ?_ ?_ <;>
      simp [CheckIn.taken, CheckIn.granted, CheckIn.close, hpc] <;> omega
  | goOn txs hpc htxs =>
    refine .keep rfl ?_ ?_ <;>
      simp [CheckIn.taken, CheckIn.granted, hpc, attendanceSum_of_ne htxs]
  | commit hpc =>
    refine .keep rfl ?_ ?_ <;>
      simp [CheckIn.taken, CheckIn.granted, CheckIn.close, hpc]
  | rollback =>
    have hgranted : 0 ≤ t.granted := by unfold CheckIn.granted; split_ifs <;> omega
    have htaken : 0 ≤ t.taken := by unfold CheckIn.taken; split_ifs <;> omega
    refine .keep (dropLog_pool s t) ?_ ?_
    · simpa [CheckIn.granted, CheckIn.close] using hgranted
    · simpa [CheckIn.taken, CheckIn.granted, CheckIn.close] using htaken

/-- An action keeps what an open transaction has granted nonnegative. -/
theorem CheckIn.Act.nonneg (h : CheckIn.Act s t s' t') (hnonneg : 0 ≤ attendanceSum t.pending) :
    0 ≤ attendanceSum t'.pending := by
  cases h with
  | redis h =>
    obtain ⟨pc, rfl, -⟩ := redisStep_cases h
    exact hnonneg
  | record clock row hpc hindex =>
    have hamount : (0 : ℤ) ≤ ATTENDANCE_TOKENS := by decide
    simp only [attendanceSum_append, attendanceSum_credit]
    omega
  | recordFails hpc => exact le_rfl
  | goOn txs hpc htxs =>
    simp only [attendanceSum_append, attendanceSum_of_ne htxs, add_zero]
    exact hnonneg
  | commit hpc => exact le_rfl
  | rollback => exact le_rfl

/-- While nobody has set the counter, an early check-in commits nothing, and it stays early
unless it sets the counter. -/
theorem CheckIn.Early.act (h : t.Early s) (hpool : s.pool = none) (hact : CheckIn.Act s t s' t') :
    attendanceSum s'.transactions = attendanceSum s.transactions ∧
      (s'.pool = none → t'.Early s') := by
  obtain ⟨hpc, hpending, hremaining⟩ := h
  cases hact with
  | redis hstep =>
    obtain ⟨pc, rfl, hcommand⟩ := redisStep_cases hstep
    cases hcommand with
    | summed =>
      refine ⟨rfl, fun _ => ⟨rfl, hpending, ?_⟩⟩
      intro remaining hset
      exact (Pc.setPool.inj hset).symm
    | setShort => exact ⟨rfl, nofun⟩
    | set => exact ⟨rfl, nofun⟩
    | found _ hpresent =>
      rw [hpool] at hpresent
      cases hpresent
    | ended => exact ⟨rfl, fun _ => ⟨rfl, hpending, nofun⟩⟩
    | notEnded => exact ⟨rfl, fun _ => ⟨rfl, hpending, nofun⟩⟩
    | taken => exact ⟨rfl, fun _ => ⟨rfl, hpending, nofun⟩⟩
    | acquired => exact ⟨rfl, fun _ => ⟨rfl, hpending, nofun⟩⟩
    | missing => exact ⟨rfl, fun _ => ⟨rfl, hpending, nofun⟩⟩
    | _ hlate => simp [hlate, Pc.early] at hpc
  | record clock row hrecord => simp [hrecord, Pc.early] at hpc
  | recordFails hrecord => simp [hrecord, Pc.early] at hpc
  | goOn txs hreturned htxs =>
    refine ⟨rfl, fun _ => ⟨hpc, ?_, hremaining⟩⟩
    simp [hpending, attendanceSum_of_ne htxs]
  | commit hreturned =>
    refine ⟨by simp [hpending], fun _ => ⟨rfl, rfl, ?_⟩⟩
    simp [CheckIn.close]
  | rollback =>
    refine ⟨by simp, fun _ => ⟨rfl, rfl, ?_⟩⟩
    simp [CheckIn.close]

namespace Budget

variable {p : Pool Shared CheckIn} {before after : List CheckIn}

/-- Once the counter has a value, the budget is two inequalities. -/
theorem of_present {present : ℤ} (hpool : p.shared.pool = some present)
    (hnonneg : ∀ t ∈ p.tasks, 0 ≤ attendanceSum t.pending)
    (hgranted : attendanceSum p.shared.transactions + total CheckIn.granted p.tasks ≤
      ATTENDANCE_EVENT_TOTAL_POOL)
    (htaken : present + attendanceSum p.shared.transactions + total CheckIn.taken p.tasks ≤
      ATTENDANCE_EVENT_TOTAL_POOL) : Budget p where
  nonneg := hnonneg
  granted_le := hgranted
  pool_le other hother := Option.some.inj (hpool.symm.trans hother) ▸ htaken
  early hnone := by simp [hpool] at hnone

/-- A check-in that is past the early commands has found the counter set. -/
theorem exists_pool (h : Budget p) (ht : t ∈ p.tasks) (hpc : t.pc.early = false) :
    ∃ present, p.shared.pool = some present := by
  cases hpool : p.shared.pool with
  | some present => exact ⟨present, rfl⟩
  | none =>
    have hearly := (h.early hpool t ht).pc
    rw [hpc] at hearly
    cases hearly

/-- A check-in that starts has been granted nothing. -/
theorem start {ts : List CheckIn} (h : Budget ⟨s, ts⟩) (hpc : t.pc = .checkEnded)
    (hpending : attendanceSum t.pending = 0) : Budget ⟨s, t :: ts⟩ := by
  have hnew : t.Early s := ⟨by rw [hpc]; rfl, hpending, by simp [hpc]⟩
  refine ⟨?_, ?_, ?_, ?_⟩
  · exact List.forall_mem_cons.mpr ⟨hpending.ge, h.nonneg⟩
  · simpa [hnew.granted_eq_zero] using h.granted_le
  · simpa [hnew.taken_eq_zero] using h.pool_le
  · exact fun hnone => List.forall_mem_cons.mpr ⟨hnew, h.early hnone⟩

/-- An action that leaves the counter alone keeps the budget. -/
theorem keep (h : Budget ⟨s, before ++ t :: after⟩) (hact : CheckIn.Act s t s' t')
    (hpool : s'.pool = s.pool)
    (hgranted : attendanceSum s'.transactions + t'.granted ≤
      attendanceSum s.transactions + t.granted)
    (htaken : attendanceSum s'.transactions + t'.taken ≤
      attendanceSum s.transactions + t.taken) : Budget ⟨s', before ++ t' :: after⟩ where
  nonneg := forall_mem_middle h.nonneg (fun _ _ hu => hu) hact.nonneg
  granted_le := by
    have hbefore := h.granted_le
    simp only [total_middle] at hbefore ⊢
    omega
  pool_le present hpresent := by
    have hbefore := h.pool_le present (hpool ▸ hpresent)
    simp only [total_middle] at hbefore ⊢
    omega
  early hnone := by
    have hnone' : s.pool = none := hpool ▸ hnone
    have hearly := h.early hnone'
    obtain ⟨hsum, hthis⟩ :=
      (hearly t (List.mem_append_right _ List.mem_cons_self)).act hnone' hact
    exact forall_mem_middle hearly
      (fun u _ hu => ⟨hu.pc, hu.pending, fun r hr => by rw [hsum]; exact hu.remaining r hr⟩)
      (fun _ => hthis hnone)

/-- The value a check-in sets the counter to is at most the present one, or the counter is
missing and the value is what the pool has left. -/
theorem remaining_le (h : Budget ⟨s, before ++ t :: after⟩) (hguard : NeverRaises s t s')
    {remaining : ℤ} (hpc : t.pc = .setPool remaining) (hpool : s'.pool = some remaining) :
    remaining + attendanceSum s.transactions + total CheckIn.taken (before ++ t :: after) ≤
      ATTENDANCE_EVENT_TOTAL_POOL := by
  cases hold : s.pool with
  | some old =>
    have hle := hguard remaining hpc hpool old hold
    have hbefore := h.pool_le old hold
    simp only at hbefore
    omega
  | none =>
    have hearly := h.early hold
    have hvalue := (hearly t (List.mem_append_right _ List.mem_cons_self)).remaining remaining hpc
    have hgranted := h.granted_le
    have hgrantedZero : total CheckIn.granted (before ++ t :: after) = 0 :=
      total_eq_zero fun u hu => (hearly u hu).granted_eq_zero
    have htakenZero : total CheckIn.taken (before ++ t :: after) = 0 :=
      total_eq_zero fun u hu => (hearly u hu).taken_eq_zero
    simp only at hvalue hgranted
    omega

/-- A check-in takes tokens from the counter. -/
theorem take (h : Budget ⟨s, before ++ t :: after⟩) (hpc : t.pc = .decrement)
    (hnonneg : ∀ u ∈ before ++ t' :: after, 0 ≤ attendanceSum u.pending)
    (hpool : s'.pool = some (s.pool.getD 0 - ATTENDANCE_TOKENS))
    (htransactions : s'.transactions = s.transactions)
    (hgranted : t'.granted = t.granted ∨
      0 ≤ s.pool.getD 0 - ATTENDANCE_TOKENS ∧ t'.granted = t.granted + ATTENDANCE_TOKENS)
    (htaken : t'.taken = t.taken + ATTENDANCE_TOKENS) : Budget ⟨s', before ++ t' :: after⟩ := by
  obtain ⟨old, hold⟩ := h.exists_pool (List.mem_append_right _ List.mem_cons_self)
    (show t.pc.early = false by rw [hpc]; rfl)
  have hbefore := h.granted_le
  have hleft := h.pool_le old hold
  simp only at hold
  simp only [hold, Option.getD_some] at hpool hgranted
  simp only [total_middle] at hbefore hleft
  refine of_present hpool hnonneg ?_ ?_
  · simp only [total_middle, htransactions]
    rcases hgranted with hsame | ⟨hcounter, hmore⟩
    · omega
    · -- The counter has stayed nonnegative, so everything taken fits the pool.
      have hle : total CheckIn.granted (before ++ after) ≤ total CheckIn.taken (before ++ after) :=
        total_le_total fun u _ => u.granted_le_taken
      have hthis := t.granted_le_taken
      omega
  · simp only [total_middle, htransactions, htaken]
    omega

/-- A check-in gives tokens back to the counter. -/
theorem give (h : Budget ⟨s, before ++ t :: after⟩) (hpc : t.pc = .giveBack ∨ t.pc = .undo)
    (hnonneg : ∀ u ∈ before ++ t' :: after, 0 ≤ attendanceSum u.pending)
    (hpool : s'.pool = some (s.pool.getD 0 + ATTENDANCE_TOKENS))
    (htransactions : s'.transactions = s.transactions) (hgranted : t'.granted = t.granted)
    (htaken : t'.taken = t.taken - ATTENDANCE_TOKENS) : Budget ⟨s', before ++ t' :: after⟩ := by
  have hlate : t.pc.early = false := by
    rcases hpc with hpc | hpc <;> rw [hpc] <;> rfl
  obtain ⟨old, hold⟩ := h.exists_pool (List.mem_append_right _ List.mem_cons_self) hlate
  have hbefore := h.granted_le
  have hleft := h.pool_le old hold
  simp only at hold
  simp only [hold, Option.getD_some] at hpool
  simp only [total_middle] at hbefore hleft
  refine of_present hpool hnonneg ?_ ?_
  · simp only [total_middle, htransactions, hgranted]
    exact hbefore
  · simp only [total_middle, htransactions, htaken]
    omega

/-- Every action keeps the budget, unless it raises the counter. -/
theorem step {p' : Pool Shared CheckIn} (h : Budget p)
    (hstep : Pool.Step (checkIn.restricted NeverRaises) p p') : Budget p' := by
  cases hstep with
  | env ts henv =>
    cases henv with
    | dayKey key => exact ⟨h.nonneg, h.granted_le, h.pool_le, fun hnone t ht =>
        have hearly := h.early hnone t ht
        ⟨hearly.pc, hearly.pending, hearly.remaining⟩⟩
  | start s ts hstart =>
    obtain ⟨hpc, hpending, -⟩ := hstart
    exact h.start hpc hpending
  | @act s s' t t' before after hact =>
    obtain ⟨hguard, hact⟩ := hact
    have hmem : t ∈ before ++ t :: after := List.mem_append_right _ List.mem_cons_self
    have hnonneg : ∀ u ∈ before ++ t' :: after, 0 ≤ attendanceSum u.pending :=
      forall_mem_middle h.nonneg (fun _ _ hu => hu) hact.nonneg
    cases hact.effect (h.nonneg t hmem) with
    | keep hpool hgranted htaken => exact h.keep hact hpool hgranted htaken
    | set remaining hpc hpool htransactions hgranted htaken =>
      have hbefore := h.granted_le
      have hleft := h.remaining_le hguard hpc hpool
      simp only [total_middle] at hbefore hleft
      refine of_present hpool hnonneg ?_ ?_
      · simpa only [total_middle, htransactions, hgranted] using hbefore
      · simpa only [total_middle, htransactions, htaken] using hleft
    | take hpc hpool htransactions hgranted htaken =>
      exact h.take hpc hnonneg hpool htransactions hgranted htaken
    | give hpc hpool htransactions hgranted htaken =>
      exact h.give hpc hnonneg hpool htransactions hgranted htaken

end Budget

/-- From a missing counter, and as long as no check-in sets the counter above its present
value, the committed attendance transactions stay within the pool. -/
theorem attendance_le_total {s : Shared} {p : Pool Shared CheckIn} (hpool : s.pool = none)
    (hsum : attendanceSum s.transactions ≤ ATTENDANCE_EVENT_TOTAL_POOL)
    (h : Pool.Reachable (checkIn.restricted NeverRaises) s p) :
    attendanceSum p.shared.transactions ≤ ATTENDANCE_EVENT_TOTAL_POOL := by
  -- By induction on the run; every step keeps the budget.
  have hbudget : Budget p := by
    induction h with
    | refl =>
      exact ⟨by simp, by simpa using hsum, by simp [hpool], fun _ => by simp⟩
    | tail _ hstep ih => exact ih.step hstep
  have hamount : (0 : ℤ) ≤ ATTENDANCE_TOKENS := by decide
  have hnonneg : 0 ≤ total CheckIn.granted p.tasks := by
    apply total_nonneg
    intro t ht
    have hpending := hbudget.nonneg t ht
    unfold CheckIn.granted
    split_ifs <;> omega
  have hgranted := hbudget.granted_le
  omega

/-! ## The race -/

section Race

variable {before after : List CheckIn}

/-- The actions of one check-in, among others. -/
abbrev Runs (before after : List CheckIn) (s : Shared) (t : CheckIn) (s' : Shared)
    (t' : CheckIn) : Prop :=
  Relation.ReflTransGen (Pool.Step checkIn) ⟨s, before ++ t :: after⟩ ⟨s', before ++ t' :: after⟩

theorem Runs.redis {s'' : Shared} {t'' : CheckIn} (h : Runs before after s t s' t')
    (hstep : redisStep s' t' = some (s'', t'')) : Runs before after s t s'' t'' :=
  h.tail (.act before after (.redis hstep))

/-- A check-in that finds the counter missing computes a value for it. -/
theorem runs_to_setPool (hpc : t.pc = .checkEnded) (hpool : s.pool = none)
    (hended : s.ended = false) (hkey : s.dayKeys (t.userId, t.today) = false) :
    Runs before after s t (s.setDayKey t true)
      (t.goto (.setPool (max 0 (ATTENDANCE_EVENT_TOTAL_POOL - attendanceSum s.transactions)))) := by
  have hfirst : Runs before after s t s (t.goto .acquire) :=
    Runs.redis .refl (by simp [redisStep, hpc, hended])
  have hsecond : Runs before after s t (s.setDayKey t true) (t.goto .getPool) :=
    hfirst.redis (by simp [redisStep, CheckIn.goto, hkey, Shared.setDayKey])
  have hthird : Runs before after s t (s.setDayKey t true) (t.goto .sumDistributed) :=
    hsecond.redis (by simp [redisStep, CheckIn.goto, hpool, Shared.setDayKey])
  exact hthird.redis (by simp [redisStep, CheckIn.goto, Shared.setDayKey])

/-- A check-in that has computed a value sets the counter, whatever it is by then, and is
granted its tokens. -/
theorem runs_to_commit {remaining : ℤ} (hpc : t.pc = .setPool remaining)
    (henough : ATTENDANCE_TOKENS ≤ remaining) (hpending : t.pending = [])
    (hindex : ⟨t.userId, t.today⟩ ∉ s.logs) :
    ∃ s' t', Runs before after s t s' t' ∧ s'.logs = ⟨t.userId, t.today⟩ :: s.logs ∧
      attendanceSum s'.transactions = attendanceSum s.transactions + ATTENDANCE_TOKENS := by
  have hset : Runs before after s t { s with pool := some remaining } (t.goto .decrement) :=
    Runs.redis .refl (by simp [redisStep, hpc, not_lt.mpr henough])
  have htake : Runs before after s t { s with pool := some (remaining - ATTENDANCE_TOKENS) }
      (t.goto .record) :=
    hset.redis (by simp [redisStep, CheckIn.goto, henough])
  have hrecord := htake.tail (.act before after
    (.record (fun _ => .utc 2026 1 10 9) none rfl hindex))
  have hcommit := hrecord.tail (.act before after (.commit rfl))
  refine ⟨_, _, hcommit, rfl, ?_⟩
  simp [CheckIn.goto, hpending, attendanceSum_credit]

end Race

/-- A check-in about to start. -/
def newCheckIn (userId : UUID) (today : Date) : CheckIn := ⟨userId, today, .checkEnded, [], none⟩

/-- Two users check in when the pool is down to one attendance and the counter is missing:
both find it missing, and each of them is granted the last tokens. -/
theorem race_overspends {s : Shared} {user other : UUID} (today : Date) (hne : other ≠ user)
    (hpool : s.pool = none) (hended : s.ended = false) (hkeys : ∀ key, s.dayKeys key = false)
    (hlogs : s.logs = [])
    (hsum : attendanceSum s.transactions = ATTENDANCE_EVENT_TOTAL_POOL - ATTENDANCE_TOKENS) :
    ∃ p, Pool.Reachable checkIn s p ∧ attendanceSum p.shared.transactions =
      ATTENDANCE_EVENT_TOTAL_POOL + ATTENDANCE_TOKENS := by
  set a := newCheckIn user today
  set b := newCheckIn other today
  have hleft : max 0 (ATTENDANCE_EVENT_TOTAL_POOL - attendanceSum s.transactions) =
      ATTENDANCE_TOKENS := by
    rw [hsum]
    decide
  have hstart : Pool.Reachable checkIn s ⟨s, [b, a]⟩ :=
    (Relation.ReflTransGen.single (.start s [] ⟨rfl, rfl, rfl⟩)).tail (.start s [a] ⟨rfl, rfl, rfl⟩)
  -- Both find the counter missing before either has set it.
  have hfirst : Runs [b] [] s a (s.setDayKey a true) (a.goto (.setPool ATTENDANCE_TOKENS)) :=
    hleft ▸ runs_to_setPool rfl hpool hended (hkeys _)
  have hkey : (s.setDayKey a true).dayKeys (other, today) = false := by
    simp [Shared.setDayKey, a, newCheckIn, hne, hkeys]
  have hsecond : Runs [] [a.goto (.setPool ATTENDANCE_TOKENS)] (s.setDayKey a true) b
      ((s.setDayKey a true).setDayKey b true) (b.goto (.setPool ATTENDANCE_TOKENS)) :=
    hleft ▸ runs_to_setPool rfl hpool hended hkey
  have hnone : (⟨user, today⟩ : AttendanceLog) ∉ s.logs := by simp [hlogs]
  obtain ⟨s₁, a', hgrant, hlogs₁, hsum₁⟩ : ∃ s' t',
      Runs [b.goto (.setPool ATTENDANCE_TOKENS)] [] ((s.setDayKey a true).setDayKey b true)
        (a.goto (.setPool ATTENDANCE_TOKENS)) s' t' ∧ s'.logs = ⟨user, today⟩ :: s.logs ∧
        attendanceSum s'.transactions = attendanceSum s.transactions + ATTENDANCE_TOKENS :=
    runs_to_commit rfl le_rfl rfl hnone
  have hnone' : (⟨other, today⟩ : AttendanceLog) ∉ s₁.logs := by simp [hlogs₁, hlogs, hne]
  obtain ⟨s₂, b', hgrant', -, hsum₂⟩ : ∃ s' t',
      Runs [] [a'] s₁ (b.goto (.setPool ATTENDANCE_TOKENS)) s' t' ∧
        s'.logs = ⟨other, today⟩ :: s₁.logs ∧
        attendanceSum s'.transactions = attendanceSum s₁.transactions + ATTENDANCE_TOKENS :=
    runs_to_commit rfl le_rfl rfl hnone'
  refine ⟨⟨s₂, [b', a']⟩, (((hstart.trans hfirst).trans hsecond).trans hgrant).trans hgrant', ?_⟩
  rw [hsum₂, hsum₁, hsum]
  decide

/-- Redis without keys, and 9999 attendances of the 10000 the pool is made for. -/
def lastAttendance : Shared where
  pool := none
  ended := false
  dayKeys _ := false
  logs := []
  transactions := List.replicate 9999
    (recordTransaction 3 ATTENDANCE_TOKENS .attendance (some "출석 이벤트") (.utc 2026 1 9 9))

theorem attendanceSum_replicate (n : ℕ) {tx : TokenTransaction} (h : tx.type = .attendance) :
    attendanceSum (List.replicate n tx) = n * tx.amount := by
  simp [attendanceSum, ledgerSum, h]

theorem not_attendance_le_total :
    ¬ ∀ (s : Shared) (p : Pool Shared CheckIn), s.pool = none →
      attendanceSum s.transactions ≤ ATTENDANCE_EVENT_TOTAL_POOL → Pool.Reachable checkIn s p →
      attendanceSum p.shared.transactions ≤ ATTENDANCE_EVENT_TOTAL_POOL := by
  intro h
  have hsum : attendanceSum lastAttendance.transactions =
      ATTENDANCE_EVENT_TOTAL_POOL - ATTENDANCE_TOKENS := by
    rw [lastAttendance, attendanceSum_replicate _ rfl]
    decide
  obtain ⟨p, hreachable, hover⟩ := race_overspends (Datetime.utc 2026 1 10 9).date
    (show (2 : UUID) ≠ 1 by decide) (show lastAttendance.pool = none from rfl) rfl
    (fun _ => rfl) rfl hsum
  have hle := h lastAttendance p rfl (hsum.le.trans (by decide)) hreachable
  rw [hover] at hle
  exact absurd hle (by decide)

/-! ### Two first check-ins -/

/-- An action of a check-in that is not about to set the counter. -/
theorem step_of_not_setPool (before after : List CheckIn)
    (hpc : ∀ remaining, t.pc ≠ .setPool remaining) (hact : CheckIn.Act s t s' t') :
    Pool.Step (checkIn.restricted NeverRaises) ⟨s, before ++ t :: after⟩
      ⟨s', before ++ t' :: after⟩ :=
  .act before after ⟨fun remaining hset => absurd hset (hpc remaining), hact⟩

/-- At the start of the event two check-ins both find the counter missing and set it, the second
to what it is already, and both are committed. -/
theorem attendance_le_total_both : ∃ p,
    Pool.Reachable (checkIn.restricted NeverRaises) ⟨none, false, fun _ => false, [], []⟩ p ∧
      p.shared.pool = some 29994 ∧ attendanceSum p.shared.transactions = 6 ∧
      attendanceSum p.shared.transactions ≤ ATTENDANCE_EVENT_TOTAL_POOL := by
  let s : Shared := ⟨none, false, fun _ => false, [], []⟩
  let a := newCheckIn 1 (Datetime.utc 2026 1 10 9).date
  let b := newCheckIn 2 (Datetime.utc 2026 1 10 9).date
  have hstart : Pool.Reachable (checkIn.restricted NeverRaises) s ⟨s, [a]⟩ :=
    .single (.start s [] ⟨rfl, rfl, rfl⟩)
  have hstart' : Pool.Reachable (checkIn.restricted NeverRaises) s ⟨s, [b, a]⟩ :=
    hstart.tail (.start s [a] ⟨rfl, rfl, rfl⟩)
  have hchecked := hstart'.tail (step_of_not_setPool [b] [] nofun (.redis rfl))
  have hacquired := hchecked.tail (step_of_not_setPool [b] [] nofun (.redis rfl))
  have hmissed := hacquired.tail (step_of_not_setPool [b] [] nofun (.redis rfl))
  have hsummed := hmissed.tail (step_of_not_setPool [b] [] nofun (.redis rfl))
  have hchecked' := hsummed.tail (step_of_not_setPool [] [_] nofun (.redis rfl))
  have hacquired' := hchecked'.tail (step_of_not_setPool [] [_] nofun (.redis rfl))
  have hmissed' := hacquired'.tail (step_of_not_setPool [] [_] nofun (.redis rfl))
  have hsummed' := hmissed'.tail (step_of_not_setPool [] [_] nofun (.redis rfl))
  have hset := hsummed'.tail (.act [_] [] ⟨fun _ _ _ _ hpresent => (nomatch hpresent), .redis rfl⟩)
  have hset' := hset.tail (.act [] [_] ⟨by rintro _ ⟨⟩ - _ ⟨⟩; exact le_rfl, .redis rfl⟩)
  have htaken := (hset'.tail (step_of_not_setPool [_] [] nofun (.redis rfl))).tail
    (step_of_not_setPool [] [_] nofun (.redis rfl))
  have hrecorded := htaken.tail (step_of_not_setPool [_] [] nofun
    (.record (fun _ => .utc 2026 1 10 9) none rfl (by decide)))
  have hrecorded' := hrecorded.tail (step_of_not_setPool [] [_] nofun
    (.record (fun _ => .utc 2026 1 10 9) none rfl (by decide)))
  have hcommitted := (hrecorded'.tail (step_of_not_setPool [_] [] nofun (.commit rfl))).tail
    (step_of_not_setPool [] [_] nofun (.commit rfl))
  exact ⟨_, hcommitted, rfl, by decide, attendance_le_total rfl (by decide) hcommitted⟩

end Logit.Tokens
