import Logit.Tokens.BalanceQuery
import Logit.Tokens.DailyAttendance

/-!
# Attendances that are lost

A check-in takes its tokens from Redis before the database has granted them. When the
database part of the check-in fails, it gives them back and deletes the day's key; but the
query commits only after further calls, and when one of these fails, or the commit, nobody
gives anything back. Neither does anybody when Redis fails halfway, or the query is cancelled.

The counter and the committed attendances stay in step over a run of queries exactly if every
query is covered: once it has acquired the day's key, it passes every later place up to its
commit, or the handler that makes up for it.

## Main definitions

* `InStep` — Redis and the committed attendances say the same
* `GivenBack` — an attendance that is not committed leaves Redis as it was
* `Covered` — a query commits what it has taken from Redis, or gives it back

## Main results

* `givenBack_iff` — what a query takes and does not commit is given back exactly if it is
  covered
* `along_losesNothing_iff` — the same over every run of queries
-/

namespace Logit.Tokens

open Calendar Concurrency Python Subscriptions

/-- The day's key of a request. -/
def BalanceRequest.key (request : BalanceRequest) : UUID × Date := (request.userId, request.today)

/-- The attendance row of a request. -/
def BalanceRequest.log (request : BalanceRequest) : AttendanceLog :=
  ⟨request.userId, request.today⟩

/-- What the pool has left, by the committed attendances. -/
def Shared.left (s : Shared) : ℤ := ATTENDANCE_EVENT_TOTAL_POOL - attendanceSum s.transactions

/-- The counter; a missing one stands for what it would be set to. -/
def Shared.available (s : Shared) : ℤ := s.pool.getD s.left

/-- Redis and the committed attendances say the same. -/
structure InStep (s : Shared) : Prop where
  pool : ∀ present ∈ s.pool, present = s.left
  keys : ∀ userId today, s.dayKeys (userId, today) = true ↔ ⟨userId, today⟩ ∈ s.logs
  left_nonneg : 0 ≤ s.left

/-- Unless the attendance is committed, the counter and the day's key are as they were; and
Redis and the committed attendances say the same. -/
structure GivenBack (request : BalanceRequest) (s s' : Shared) : Prop where
  lost : request.log ∉ s'.logs →
    s'.available = s.available ∧ s'.dayKeys request.key = s.dayKeys request.key
  inStep : InStep s'

/-! ## Covered queries -/

section Covered

variable (plan : Plan)

/-- A command of the check-in goes through. -/
def Plan.Proceeds (pc : Pc) : Prop := plan.fate (.command pc) = .proceed

/-- The attendance is granted and committed. -/
structure Plan.Grants : Prop where
  record : plan.Proceeds .record
  signupBonus : plan.fate .signupBonus = .proceed
  signupClaim : plan.fate .signupClaim = .proceed
  referralClaim : plan.fate .referralClaim = .proceed
  commit : plan.Effective .commit

/-- The attendance fails in the database, and the handler makes up for it. -/
structure Plan.Undoes : Prop where
  record : plan.fate (.command .record) = .fail
  undo : plan.Proceeds .undo
  release : plan.Effective (.command .undoRelease)

/-- What was too much to take is given back. -/
structure Plan.Returns : Prop where
  giveBack : plan.Proceeds .giveBack
  markEnded : plan.Proceeds .markEnded
  release : plan.Effective (.command .release)

/-- The commands by which a check-in finds the counter, or sets it to what is left. -/
structure Plan.Finds (s : Shared) : Prop where
  getPool : plan.Proceeds .getPool
  sumDistributed : s.pool = none → plan.Proceeds .sumDistributed
  setPool : s.pool = none → plan.Proceeds (.setPool (max 0 s.left))
  setEnded : s.pool = none → max 0 s.left < ATTENDANCE_TOKENS → plan.Proceeds .setEnded

/-- The check-in acquires the day's key, or tries to with that effect. -/
structure Acquires (store : Store) (request : BalanceRequest) : Prop extends
    Begins store request plan where
  getRedis : plan.fate .getRedis = .proceed
  checkEnded : plan.Proceeds .checkEnded
  lasts : store.shared.ended = false
  first : store.shared.dayKeys request.key = false
  acquire : plan.Effective (.command .acquire)

/-- What is taken from the counter is granted and committed, or it is given back. -/
structure Plan.Follows (s : Shared) : Prop where
  decrement : plan.Proceeds .decrement
  enough : ATTENDANCE_TOKENS ≤ s.available → plan.Grants ∨ plan.Undoes
  short : s.available < ATTENDANCE_TOKENS → plan.Returns

/-- A query that has acquired the day's key passes every later place up to its commit, or to
where it has given everything back. -/
structure Covers (s : Shared) : Prop where
  acquire : plan.Proceeds .acquire
  finds : plan.Finds s
  follows : plan.Follows s

/-- If the query acquires the day's key at all. -/
def Covered (store : Store) (request : BalanceRequest) (plan : Plan) : Prop :=
  Acquires plan store request → Covers plan store.shared

end Covered

variable {store : Store} {request : BalanceRequest} {plan : Plan} {clock : Clock} {s : Shared}
  {q : BalanceQuery} {n k : ℕ}

/-! ## How a query ends -/

theorem dropLog_of_none {t : CheckIn} (h : t.pendingLog = none) : s.dropLog t = s := by
  rw [Shared.dropLog, h]

/-- Only the credit of an attendance records one. -/
theorem attendanceSum_run (call : TokenCall) (row : Option UserToken)
    (h : .attendance ∉ call.function.types) : attendanceSum (call.run row).2 = 0 :=
  attendanceSum_of_ne fun tx htx htype => h (htype ▸ call.run_types row tx htx)

/-- The calls after the check-in grant no attendance. -/
theorem attendanceSum_rewarded (q : BalanceQuery) (request : BalanceRequest) :
    attendanceSum (q.rewarded request).checkIn.pending = attendanceSum q.checkIn.pending := by
  have hbonus : attendanceSum (grantSignupBonus request.userId (request.clock 2) q.row).recorded =
      0 := attendanceSum_run ⟨request.userId, request.clock 2, .grantSignupBonus⟩ q.row
        (by simp [TokenFunction.types])
  simp [BalanceQuery.rewarded, BalanceQuery.told, BalanceQuery.bonus, BalanceQuery.write, hbonus,
    claimSignupBonusNotification, claimReferralNotification, getOrCreateBalance]

/-- What a query leaves in Redis and the database, by how its check-in has ended. -/
def landed (plan : Plan) (request : BalanceRequest) (subscription : Option Subscription)
    (granted : Bool × ℤ) (r : Except Interrupt Unit × Frame BalanceQuery) : Shared :=
  (resume (conclude plan request subscription granted) r).2.world.close.shared

variable {subscription : Option Subscription} {granted : Bool × ℤ}
  {r : Except Interrupt Unit × Frame BalanceQuery}

theorem landed_of_commits (hresult : r.1 ≠ .error .cancelled) (h : Commits plan r.2.world) :
    landed plan request subscription granted r =
      { r.2.world.store.shared with
        transactions := r.2.world.store.shared.transactions ++
          (r.2.world.rewarded request).checkIn.pending } := by
  have hclose : (conclude plan request subscription granted r.2).2.world.close = _ :=
    conclude_close.1 h
  rcases r with ⟨(_ | _) | _, f⟩
  · exact congrArg Store.shared hclose
  · exact absurd rfl hresult
  · exact congrArg Store.shared hclose

theorem landed_of_not_commits (h : ¬ Commits plan r.2.world) :
    landed plan request subscription granted r = r.2.world.close.shared := by
  have hclose : (conclude plan request subscription granted r.2).2.world.close = _ :=
    conclude_close.2 h
  rcases r with ⟨(_ | _) | _, f⟩
  · exact congrArg Store.shared hclose
  · rfl
  · exact congrArg Store.shared hclose

/-- What a query has open is committed, or it is lost. -/
theorem landed_cases :
    landed plan request subscription granted r = r.2.world.close.shared ∨
      landed plan request subscription granted r =
        { r.2.world.store.shared with
          transactions := r.2.world.store.shared.transactions ++
            (r.2.world.rewarded request).checkIn.pending } := by
  by_cases hcommits : Commits plan r.2.world
  · by_cases hresult : r.1 = .error .cancelled
    · left
      rcases r with ⟨result, f⟩
      obtain rfl : result = .error .cancelled := hresult
      rfl
    · exact .inr (landed_of_commits hresult hcommits)
  · exact .inl (landed_of_not_commits hcommits)

/-! ## A query that holds the day's key -/

/-- The query's check-in is of its user and date, and has no open row. -/
structure Own (request : BalanceRequest) (q : BalanceQuery) : Prop where
  userId : q.checkIn.userId = request.userId
  today : q.checkIn.today = request.today
  closed : q.checkIn.pendingLog = none

/-- The day's key is there, and the attendance is not recorded. -/
structure Held (request : BalanceRequest) (q : BalanceQuery) : Prop extends Own request q where
  key : q.store.shared.dayKeys request.key = true
  log : request.log ∉ q.store.shared.logs

/-- The day's key without the attendance is a lost attendance. -/
theorem not_givenBack {s' : Shared} (hkey : s'.dayKeys request.key = true)
    (hlog : request.log ∉ s'.logs) : ¬ GivenBack request s s' := fun hback =>
  hlog ((hback.inStep.keys request.userId request.today).mp hkey)

theorem Held.not_givenBack (h : Held request r.2.world) :
    ¬ GivenBack request s (landed plan request subscription granted r) := by
  have hsame : (landed plan request subscription granted r).dayKeys =
        r.2.world.store.shared.dayKeys ∧
      (landed plan request subscription granted r).logs = r.2.world.store.shared.logs := by
    rcases landed_cases (r := r) with hlanded | hlanded
    · rw [hlanded, BalanceQuery.close, dropLog_of_none h.closed]
      exact ⟨rfl, rfl⟩
    · rw [hlanded]
      exact ⟨rfl, rfl⟩
  apply Logit.Tokens.not_givenBack
  · rw [hsame.1]
    exact h.key
  · rw [hsame.2]
    exact h.log

/-- The commands after which the day's key stays. -/
def Pc.keepsKey : Pc → Bool
  | .release | .undoRelease => false
  | _ => true

theorem redisStep_dayKeys {s' : Shared} {t t' : CheckIn} (h : redisStep s t = some (s', t'))
    (hpc : t.pc.keepsKey = true) (hkey : s.dayKeys (t.userId, t.today) = true) :
    s'.dayKeys (t.userId, t.today) = true := by
  obtain ⟨pc, rfl, hcommand⟩ := redisStep_cases h
  cases hcommand with
  | acquired => simp [Shared.setDayKey]
  | release hrelease => simp [hrelease, Pc.keepsKey] at hpc
  | undoRelease hrelease => simp [hrelease, Pc.keepsKey] at hpc
  | _ => exact hkey

theorem Own.goOn {s' : Shared} {t' : CheckIn} (h : Own request q)
    (hstep : redisStep q.store.shared q.checkIn = some (s', t')) : Own request (q.goOn s' t') := by
  have hsame := redisStep_untouched hstep
  exact ⟨hsame.userId.trans h.userId, hsame.today.trans h.today, hsame.pendingLog.trans h.closed⟩

/-- The query after a command that does not delete the day's key, whether it fails or not. -/
theorem Held.goOn {s' : Shared} {t' : CheckIn} (h : Held request q)
    (hpc : q.checkIn.pc.keepsKey = true)
    (hstep : redisStep q.store.shared q.checkIn = some (s', t')) : Held request (q.goOn s' t') where
  toOwn := h.toOwn.goOn hstep
  key := by
    have hkey := h.key
    rw [BalanceRequest.key, ← h.userId, ← h.today] at hkey ⊢
    exact redisStep_dayKeys hstep hpc hkey
  log := by
    have hlogs : s'.logs = q.store.shared.logs := (redisStep_untouched hstep).logs
    exact hlogs ▸ h.log

theorem Held.commandFailed (h : Held request q) (hkey : s.dayKeys request.key = true)
    (hlog : request.log ∉ s.logs) : Held request (q.commandFailed s) := by
  unfold BalanceQuery.commandFailed
  split
  · rw [dropLog_of_none h.closed]
    exact ⟨⟨h.userId, h.today, rfl⟩, hkey, hlog⟩
  · exact ⟨⟨h.userId, h.today, h.closed⟩, hkey, hlog⟩
  · exact ⟨⟨h.userId, h.today, h.closed⟩, hkey, hlog⟩
  · exact ⟨⟨h.userId, h.today, h.closed⟩, hkey, hlog⟩

/-- A query that is to run some commands of its check-in loses no attendance. -/
abbrev EndsWell (s : Shared) (plan : Plan) (request : BalanceRequest)
    (subscription : Option Subscription) (granted : Bool × ℤ) (clock : Clock) (n : ℕ)
    (f : Frame BalanceQuery) : Prop :=
  GivenBack request s (landed plan request subscription granted (commands plan clock n f))

variable {p : ℕ} {pool pool' : Option ℤ} {ended ended' : Bool} {pc pc' : Pc}

/-- While the day's key is held, every command has to go through. -/
theorem Held.endsWell_iff {s' : Shared} {t' : CheckIn} (h : Held request q)
    (hkeeps : q.checkIn.pc.keepsKey = true) (hrecord : q.checkIn.pc ≠ .record)
    (hstep : redisStep q.store.shared q.checkIn = some (s', t')) :
    EndsWell s plan request subscription granted clock (n + 1) ⟨p, q⟩ ↔
      plan.Proceeds q.checkIn.pc ∧
        EndsWell s plan request subscription granted clock n ⟨p + 1, q.goOn s' t'⟩ := by
  have hnext := h.goOn hkeeps hstep
  unfold EndsWell
  rw [commands_redis hrecord hstep]
  unfold Plan.Proceeds
  cases hfate : plan.fate (.command q.checkIn.pc) with
  | proceed => simp
  -- An exception ends the check-in with the key held, whether the command was carried out or not.
  | fail =>
    refine iff_of_false (Held.not_givenBack (h.commandFailed ?_ ?_)) (by simp)
    · split_ifs
      · exact hnext.key
      · exact h.key
    · split_ifs
      · exact hnext.log
      · exact h.log
  | cancel done =>
    refine iff_of_false (Held.not_givenBack ?_) (by simp)
    cases done
    · exact h
    · exact hnext

/-! ## The commands, from the last to the first -/

/-- Redis with the day's key held. -/
def Shared.hold (s : Shared) (request : BalanceRequest) (pool : Option ℤ) (ended : Bool) : Shared :=
  { s with
    pool := pool
    ended := ended
    dayKeys := Function.update s.dayKeys request.key true }

/-- The check-in holds the day's key and is at a command. -/
structure At (s : Shared) (request : BalanceRequest) (pool : Option ℤ) (ended : Bool) (pc : Pc)
    (q : BalanceQuery) : Prop extends Own request q where
  shared : q.store.shared = s.hold request pool ended
  pc : q.checkIn.pc = pc
  pending : attendanceSum q.checkIn.pending = 0

/-- The state a query starts from: in step, without the attendance. -/
structure Fresh (s : Shared) (request : BalanceRequest) : Prop extends InStep s where
  key : s.dayKeys request.key = false

theorem Fresh.log (h : Fresh s request) : request.log ∉ s.logs := by
  intro hlog
  have hkey := (h.keys request.userId request.today).mpr hlog
  rw [← BalanceRequest.key, h.key] at hkey
  exact Bool.false_ne_true hkey

theorem InStep.available (h : InStep s) : s.available = s.left := by
  unfold Shared.available
  cases hpool : s.pool with
  | none => rfl
  | some present => exact h.pool present hpool

theorem At.held (h : At s request pool ended pc q) (hfresh : Fresh s request) : Held request q where
  toOwn := h.toOwn
  key := by simp [h.shared, Shared.hold]
  log := by
    rw [h.shared]
    exact hfresh.log

/-- A command before the day's key is deleted has to go through, and so has what follows. -/
theorem At.endsWell_iff (h : At s request pool ended pc q) (hfresh : Fresh s request)
    (hkeeps : pc.keepsKey = true) (hrecord : pc ≠ .record)
    (hstep : redisStep q.store.shared q.checkIn =
      some (s.hold request pool' ended', q.checkIn.goto pc')) {C : Prop}
    (hnext : ∀ q', At s request pool' ended' pc' q' → q'.broken = q.broken →
      (EndsWell s plan request subscription granted clock n ⟨p + 1, q'⟩ ↔ C)) :
    EndsWell s plan request subscription granted clock (n + 1) ⟨p, q⟩ ↔ plan.Proceeds pc ∧ C := by
  obtain rfl := h.pc
  have hafter : At s request pool' ended' pc'
      (q.goOn (s.hold request pool' ended') (q.checkIn.goto pc')) :=
    ⟨⟨h.userId, h.today, h.closed⟩, rfl, rfl, h.pending⟩
  rw [(h.held hfresh).endsWell_iff hkeeps hrecord hstep, hnext _ hafter rfl]

/-- A query after which the day's key is free and the counter as before. -/
theorem givenBack_of_free (hinStep : InStep s) (hpool : ∀ present ∈ pool, present = s.left)
    (h : Own request r.2.world) (hpending : attendanceSum r.2.world.checkIn.pending = 0)
    (hshared : r.2.world.store.shared = { s with pool := pool, ended := ended }) :
    GivenBack request s (landed plan request subscription granted r) := by
  suffices hsame : ∃ txs, attendanceSum txs = 0 ∧ landed plan request subscription granted r =
      { s with pool := pool, ended := ended, transactions := s.transactions ++ txs } by
    obtain ⟨txs, hsum, hlanded⟩ := hsame
    have hleft : ({ s with pool := pool, ended := ended, transactions := s.transactions ++ txs } :
        Shared).left = s.left := by
      simp [Shared.left, hsum]
    rw [hlanded]
    refine ⟨fun _ => ⟨?_, rfl⟩, fun present hpresent => ?_, hinStep.keys, ?_⟩
    · rw [hinStep.available, Shared.available, hleft]
      cases hpresent : pool with
      | none => rfl
      | some present => exact hpool present hpresent
    · rw [hleft]
      exact hpool present hpresent
    · rw [hleft]
      exact hinStep.left_nonneg
  rcases landed_cases (r := r) with hlanded | hlanded
  · refine ⟨[], rfl, ?_⟩
    rw [hlanded, BalanceQuery.close, dropLog_of_none h.closed, hshared]
    simp
  · refine ⟨_, (attendanceSum_rewarded r.2.world request).trans hpending, ?_⟩
    rw [hlanded, hshared]

/-- The command that deletes the day's key, and a failure of it. -/
theorem At.release (hkey : s.dayKeys request.key = false) (hpc : pc.keepsKey = false)
    (h : At s request pool ended pc q) :
    (∃ done : Pc, done.inFlight = false ∧ redisStep q.store.shared q.checkIn =
      some ({ s with pool := pool, ended := ended }, q.checkIn.goto done)) ∧
    ∀ s', ∃ done, q.commandFailed s' = q.goOn s' (q.checkIn.goto done) := by
  have hfree : Function.update (Function.update s.dayKeys request.key true) request.key false =
      s.dayKeys := by
    rw [Function.update_idem, ← hkey, Function.update_eq_self]
  have hown : (q.checkIn.userId, q.checkIn.today) = request.key := by
    rw [h.userId, h.today]
    rfl
  have hdelete : q.store.shared.setDayKey q.checkIn false =
      { s with pool := pool, ended := ended } := by
    simp only [Shared.setDayKey, hown, h.shared, Shared.hold, hfree]
  obtain rfl := h.pc
  unfold redisStep BalanceQuery.commandFailed
  rw [hdelete]
  cases hcommand : q.checkIn.pc <;> simp only [hcommand, Pc.keepsKey, reduceCtorEq] at hpc
  · exact ⟨⟨_, rfl, rfl⟩, fun s' => ⟨_, rfl⟩⟩
  · exact ⟨⟨_, rfl, rfl⟩, fun s' => ⟨_, rfl⟩⟩

/-- The day's key is deleted last. -/
theorem endsWell_release (hfresh : Fresh s request) (hpool : ∀ present ∈ pool, present = s.left)
    (hpc : pc.keepsKey = false) (h : At s request pool ended pc q) :
    EndsWell s plan request subscription granted clock (n + 1) ⟨p, q⟩ ↔
      plan.Effective (.command pc) := by
  obtain ⟨⟨done, hdone, hstep⟩, hfailed⟩ := h.release hfresh.key hpc
  have hrecord : q.checkIn.pc ≠ .record := by
    intro hrecord
    simp [← h.pc, hrecord, Pc.keepsKey] at hpc
  have hfree : ∀ {r : Except Interrupt Unit × Frame BalanceQuery} {done : Pc},
      r.2.world = q.goOn { s with pool := pool, ended := ended } (q.checkIn.goto done) →
        GivenBack request s (landed plan request subscription granted r) := by
    intro r done hr
    have hown : Own request r.2.world := by
      rw [hr]
      exact ⟨h.userId, h.today, h.closed⟩
    have hpending : attendanceSum r.2.world.checkIn.pending = 0 := by
      rw [hr]
      exact h.pending
    exact givenBack_of_free hfresh.toInStep hpool hown hpending (congrArg (·.store.shared) hr)
  unfold EndsWell Plan.Effective Fate.Effective
  rw [commands_redis hrecord hstep, h.pc]
  cases hfate : plan.fate (.command pc) with
  | proceed =>
    refine iff_of_true ?_ (by simp)
    rw [commands_of_done hdone]
    exact hfree rfl
  | fail =>
    cases hsent : plan.sent (.command pc) with
    | true =>
      obtain ⟨other, hother⟩ := hfailed { s with pool := pool, ended := ended }
      exact iff_of_true (hfree hother) (by simp)
    | false =>
      have hheld := h.held hfresh
      exact iff_of_false (Held.not_givenBack (hheld.commandFailed hheld.key hheld.log)) (by simp)
  | cancel done =>
    cases done with
    | true => exact iff_of_true (hfree rfl) (by simp)
    | false => exact iff_of_false (Held.not_givenBack (h.held hfresh)) (by simp)

/-- The flag is set, then the day's key is deleted. -/
theorem endsWell_markEnded (hfresh : Fresh s request)
    (hpool : ∀ present ∈ pool, present = s.left) (h : At s request pool ended .markEnded q) :
    EndsWell s plan request subscription granted clock (n + 2) ⟨p, q⟩ ↔
      plan.Proceeds .markEnded ∧ plan.Effective (.command .release) := by
  have hmarked : redisStep q.store.shared q.checkIn =
      some (s.hold request pool true, q.checkIn.goto .release) := by
    rw [redisStep_markEnded h.pc, h.shared]
    rfl
  exact h.endsWell_iff hfresh rfl (by simp) hmarked fun q' h' _ =>
    endsWell_release hfresh hpool rfl h'

/-- A counter to which what was taken has been given back holds what is left of the pool. -/
theorem eq_left_of_present {present : ℤ} (hpresent : present + ATTENDANCE_TOKENS = s.left) :
    ∀ other ∈ some (present + ATTENDANCE_TOKENS), other = s.left := by
  intro other hother
  rw [← hpresent]
  exact (Option.some.inj hother).symm

/-- What was too much to take is given back. -/
theorem endsWell_giveBack (hfresh : Fresh s request) {present : ℤ}
    (hpresent : present + ATTENDANCE_TOKENS = s.left)
    (h : At s request (some present) ended .giveBack q) :
    EndsWell s plan request subscription granted clock (n + 3) ⟨p, q⟩ ↔ plan.Returns := by
  have hpool := eq_left_of_present hpresent
  have hgiven : redisStep q.store.shared q.checkIn =
      some (s.hold request (some (present + ATTENDANCE_TOKENS)) ended,
        q.checkIn.goto .markEnded) := by
    rw [redisStep_giveBack h.pc, h.shared]
    rfl
  rw [h.endsWell_iff hfresh rfl (by simp) hgiven fun q' h' _ =>
    endsWell_markEnded hfresh hpool h']
  exact ⟨fun ⟨hgive, hmark, hrelease⟩ => ⟨hgive, hmark, hrelease⟩,
    fun h => ⟨h.giveBack, h.markEnded, h.release⟩⟩

/-- A decrement is undone, then the day's key is deleted. -/
theorem endsWell_undo (hfresh : Fresh s request) {present : ℤ}
    (hpresent : present + ATTENDANCE_TOKENS = s.left)
    (h : At s request (some present) ended .undo q) :
    EndsWell s plan request subscription granted clock (n + 2) ⟨p, q⟩ ↔
      plan.Proceeds .undo ∧ plan.Effective (.command .undoRelease) := by
  have hpool := eq_left_of_present hpresent
  have hundone : redisStep q.store.shared q.checkIn =
      some (s.hold request (some (present + ATTENDANCE_TOKENS)) ended,
        q.checkIn.goto .undoRelease) := by
    rw [redisStep, h.pc, h.shared]
    rfl
  exact h.endsWell_iff hfresh rfl (by simp) hundone fun q' h' _ =>
    endsWell_release hfresh hpool rfl h'

/-- An attendance that is not committed leaves the day's key held. -/
theorem At.close_record (h : At s request pool ended .record q) (clock : Clock) :
    (q.record clock).close.shared = s.hold request pool ended := by
  simp [BalanceQuery.record, BalanceQuery.goOn, BalanceQuery.close, Shared.dropLog, h.shared]

theorem At.log (h : At s request pool ended pc q) : q.log = request.log := by
  rw [BalanceQuery.log, h.userId, h.today]
  rfl

/-- A committed attendance keeps Redis and the database in step. -/
theorem givenBack_granted (hfresh : Fresh s request) (ended : Bool) {present : ℤ}
    (hpresent : present + ATTENDANCE_TOKENS = s.left) (henough : 0 ≤ present)
    {txs : List TokenTransaction} (htxs : attendanceSum txs = ATTENDANCE_TOKENS) :
    GivenBack request s { s.hold request (some present) ended with
      logs := request.log :: s.logs
      transactions := s.transactions ++ txs } := by
  have hleft : ATTENDANCE_EVENT_TOTAL_POOL - attendanceSum (s.transactions ++ txs) = present := by
    rw [attendanceSum_append, htxs]
    unfold Shared.left at hpresent
    omega
  refine ⟨fun hlost => absurd List.mem_cons_self hlost, fun other hother => ?_,
    fun userId today => ?_, henough.trans_eq hleft.symm⟩
  · exact (Option.some.inj hother).symm.trans hleft.symm
  -- The key and the row of the request are new together; the others are as they were.
  · rw [List.mem_cons, ← hfresh.keys userId today]
    by_cases hkey : (userId, today) = request.key
    · have hlog : (⟨userId, today⟩ : AttendanceLog) = request.log := by
        obtain ⟨rfl, rfl⟩ := Prod.mk.inj hkey
        rfl
      rw [hkey]
      simp [Shared.hold, hlog]
    · have hlog : (⟨userId, today⟩ : AttendanceLog) ≠ request.log := by
        intro hlog
        obtain ⟨rfl, rfl⟩ := AttendanceLog.mk.inj hlog
        exact hkey rfl
      simp [Shared.hold, hkey, hlog]

/-- The attendance is recorded. -/
theorem At.givenBack_record (hfresh : Fresh s request) {present : ℤ}
    (hpresent : present + ATTENDANCE_TOKENS = s.left) (henough : 0 ≤ present)
    (h : At s request (some present) ended .record q) (hbroken : q.broken = false)
    (hrecord : plan.Proceeds .record) :
    GivenBack request s (landed plan request subscription granted
      (.ok (), ⟨p, q.record clock⟩)) ↔ plan.Grants := by
  by_cases hcommits : Commits plan (q.record clock)
  · refine iff_of_true ?_ ⟨hrecord, hcommits.signupBonus, hcommits.signupClaim,
      hcommits.referralClaim, hcommits.commit⟩
    have hpending : attendanceSum ((q.record clock).rewarded request).checkIn.pending =
        ATTENDANCE_TOKENS := by
      rw [attendanceSum_rewarded]
      simp [BalanceQuery.record, BalanceQuery.goOn, attendanceSum_credit, h.pending]
    have hgranted := givenBack_granted hfresh ended hpresent henough hpending
    rw [landed_of_commits (by simp) hcommits]
    simpa [BalanceQuery.record, BalanceQuery.goOn, h.shared, h.log, Shared.hold] using hgranted
  · refine iff_of_false ?_ fun hgrants => hcommits ⟨⟨hbroken, hgrants.signupBonus,
      hgrants.signupClaim, hgrants.referralClaim⟩, hgrants.commit⟩
    rw [landed_of_not_commits hcommits, h.close_record]
    exact not_givenBack (Function.update_self ..) hfresh.log

/-- The attendance is recorded and committed, or the decrement is undone. -/
theorem endsWell_record (hfresh : Fresh s request) {present : ℤ}
    (hpresent : present + ATTENDANCE_TOKENS = s.left) (henough : 0 ≤ present)
    (h : At s request (some present) ended .record q) (hbroken : q.broken = false) :
    EndsWell s plan request subscription granted clock (n + 3) ⟨p, q⟩ ↔
      plan.Grants ∨ plan.Undoes := by
  have hlog : q.log ∉ q.store.shared.logs := by
    rw [h.log, h.shared]
    exact hfresh.log
  unfold EndsWell
  rw [commands_record h.pc]
  cases hfate : plan.fate (.command .record) with
  | proceed =>
    have hundoes : ¬ plan.Undoes := fun h => by simpa [hfate] using h.record
    simp only [if_neg hlog]
    rw [commands_of_done rfl, h.givenBack_record hfresh hpresent henough hbroken hfate]
    exact (or_iff_left hundoes).symm
  | fail =>
    have hgrants : ¬ plan.Grants := fun h => by simpa [Plan.Proceeds, hfate] using h.record
    have hafter : At s request (some present) ended .undo q.recordFailed := by
      refine ⟨⟨h.userId, h.today, rfl⟩, ?_, rfl, rfl⟩
      exact (dropLog_of_none h.closed).trans h.shared
    rw [or_iff_right hgrants]
    refine (endsWell_undo hfresh hpresent hafter).trans ?_
    exact ⟨fun ⟨hundo, hrelease⟩ => ⟨hfate, hundo, hrelease⟩, fun h => ⟨h.undo, h.release⟩⟩
  | cancel done =>
    refine iff_of_false ?_ ?_
    · cases done with
      | true =>
        have hlanded : landed plan request subscription granted
            (.error .cancelled, ⟨p + 1, q.record clock⟩) = s.hold request (some present) ended :=
          h.close_record clock
        simp only [if_true]
        rw [hlanded]
        exact not_givenBack (Function.update_self ..) hfresh.log
      | false => exact Held.not_givenBack (h.held hfresh)
    · rintro (hgrants | hundoes)
      · simpa [Plan.Proceeds, hfate] using hgrants.record
      · simpa [hfate] using hundoes.record

/-- Tokens are taken, to be granted or to be given back. -/
theorem endsWell_decrement (hfresh : Fresh s request)
    (h : At s request (some s.left) ended .decrement q) (hbroken : q.broken = false) :
    EndsWell s plan request subscription granted clock (n + 4) ⟨p, q⟩ ↔ plan.Follows s := by
  have hpresent : s.left - ATTENDANCE_TOKENS + ATTENDANCE_TOKENS = s.left := Int.sub_add_cancel ..
  have htaken : redisStep q.store.shared q.checkIn =
      some (s.hold request (some (s.left - ATTENDANCE_TOKENS)) ended,
        q.checkIn.goto (if s.left - ATTENDANCE_TOKENS < 0 then .giveBack else .record)) := by
    rw [redisStep_decrement h.pc, h.shared]
    rfl
  by_cases henough : ATTENDANCE_TOKENS ≤ s.left
  · rw [if_neg (by omega)] at htaken
    rw [h.endsWell_iff hfresh rfl (by simp) htaken fun q' h' hsame =>
      endsWell_record hfresh hpresent (by omega) h' (hsame.trans hbroken)]
    -- The condition speaks of the counter, which in step holds what is left of the pool.
    rw [← hfresh.available] at henough
    exact ⟨fun ⟨htake, hgrant⟩ => ⟨htake, fun _ => hgrant, fun hshort => by omega⟩,
      fun h => ⟨h.decrement, h.enough henough⟩⟩
  · rw [if_pos (by omega)] at htaken
    rw [h.endsWell_iff hfresh rfl (by simp) htaken fun q' h' _ =>
      endsWell_giveBack hfresh hpresent h']
    rw [← hfresh.available] at henough
    exact ⟨fun ⟨htake, hgive⟩ => ⟨htake, fun hmore => absurd hmore henough, fun _ => hgive⟩,
      fun h => ⟨h.decrement, h.short (not_le.mp henough)⟩⟩

/-- A missing counter is set, and the event ended if it is too small. -/
theorem endsWell_setPool (hfresh : Fresh s request)
    (h : At s request none ended (.setPool s.left) q) (hbroken : q.broken = false) :
    EndsWell s plan request subscription granted clock (n + 6) ⟨p, q⟩ ↔
      plan.Proceeds (.setPool s.left) ∧
        (s.left < ATTENDANCE_TOKENS → plan.Proceeds .setEnded) ∧ plan.Follows s := by
  have hset : redisStep q.store.shared q.checkIn =
      some (s.hold request (some s.left) ended,
        q.checkIn.goto (if s.left < ATTENDANCE_TOKENS then .setEnded else .decrement)) := by
    rw [redisStep_setPool h.pc, h.shared]
    rfl
  by_cases hshort : s.left < ATTENDANCE_TOKENS
  · rw [if_pos hshort] at hset
    rw [h.endsWell_iff hfresh rfl (by simp) hset fun q' h' hsame => by
      have hended : redisStep q'.store.shared q'.checkIn =
          some (s.hold request (some s.left) true, q'.checkIn.goto .decrement) := by
        rw [redisStep_setEnded h'.pc, h'.shared]
        rfl
      exact h'.endsWell_iff hfresh rfl (by simp) hended fun q'' h'' hsame' =>
        endsWell_decrement hfresh h'' (hsame'.trans (hsame.trans hbroken))]
    simp [hshort]
  · rw [if_neg hshort] at hset
    rw [h.endsWell_iff hfresh rfl (by simp) hset fun q' h' hsame =>
      endsWell_decrement hfresh h' (hsame.trans hbroken)]
    simp [hshort]

/-- The counter is found, or it is set. -/
theorem endsWell_getPool (hfresh : Fresh s request)
    (h : At s request s.pool ended .getPool q) (hbroken : q.broken = false) :
    EndsWell s plan request subscription granted clock (n + 8) ⟨p, q⟩ ↔
      plan.Finds s ∧ plan.Follows s := by
  have hmax : max 0 s.left = s.left := max_eq_right hfresh.left_nonneg
  cases hpool : s.pool with
  | none =>
    have hmissed : redisStep q.store.shared q.checkIn =
        some (s.hold request none ended, q.checkIn.goto .sumDistributed) := by
      rw [redisStep, h.pc, h.shared, hpool]
      rfl
    rw [h.endsWell_iff hfresh rfl (by simp) hmissed fun q' h' hsame => by
      have hsummed : redisStep q'.store.shared q'.checkIn =
          some (s.hold request none ended, q'.checkIn.goto (.setPool s.left)) := by
        rw [redisStep, h'.pc, h'.shared, ← hmax]
        rfl
      exact h'.endsWell_iff hfresh rfl (by simp) hsummed fun q'' h'' hsame' =>
        endsWell_setPool hfresh h'' (hsame'.trans (hsame.trans hbroken))]
    constructor
    · rintro ⟨hget, hsum, hset, hended, hfollows⟩
      exact ⟨⟨hget, fun _ => hsum, fun _ => hmax.symm ▸ hset, fun _ => hmax.symm ▸ hended⟩,
        hfollows⟩
    · rintro ⟨hfinds, hfollows⟩
      exact ⟨hfinds.getPool, hfinds.sumDistributed hpool, hmax ▸ hfinds.setPool hpool,
        hmax ▸ hfinds.setEnded hpool, hfollows⟩
  | some present =>
    obtain rfl := hfresh.pool present hpool
    have hfound : redisStep q.store.shared q.checkIn =
        some (s.hold request (some s.left) ended, q.checkIn.goto .decrement) := by
      rw [redisStep, h.pc, h.shared, hpool]
      rfl
    rw [h.endsWell_iff hfresh rfl (by simp) hfound fun q' h' hsame =>
      endsWell_decrement hfresh h' (hsame.trans hbroken)]
    constructor
    · rintro ⟨hget, hfollows⟩
      exact ⟨⟨hget, by simp [hpool], by simp [hpool], by simp [hpool]⟩, hfollows⟩
    · rintro ⟨hfinds, hfollows⟩
      exact ⟨hfinds.getPool, hfollows⟩

/-- The check-in is at a command and has changed nothing. -/
structure Idle (s : Shared) (request : BalanceRequest) (pc : Pc) (q : BalanceQuery) : Prop extends
    Own request q where
  shared : q.store.shared = s
  pc : q.checkIn.pc = pc
  pending : attendanceSum q.checkIn.pending = 0
  intact : q.broken = false

/-- A query whose check-in has changed nothing loses nothing. -/
theorem Idle.givenBack (hinStep : InStep s) (h : Idle s request pc r.2.world) :
    GivenBack request s (landed plan request subscription granted r) :=
  givenBack_of_free hinStep hinStep.pool h.toOwn h.pending h.shared

theorem Idle.goOn (h : Idle s request pc q) :
    Idle s request pc' (q.goOn s (q.checkIn.goto pc')) :=
  ⟨⟨h.userId, h.today, h.closed⟩, rfl, rfl, h.pending, h.intact⟩

/-- The first two commands leave the check-in where it is when they fail. -/
theorem Idle.commandFailed (h : Idle s request pc q) (hpc : pc = .checkEnded ∨ pc = .acquire)
    (s' : Shared) : q.commandFailed s' = q.goOn s' (q.checkIn.goto (.returned false "")) := by
  unfold BalanceQuery.commandFailed
  rw [h.pc]
  rcases hpc with rfl | rfl <;> rfl

/-- A command that changes nothing, whether it fails or not. -/
theorem Idle.endsWell_iff (hinStep : InStep s) (h : Idle s request pc q)
    (hpc : pc = .checkEnded ∨ pc = .acquire)
    (hstep : redisStep q.store.shared q.checkIn = some (s, q.checkIn.goto pc')) :
    EndsWell s plan request subscription granted clock (n + 1) ⟨p, q⟩ ↔
      (plan.Proceeds pc →
        EndsWell s plan request subscription granted clock n
          ⟨p + 1, q.goOn s (q.checkIn.goto pc')⟩) := by
  have hrecord : q.checkIn.pc ≠ .record := by
    rw [h.pc]
    rcases hpc with rfl | rfl <;> simp
  unfold EndsWell Plan.Proceeds
  rw [commands_redis hrecord hstep, h.pc]
  cases hfate : plan.fate (.command pc) with
  | proceed => simp
  | fail =>
    refine iff_of_true ?_ (by simp)
    rw [h.shared, ite_self, h.commandFailed hpc]
    have hafter : Idle s request (.returned false "") _ := h.goOn
    exact hafter.givenBack hinStep
  | cancel done =>
    refine iff_of_true ?_ (by simp)
    cases done with
    | true =>
      have hafter : Idle s request pc' _ := h.goOn
      exact hafter.givenBack hinStep
    | false => exact h.givenBack hinStep

/-- The day's key is acquired, unless it is there. -/
theorem endsWell_acquire (hinStep : InStep s) (h : Idle s request .acquire q) :
    EndsWell s plan request subscription granted clock (n + 9) ⟨p, q⟩ ↔
      (s.dayKeys request.key = false → plan.Effective (.command .acquire) →
        Covers plan s) := by
  have hown : (q.checkIn.userId, q.checkIn.today) = request.key := by
    rw [h.userId, h.today]
    rfl
  cases hkey : s.dayKeys request.key with
  | true =>
    have hthere : redisStep q.store.shared q.checkIn =
        some (s, q.checkIn.goto (.returned false "already_checked_in")) := by
      simp [redisStep, h.pc, h.shared, hown, hkey]
    rw [h.endsWell_iff hinStep (.inr rfl) hthere]
    refine iff_of_true (fun _ => ?_) (by simp)
    unfold EndsWell
    rw [commands_of_done rfl]
    exact h.goOn.givenBack hinStep
  | false =>
    have hfresh : Fresh s request := ⟨hinStep, hkey⟩
    have hacquired : redisStep q.store.shared q.checkIn =
        some (s.hold request s.pool s.ended, q.checkIn.goto .getPool) := by
      simp [redisStep, h.pc, h.shared, hown, hkey, Shared.setDayKey, Shared.hold]
    have hafter : At s request s.pool s.ended .getPool
        (q.goOn (s.hold request s.pool s.ended) (q.checkIn.goto .getPool)) :=
      ⟨⟨h.userId, h.today, h.closed⟩, rfl, rfl, h.pending⟩
    have hheld := hafter.held hfresh
    unfold EndsWell
    rw [commands_redis (by simp [h.pc]) hacquired, h.pc]
    cases hfate : plan.fate (.command .acquire) with
    | proceed =>
      refine (endsWell_getPool hfresh hafter h.intact).trans ?_
      constructor
      · rintro ⟨hfinds, hfollows⟩ - -
        exact ⟨hfate, hfinds, hfollows⟩
      · intro h
        have hcovers := h rfl (.inl (.inl hfate))
        exact ⟨hcovers.finds, hcovers.follows⟩
    | fail =>
      -- The exception hides whether the key has been set; if it has, nobody deletes it.
      have hcovers : ¬ Covers plan s := fun h => by simpa [Plan.Proceeds, hfate] using h.acquire
      cases hsent : plan.sent (.command .acquire) with
      | true =>
        refine iff_of_false (Held.not_givenBack ?_) fun h =>
          hcovers (h rfl (.inr ⟨hfate, hsent⟩))
        simp only [if_true, h.commandFailed (.inr rfl)]
        exact ⟨⟨h.userId, h.today, h.closed⟩, hheld.key, hheld.log⟩
      | false =>
        refine iff_of_true ?_ fun _ heffective => ?_
        · simp only [Bool.false_eq_true, if_false, h.shared, h.commandFailed (.inr rfl)]
          exact h.goOn.givenBack hinStep
        · simp [Plan.Effective, Fate.Effective, hfate, hsent] at heffective
    | cancel done =>
      have hcovers : ¬ Covers plan s := fun h => by simpa [Plan.Proceeds, hfate] using h.acquire
      cases done with
      | true =>
        exact iff_of_false (Held.not_givenBack hheld) fun h => hcovers (h rfl (.inl (.inr hfate)))
      | false =>
        refine iff_of_true (h.givenBack hinStep) fun _ heffective => ?_
        simp [Plan.Effective, Fate.Effective, hfate] at heffective

theorem endsWell_checkEnded (hinStep : InStep s) (h : Idle s request .checkEnded q) :
    EndsWell s plan request subscription granted clock (n + 10) ⟨p, q⟩ ↔
      (plan.Proceeds .checkEnded → s.ended = false → s.dayKeys request.key = false →
        plan.Effective (.command .acquire) →
          Covers plan s) := by
  cases hended : s.ended with
  | true =>
    have hover : redisStep q.store.shared q.checkIn =
        some (s, q.checkIn.goto (.returned false "event_ended")) := by
      simp [redisStep, h.pc, h.shared, hended]
    rw [h.endsWell_iff hinStep (.inl rfl) hover]
    refine iff_of_true (fun _ => ?_) (by simp)
    unfold EndsWell
    rw [commands_of_done rfl]
    exact h.goOn.givenBack hinStep
  | false =>
    have hlasts : redisStep q.store.shared q.checkIn = some (s, q.checkIn.goto .acquire) := by
      simp [redisStep, h.pc, h.shared, hended]
    rw [h.endsWell_iff hinStep (.inl rfl) hlasts, endsWell_acquire hinStep h.goOn]
    simp

/-! ## Runs of queries -/

/-- The tokens of the month are no attendance. -/
theorem idle_begun (store : Store) (request : BalanceRequest) :
    Idle store.shared request .checkEnded (request.begun store) := by
  refine ⟨⟨rfl, rfl, rfl⟩, rfl, rfl, ?_, rfl⟩
  exact attendanceSum_run ⟨request.userId, request.clock 0,
    .ensureMonthlyTokens (request.subscription store)⟩ (store.tokens request.userId)
      (by simp [TokenFunction.types])

/-- What a query takes and does not commit is given back exactly if it is covered. -/
theorem givenBack_iff (hinStep : InStep store.shared) :
    GivenBack request store.shared (serve store request plan).2.shared ↔
      Covered store request plan := by
  by_cases hbegins : Begins store request plan
  · have hidle := idle_begun store request
    obtain ⟨granted, hrun⟩ := getTokenBalance_of_begins hbegins
    rw [attendance_bind] at hrun
    cases hfate : plan.fate .getRedis with
    | proceed =>
      rw [hfate] at hrun
      have hlanded : (serve store request plan).2.shared =
          landed plan request (request.subscription store) granted
            (commands plan (request.clock 1) 10 ⟨2 + 1, request.begun store⟩) := by
        rw [serve, hrun]
        rfl
      rw [hlanded]
      refine (endsWell_checkEnded (n := 0) hinStep hidle).trans ?_
      constructor
      · exact fun h hacquires =>
          h hacquires.checkEnded hacquires.lasts hacquires.first hacquires.acquire
      · exact fun h hchecked hlasts hfirst hacquire =>
          h ⟨hbegins, hfate, hchecked, hlasts, hfirst, hacquire⟩
    | fail =>
      rw [hfate] at hrun
      refine iff_of_true ?_ fun hacquires => by simpa [hfate] using hacquires.getRedis
      have hlanded : (serve store request plan).2.shared =
          landed plan request (request.subscription store) granted
            (.ok (), ⟨2 + 1, request.begun store⟩) := by
        rw [serve, hrun]
        rfl
      rw [hlanded]
      exact Idle.givenBack hinStep hidle
    | cancel done =>
      rw [hfate] at hrun
      refine iff_of_true ?_ fun hacquires => by simpa [hfate] using hacquires.getRedis
      have hlanded : (serve store request plan).2.shared = store.shared := by
        rw [serve, hrun]
        rfl
      rw [hlanded]
      exact ⟨fun _ => ⟨rfl, rfl⟩, hinStep⟩
  · obtain ⟨e, hserve⟩ := serve_of_not_begins hbegins
    rw [hserve]
    exact iff_of_true ⟨fun _ => ⟨rfl, rfl⟩, hinStep⟩ fun hacquires =>
      absurd hacquires.toBegins hbegins

/-- What holds of every query of a run of queries, one after another. -/
def Along (P : Store → BalanceRequest → Plan → Prop) :
    Store → List (BalanceRequest × Plan) → Prop
  | _, [] => True
  | store, (request, plan) :: queries =>
    P store request plan ∧ Along P (serve store request plan).2 queries

/-- A query loses no attendance. -/
def LosesNothing (store : Store) (request : BalanceRequest) (plan : Plan) : Prop :=
  GivenBack request store.shared (serve store request plan).2.shared

/-- From a store in step, no query of a run loses an attendance exactly if every query of the
run is covered. -/
theorem along_losesNothing_iff (hinStep : InStep store.shared)
    (queries : List (BalanceRequest × Plan)) :
    Along LosesNothing store queries ↔ Along Covered store queries := by
  -- By induction on the run; a query that loses nothing leaves the store in step.
  induction queries generalizing store with
  | nil => exact Iff.rfl
  | cons query queries ih =>
    obtain ⟨request, plan⟩ := query
    have hfirst : LosesNothing store request plan ↔ Covered store request plan :=
      givenBack_iff hinStep
    constructor
    · rintro ⟨hgiven, hrest⟩
      exact ⟨hfirst.mp hgiven, (ih hgiven.inStep).mp hrest⟩
    · rintro ⟨hcovered, hrest⟩
      have hgiven := hfirst.mpr hcovered
      exact ⟨hgiven, (ih hgiven.inStep).mpr hrest⟩

/-- The store before anyone has asked for a balance. -/
def Store.empty : Store := ⟨⟨none, false, fun _ => false, [], []⟩, fun _ => none, fun _ _ => none⟩

theorem inStep_empty : InStep Store.empty.shared :=
  ⟨fun _ h => (nomatch h), fun _ _ => by simp [Store.empty], by decide⟩

/-- The first request, at the start of the event. -/
def firstRequest : BalanceRequest :=
  ⟨1, (Datetime.utc 2026 1 10 9).date, .utc 2026 1 10 9, fun _ _ => .utc 2026 1 10 9⟩

theorem begins_first (hplan : ∀ point, point ≠ .commit → plan.fate point = .proceed) :
    Begins Store.empty firstRequest plan :=
  ⟨hplan _ (by simp), hplan _ (by simp), _, rfl⟩

/-- A commit that fails, after everything has gone through. -/
def commitFails : Plan where
  fate point := if point = .commit then .fail else .proceed
  sent _ := false

theorem not_losesNothing : ¬ ∀ store request plan, InStep store.shared →
    LosesNothing store request plan := by
  intro h
  have hproceeds : ∀ point, point ≠ .commit → commitFails.fate point = .proceed :=
    fun point hpoint => if_neg hpoint
  have hacquires : Acquires commitFails Store.empty firstRequest :=
    ⟨begins_first hproceeds, rfl, rfl, rfl, rfl, .inl (.inl rfl)⟩
  have hcovers := (givenBack_iff inStep_empty).mp (h _ _ commitFails inStep_empty) hacquires
  have henough : ATTENDANCE_TOKENS ≤ Store.empty.shared.available := by decide
  rcases hcovers.follows.enough henough with hgrants | hundoes
  · have hcommit := hgrants.commit
    simp [Plan.Effective, Fate.Effective, commitFails] at hcommit
  · have hrecord := hundoes.record
    simp [commitFails] at hrecord

/-- A plan under which everything goes through. -/
def undisturbed : Plan := ⟨fun _ => .proceed, fun _ => false⟩

/-- A plan under which the attendance cannot be recorded, and all else goes through. -/
def recordFails : Plan where
  fate point := if point = .command .record then .fail else .proceed
  sent _ := false

theorem covered_recordFails (store : Store) (request : BalanceRequest) :
    Covered store request recordFails := fun _ =>
  ⟨rfl, ⟨rfl, fun _ => rfl, fun _ => rfl, fun _ _ => rfl⟩, rfl,
    fun _ => .inr ⟨rfl, rfl, .inl (.inl rfl)⟩, fun _ => ⟨rfl, rfl, .inl (.inl rfl)⟩⟩

theorem covered_undisturbed (store : Store) (request : BalanceRequest) :
    Covered store request undisturbed := fun _ =>
  ⟨rfl, ⟨rfl, fun _ => rfl, fun _ => rfl, fun _ _ => rfl⟩, rfl,
    fun _ => .inl ⟨rfl, rfl, rfl, rfl, .inl (.inl rfl)⟩, fun _ => ⟨rfl, rfl, .inl (.inl rfl)⟩⟩

/-- The first attendance cannot be recorded and is given back, and the next query records it. -/
theorem along_losesNothing_undone :
    Along LosesNothing Store.empty [(firstRequest, recordFails), (firstRequest, undisturbed)] ∧
      let undone := (serve Store.empty firstRequest recordFails).2
      undone.shared.logs = [] ∧ undone.shared.pool = some 30000 ∧
        (serve undone firstRequest undisturbed).2.shared.logs = [firstRequest.log] := by
  refine ⟨(along_losesNothing_iff inStep_empty _).mpr ⟨covered_recordFails _ _,
    covered_undisturbed _ _, trivial⟩, ?_, ?_, ?_⟩
  · decide +kernel
  · decide +kernel
  · decide +kernel

end Logit.Tokens
