import Logit.Tokens.LostAttendance

/-!
# Balances in spite of attendance trouble

The balance query catches every exception of its check-in, so that trouble with Redis does
not keep a user from the balance and from what is due. It goes on with the same session,
though, and a session that a failed statement has broken takes no further statement. The
index of the attendance rows refuses a second row for a user and a date; Redis keeps a
check-in from getting that far only as long as it has the day's key.

So the query fails exactly if the check-in reaches the row while there is one. A plan that
is not in the table of monthly grants fails it too, with or without an attendance.

## Main definitions

* `AttendanceTrouble` — only Redis fails, and only with exceptions
* `Served` — the query is answered, and has committed what is due
* `Reaches` — the check-in comes to write its row

## Main results

* `balance_served_iff` — a query is served exactly if its plan is in the table, and its check-in
  does not come to write a row that is there
-/

namespace Logit.Tokens

open Calendar Concurrency Python Subscriptions

/-- The places at which a query waits for Redis. -/
def Point.redis : Point → Bool
  | .getRedis => true
  | .command pc => pc ≠ .sumDistributed ∧ pc ≠ .record
  | _ => false

/-- Only Redis fails, and only with exceptions. -/
structure AttendanceTrouble (plan : Plan) : Prop where
  statements : ∀ point, point.redis = false → plan.fate point = .proceed
  exceptions : ∀ point done, plan.fate point ≠ .cancel done

/-- What calls of one user leave, one after another: the row, and what they record. -/
def runCalls (calls : List TokenCall) (row : Option UserToken) :
    Option UserToken × List TokenTransaction :=
  calls.foldl (fun found call =>
    (some (call.run found.1).1, found.2 ++ (call.run found.1).2)) (row, [])

/-- The calls of a request, with the credit of an attendance or without. -/
def BalanceRequest.calls (request : BalanceRequest) (store : Store) (checkedIn : Bool) :
    List TokenCall :=
  balanceRequest request.userId request.clock (request.subscription store) checkedIn

/-- The query is answered, and it has committed what is due. -/
def Served (store : Store) (request : BalanceRequest)
    (r : Except Interrupt TokenBalanceResponse × Store) : Prop :=
  ∃ response, r.1 = .ok response ∧
    r.2.tokens = Function.update store.tokens request.userId
      (runCalls (request.calls store response.attendanceReceived)
        (store.tokens request.userId)).1 ∧
    r.2.shared.transactions = store.shared.transactions ++
      (runCalls (request.calls store response.attendanceReceived)
        (store.tokens request.userId)).2

/-- The plan of the user is in the table of monthly grants. -/
def PlanKnown (store : Store) (request : BalanceRequest) : Prop :=
  (PLAN_MONTHLY_TOKENS (planKey (request.subscription store))).isSome

/-- The check-in comes to write its row. -/
structure Reaches (store : Store) (request : BalanceRequest) (plan : Plan) : Prop where
  getRedis : plan.fate .getRedis = .proceed
  checkEnded : plan.Proceeds .checkEnded
  lasts : store.shared.ended = false
  acquire : plan.Proceeds .acquire
  first : store.shared.dayKeys request.key = false
  finds : plan.Finds store.shared
  decrement : plan.Proceeds .decrement
  enough : ATTENDANCE_TOKENS ≤ store.shared.available

@[simp] theorem runCalls_append (calls : List TokenCall) (call : TokenCall)
    (row : Option UserToken) :
    runCalls (calls ++ [call]) row =
      (some (call.run (runCalls calls row).1).1,
        (runCalls calls row).2 ++ (call.run (runCalls calls row).1).2) := by
  simp [runCalls]

variable {store : Store} {request : BalanceRequest} {plan : Plan} {clock : Clock}
  {q : BalanceQuery} {f : Frame BalanceQuery} {n p : ℕ}

/-! ## After the check-in -/

/-- The open transaction is what some calls leave. -/
structure Wrote (store : Store) (request : BalanceRequest) (calls : List TokenCall)
    (q : BalanceQuery) : Prop where
  row : q.row = (runCalls calls (store.tokens request.userId)).1
  pending : q.checkIn.pending = (runCalls calls (store.tokens request.userId)).2

theorem Wrote.write {calls : List TokenCall} (h : Wrote store request calls q) (call : TokenCall) :
    Wrote store request (calls ++ [call]) (q.write (call.run q.row).1 (call.run q.row).2) := by
  refine ⟨?_, ?_⟩
  · rw [runCalls_append, ← h.row]
    rfl
  · rw [runCalls_append, ← h.row, ← h.pending]
    rfl

/-- The store has changed in Redis and in the index of the attendance rows at most. -/
structure SameTables (store : Store) (request : BalanceRequest) (q : BalanceQuery) : Prop where
  userId : q.checkIn.userId = request.userId
  tokens : q.store.tokens = store.tokens
  transactions : q.store.shared.transactions = store.shared.transactions

/-- The calls before the signup bonus. -/
def BalanceRequest.opening (request : BalanceRequest) (store : Store) (checkedIn : Bool) :
    List TokenCall :=
  ⟨request.userId, request.clock 0, .ensureMonthlyTokens (request.subscription store)⟩ ::
    if checkedIn then
      [⟨request.userId, request.clock 1,
        .credit ATTENDANCE_TOKENS.toNat .attendance (some "출석 이벤트")⟩]
    else []

theorem calls_eq (request : BalanceRequest) (store : Store) (checkedIn : Bool) :
    request.calls store checkedIn = request.opening store checkedIn ++
      [⟨request.userId, request.clock 2, .grantSignupBonus⟩] ++
      [⟨request.userId, request.clock 3, .claimSignupBonusNotification⟩] ++
      [⟨request.userId, request.clock 4, .claimReferralNotification⟩] := by
  simp [BalanceRequest.calls, balanceRequest, BalanceRequest.opening]

/-- The remaining calls are those of the request. -/
theorem Wrote.rewarded {checkedIn : Bool}
    (h : Wrote store request (request.opening store checkedIn) q) :
    Wrote store request (request.calls store checkedIn) (q.rewarded request) := by
  rw [calls_eq]
  exact ((h.write _).write _).write _

theorem answer_of_known (hknown : PlanKnown store request) (granted : Bool × ℤ) (received : Bool)
    (told : ℤ × ℤ × ℤ) (balance : ℤ) : ∃ response,
    answer (request.subscription store) granted received told balance f = (.ok response, f) ∧
      response.attendanceReceived = received := by
  obtain ⟨amount, hamount⟩ := Option.isSome_iff_exists.mp hknown
  unfold answer
  rw [hamount]
  exact ⟨_, rfl, rfl⟩

/-- A query that has passed its check-in with an intact session is served. -/
theorem served_of_intact (hplan : AttendanceTrouble plan) (hknown : PlanKnown store request)
    (hbroken : f.world.broken = false) (htables : SameTables store request f.world)
    (hwrote : Wrote store request (request.opening store f.world.attendanceReceived) f.world)
    (granted : Bool × ℤ) :
    Served store request
      ((conclude plan request (request.subscription store) granted f).1,
        (conclude plan request (request.subscription store) granted f).2.world.close) := by
  have hrewarded : Rewarded plan f.world := ⟨hbroken, hplan.statements _ rfl,
    hplan.statements _ rfl, hplan.statements _ rfl⟩
  obtain ⟨told, hclaims⟩ := hrewarded.claimRewards request
  have hcommit : commitQuery plan ⟨f.point + 1 + 1 + 1, f.world.rewarded request⟩ =
      (.ok (), ⟨f.point + 1 + 1 + 1 + 1, (f.world.rewarded request).commit⟩) := by
    have hintact : (f.world.rewarded request).broken = false := hbroken
    rw [commitQuery, Action.get_bind_apply, if_neg (by simp [hintact])]
    exact Action.suspend_of_proceed (hplan.statements _ rfl)
  obtain ⟨response, hanswer, hreceived⟩ :=
    answer_of_known (f := ⟨f.point + 1 + 1 + 1 + 1, (f.world.rewarded request).commit⟩) hknown
      granted f.world.attendanceReceived told (getBalance (f.world.rewarded request).row)
  have hrun : conclude plan request (request.subscription store) granted f =
      (.ok response, ⟨f.point + 1 + 1 + 1 + 1, (f.world.rewarded request).commit⟩) := by
    rw [conclude, Action.get_bind_apply, Action.bind_apply_ok hclaims, Action.get_bind_apply,
      Action.bind_apply_ok hcommit, hanswer]
  have hdone := hwrote.rewarded
  rw [hrun]
  refine ⟨response, rfl, ?_, ?_⟩
  · change Function.update f.world.store.tokens f.world.checkIn.userId
      (f.world.rewarded request).row = _
    rw [htables.tokens, htables.userId, hdone.row, hreceived]
  · change f.world.store.shared.transactions ++ (f.world.rewarded request).checkIn.pending = _
    rw [htables.transactions, hdone.pending, hreceived]

/-- A query with a broken session is not served. -/
theorem not_served_of_broken (hbroken : f.world.broken = true) (granted : Bool × ℤ)
    (after : Store) : ¬ Served store request
      ((conclude plan request (request.subscription store) granted f).1, after) := by
  have hrewarded : ¬ Rewarded plan f.world := fun h => by simpa [hbroken] using h.intact
  obtain ⟨e, f', hrun, -⟩ := claimRewards_stops request hrewarded
  rw [conclude, Action.get_bind_apply, Action.bind_apply_error hrun]
  rintro ⟨response, hresponse, -⟩
  cases hresponse

/-- A query whose plan is not in the table is not served. -/
theorem not_served_of_unknown (hunknown : ¬ PlanKnown store request) (granted : Bool × ℤ)
    (after : Store) : ¬ Served store request
      ((conclude plan request (request.subscription store) granted f).1, after) := by
  have hnone : PLAN_MONTHLY_TOKENS (planKey (request.subscription store)) = none := by
    simpa [PlanKnown] using hunknown
  rintro ⟨response, hresponse, -⟩
  simp only [conclude, Action.get_bind_apply] at hresponse
  rcases hclaims : claimRewards plan request f with ⟨e | told, f'⟩
  · rw [Action.bind_apply_error hclaims] at hresponse
    cases hresponse
  · rw [Action.bind_apply_ok hclaims, Action.get_bind_apply] at hresponse
    rcases hcommit : commitQuery plan f' with ⟨e | _, f''⟩
    · rw [Action.bind_apply_error hcommit] at hresponse
      cases hresponse
    · rw [Action.bind_apply_ok hcommit, answer, hnone] at hresponse
      cases hresponse

/-! ## The check-in -/

/-- A query that is to run some commands of its check-in is served. -/
abbrev Survives (store : Store) (request : BalanceRequest) (plan : Plan) (granted : Bool × ℤ)
    (clock : Clock) (n : ℕ) (f : Frame BalanceQuery) : Prop :=
  Served store request
    ((resume (conclude plan request (request.subscription store) granted)
        (commands plan clock n f)).1,
      (resume (conclude plan request (request.subscription store) granted)
        (commands plan clock n f)).2.world.close)

/-- The check-in is at a command, and the session is intact. -/
structure Working (store : Store) (request : BalanceRequest) (pool : Option ℤ) (ended : Bool)
    (pc : Pc) (q : BalanceQuery) : Prop extends SameTables store request q where
  today : q.checkIn.today = request.today
  logs : q.store.shared.logs = store.shared.logs
  pool : q.store.shared.pool = pool
  ended : q.store.shared.ended = ended
  pc : q.checkIn.pc = pc
  wrote : Wrote store request (request.opening store false) q
  intact : q.broken = false

variable {pool pool' : Option ℤ} {ended ended' : Bool} {pc pc' : Pc} {granted : Bool × ℤ}
  {s : Shared}

theorem Working.goOn (h : Working store request pool ended pc q) (hpool : s.pool = pool')
    (hended : s.ended = ended') (hlogs : s.logs = q.store.shared.logs)
    (htransactions : s.transactions = q.store.shared.transactions) :
    Working store request pool' ended' pc' (q.goOn s (q.checkIn.goto pc')) :=
  ⟨⟨h.userId, h.tokens, htransactions.trans h.transactions⟩, h.today, hlogs.trans h.logs, hpool,
    hended, rfl, ⟨h.wrote.row, h.wrote.pending⟩, h.intact⟩

/-- A query whose check-in has returned without an attendance is served. -/
theorem Working.served (hplan : AttendanceTrouble plan) (hknown : PlanKnown store request)
    {message : String} (h : Working store request pool ended (.returned false message) f.world) :
    Served store request
      ((conclude plan request (request.subscription store) granted f).1,
        (conclude plan request (request.subscription store) granted f).2.world.close) := by
  have hreceived : f.world.attendanceReceived = false := by
    rw [BalanceQuery.attendanceReceived, h.pc]
  exact served_of_intact hplan hknown h.intact h.toSameTables (hreceived.symm ▸ h.wrote) granted

theorem Working.survives (hplan : AttendanceTrouble plan) (hknown : PlanKnown store request)
    {message : String} (h : Working store request pool ended (.returned false message) q) :
    Survives store request plan granted clock n ⟨p, q⟩ := by
  have hdone : q.checkIn.pc.inFlight = false := by
    rw [h.pc]
    rfl
  unfold Survives
  rw [commands_of_done hdone]
  exact Working.served hplan hknown h

/-- The commands that no handler runs, and that write nothing to the database. -/
def Pc.outside : Pc → Bool
  | .record | .undo | .undoRelease => false
  | _ => true

/-- A command that fails leaves the session intact, and what is due is granted without the
attendance. -/
theorem Working.survives_iff (hplan : AttendanceTrouble plan) (hknown : PlanKnown store request)
    (h : Working store request pool ended pc q) (hpc : pc.outside = true)
    (hstep : redisStep q.store.shared q.checkIn = some (s, q.checkIn.goto pc'))
    (hpool : s.pool = pool') (hended : s.ended = ended') {C : Prop}
    (hnext : ∀ q', Working store request pool' ended' pc' q' → q'.store.shared = s →
      (Survives store request plan granted clock n ⟨p + 1, q'⟩ ↔ C)) :
    Survives store request plan granted clock (n + 1) ⟨p, q⟩ ↔ (plan.Proceeds pc → C) := by
  have hsame := redisStep_untouched hstep
  have hrecord : q.checkIn.pc ≠ .record := by
    intro hrecord
    rw [← h.pc, hrecord] at hpc
    cases hpc
  have hafter : Working store request pool' ended' pc' (q.goOn s (q.checkIn.goto pc')) :=
    h.goOn hpool hended hsame.logs hsame.transactions
  unfold Survives Plan.Proceeds
  rw [commands_redis hrecord hstep, h.pc]
  cases hfate : plan.fate (.command pc) with
  | proceed => simpa using hnext _ hafter rfl
  | fail =>
    refine iff_of_true ?_ (by simp)
    have hfailed : ∀ s', q.commandFailed s' = q.goOn s' (q.checkIn.goto (.returned false "")) := by
      intro s'
      unfold BalanceQuery.commandFailed
      rw [h.pc]
      cases pc with
      | sumDistributed => exact absurd ((hplan.statements _ rfl).symm.trans hfate) (by simp)
      | undo => cases hpc
      | undoRelease => cases hpc
      | _ => rfl
    simp only [hfailed]
    cases plan.sent (.command pc) with
    | true => exact Working.served hplan hknown (h.goOn rfl rfl hsame.logs hsame.transactions)
    | false => exact Working.served hplan hknown (h.goOn rfl rfl rfl rfl)
  | cancel done => exact absurd hfate (hplan.exceptions _ _)

/-- What is too much to take is given back, whatever fails. -/
theorem survives_giveBack (hplan : AttendanceTrouble plan) (hknown : PlanKnown store request)
    (h : Working store request pool ended .giveBack q) :
    Survives store request plan granted clock (n + 3) ⟨p, q⟩ := by
  refine (h.survives_iff hplan hknown rfl (redisStep_giveBack h.pc) rfl h.ended
    fun q' h' _ => iff_true_intro ?_).mpr fun _ => trivial
  refine (h'.survives_iff hplan hknown rfl (redisStep_markEnded h'.pc) h'.pool rfl
    fun q'' h'' _ => iff_true_intro ?_).mpr fun _ => trivial
  exact (h''.survives_iff hplan hknown rfl (redisStep_release h''.pc) h''.pool h''.ended
    fun _ hdone _ => iff_true_intro (hdone.survives hplan hknown)).mpr fun _ => trivial

theorem commandFailed_broken (h : q.broken = true) : (q.commandFailed s).broken = true := by
  unfold BalanceQuery.commandFailed
  split
  · rfl
  · exact h
  · exact h
  · exact h

/-- Once a session is broken it stays so. -/
theorem commands_broken : Keeps (fun q => q.broken = true) (commands plan clock n) := by
  have hcommand : Keeps (fun q => q.broken = true) (command plan clock) := by
    refine Keeps.get.bind fun q => ?_
    split
    · refine Keeps.get.bind fun q => Keeps.swallow (Keeps.suspend ?_ ?_)
      · exact fun _ _ => rfl
      · exact fun _ h => h
    · split
      · exact Keeps.suspend (fun _ h => commandFailed_broken h) fun _ h => h
      · exact Keeps.pure ()
  -- By induction on the number of commands.
  induction n with
  | zero => exact Keeps.pure ()
  | succ n ih => exact hcommand.bind fun _ => ih

/-- A query whose session is broken during the check-in is not served. -/
theorem not_survives_of_broken (h : f.world.broken = true) :
    ¬ Survives store request plan granted clock n f := by
  have hafter : (commands plan clock n f).2.world.broken = true := commands_broken f h
  unfold Survives
  rcases hrun : commands plan clock n f with ⟨(_ | _) | _, f'⟩ <;> rw [hrun] at hafter
  · exact not_served_of_broken hafter granted _
  · rintro ⟨response, hresponse, -⟩
    cases hresponse
  · exact not_served_of_broken hafter granted _

/-- The credit of an attendance is one of the calls of the request. -/
theorem Working.wrote_record (h : Working store request pool ended .record q) :
    Wrote store request (request.opening store true) (q.record (request.clock 1)) := by
  have hwrote := h.wrote.write ⟨request.userId, request.clock 1,
    .credit ATTENDANCE_TOKENS.toNat .attendance (some "출석 이벤트")⟩
  have hcredit : q.record (request.clock 1) = { (q.write
      (credit request.userId (request.clock 1) q.row ATTENDANCE_TOKENS .attendance
        (some "출석 이벤트")).token
      (credit request.userId (request.clock 1) q.row ATTENDANCE_TOKENS .attendance
        (some "출석 이벤트")).recorded) with
      store := (q.record (request.clock 1)).store
      checkIn := (q.record (request.clock 1)).checkIn } := by
    simp [BalanceQuery.record, BalanceQuery.goOn, BalanceQuery.write, h.userId]
  refine ⟨?_, ?_⟩
  · rw [hcredit]
    exact hwrote.row
  · simp only [BalanceQuery.record, BalanceQuery.goOn, h.userId]
    exact hwrote.pending

/-- The row is written, unless there is one. -/
theorem survives_record (hplan : AttendanceTrouble plan) (hknown : PlanKnown store request)
    (h : Working store request pool ended .record q) :
    Survives store request plan granted (request.clock 1) (n + 1) ⟨p, q⟩ ↔
      request.log ∉ store.shared.logs := by
  have hlog : q.log = request.log := by
    rw [BalanceQuery.log, h.userId, h.today]
    rfl
  unfold Survives
  rw [commands_record h.pc, hplan.statements (.command .record) rfl]
  simp only [hlog, h.logs]
  by_cases hrecorded : request.log ∈ store.shared.logs
  · rw [if_pos hrecorded]
    have hbroken : ¬ Survives store request plan granted (request.clock 1) n
        ⟨p + 1, q.recordFailed⟩ := not_survives_of_broken rfl
    exact iff_of_false hbroken (not_not.mpr hrecorded)
  · rw [if_neg hrecorded, commands_of_done rfl]
    refine iff_of_true ?_ hrecorded
    exact served_of_intact (f := ⟨p + 1, q.record (request.clock 1)⟩) hplan hknown h.intact
      ⟨h.userId, h.tokens, h.transactions⟩ h.wrote_record granted

/-- Tokens are taken, and the row is reached if enough were there. -/
theorem survives_decrement (hplan : AttendanceTrouble plan) (hknown : PlanKnown store request)
    {present : ℤ} (h : Working store request (some present) ended .decrement q) :
    Survives store request plan granted (request.clock 1) (n + 4) ⟨p, q⟩ ↔
      (plan.Proceeds .decrement → ATTENDANCE_TOKENS ≤ present →
        request.log ∉ store.shared.logs) := by
  have hpool : q.store.shared.pool.getD 0 = present := by
    rw [h.pool, Option.getD_some]
  have hstep := redisStep_decrement (s := q.store.shared) h.pc
  rw [hpool] at hstep
  by_cases henough : ATTENDANCE_TOKENS ≤ present
  · rw [if_neg (by omega)] at hstep
    rw [h.survives_iff hplan hknown rfl hstep rfl h.ended
      fun q' h' _ => survives_record hplan hknown h']
    simp [henough]
  · rw [if_pos (by omega)] at hstep
    rw [h.survives_iff hplan hknown rfl hstep rfl h.ended
      fun q' h' _ => iff_true_intro (survives_giveBack hplan hknown h')]
    simp [henough]

/-- A missing counter is set. -/
theorem survives_setPool (hplan : AttendanceTrouble plan) (hknown : PlanKnown store request)
    {remaining : ℤ} (h : Working store request pool ended (.setPool remaining) q) :
    Survives store request plan granted (request.clock 1) (n + 6) ⟨p, q⟩ ↔
      (plan.Proceeds (.setPool remaining) → plan.Proceeds .decrement →
        ATTENDANCE_TOKENS ≤ remaining → request.log ∉ store.shared.logs) := by
  have hstep := redisStep_setPool (s := q.store.shared) h.pc
  by_cases hshort : remaining < ATTENDANCE_TOKENS
  · have hless : ¬ ATTENDANCE_TOKENS ≤ remaining := not_le.mpr hshort
    rw [if_pos hshort] at hstep
    rw [h.survives_iff hplan hknown rfl hstep rfl h.ended fun q' h' _ =>
      h'.survives_iff hplan hknown rfl (redisStep_setEnded h'.pc) h'.pool rfl fun q'' h'' _ =>
        survives_decrement hplan hknown h'']
    simp [hless]
  · rw [if_neg hshort] at hstep
    exact h.survives_iff hplan hknown rfl hstep rfl h.ended fun q' h' _ =>
      survives_decrement hplan hknown h'

/-- The counter is found, or it is set. -/
theorem survives_getPool (hplan : AttendanceTrouble plan) (hknown : PlanKnown store request)
    (h : Working store request store.shared.pool ended .getPool q) :
    Survives store request plan granted (request.clock 1) (n + 8) ⟨p, q⟩ ↔
      (plan.Finds store.shared → plan.Proceeds .decrement →
        ATTENDANCE_TOKENS ≤ store.shared.available → request.log ∉ store.shared.logs) := by
  cases hpool : store.shared.pool with
  | none =>
    have hmissed : redisStep q.store.shared q.checkIn =
        some (q.store.shared, q.checkIn.goto .sumDistributed) := by
      simp only [redisStep, h.pc, h.pool, hpool]
    -- A negative rest is set to zero, which is too little all the same.
    have hleft : ATTENDANCE_TOKENS ≤ max 0 store.shared.left ↔
        ATTENDANCE_TOKENS ≤ store.shared.available := by
      have hamount : ¬ ATTENDANCE_TOKENS ≤ 0 := by decide
      simp [Shared.available, hpool, hamount]
    rw [h.survives_iff hplan hknown rfl hmissed h.pool h.ended fun q' h' _ => by
      have hsum := redisStep_sumDistributed (s := q'.store.shared) h'.pc
      rw [h'.transactions] at hsum
      exact h'.survives_iff hplan hknown rfl hsum h'.pool h'.ended fun q'' h'' _ =>
        survives_setPool hplan hknown h'']
    constructor
    · intro hsurvives hfinds htaken henough
      exact hsurvives hfinds.getPool (hfinds.sumDistributed hpool) (hfinds.setPool hpool) htaken
        (hleft.mpr henough)
    · intro hsurvives hget hsum hset htaken henough
      exact hsurvives ⟨hget, fun _ => hsum, fun _ => hset, fun _ hshort =>
        absurd henough (not_le.mpr hshort)⟩ htaken (hleft.mp henough)
  | some present =>
    have hfound : redisStep q.store.shared q.checkIn =
        some (q.store.shared, q.checkIn.goto .decrement) := by
      simp only [redisStep, h.pc, h.pool, hpool]
    rw [h.survives_iff hplan hknown rfl hfound (h.pool.trans hpool) h.ended fun q' h' _ =>
      survives_decrement hplan hknown h']
    have havailable : store.shared.available = present := by
      rw [Shared.available, hpool, Option.getD_some]
    constructor
    · intro hsurvives hfinds htaken henough
      exact hsurvives hfinds.getPool htaken (havailable ▸ henough)
    · intro hsurvives hget htaken henough
      exact hsurvives ⟨hget, by simp [hpool], by simp [hpool], by simp [hpool]⟩ htaken
        (havailable.symm ▸ henough)

/-- The day's key is acquired, unless it is there. -/
theorem survives_acquire (hplan : AttendanceTrouble plan) (hknown : PlanKnown store request)
    (h : Working store request store.shared.pool ended .acquire q)
    (hkeys : q.store.shared.dayKeys = store.shared.dayKeys) :
    Survives store request plan granted (request.clock 1) (n + 9) ⟨p, q⟩ ↔
      (plan.Proceeds .acquire → store.shared.dayKeys request.key = false →
        plan.Finds store.shared → plan.Proceeds .decrement →
          ATTENDANCE_TOKENS ≤ store.shared.available → request.log ∉ store.shared.logs) := by
  have hkey : q.store.shared.dayKeys (q.checkIn.userId, q.checkIn.today) =
      store.shared.dayKeys request.key := by
    rw [hkeys, h.userId, h.today]
    rfl
  cases hthere : store.shared.dayKeys request.key with
  | true =>
    have hstep : redisStep q.store.shared q.checkIn =
        some (q.store.shared, q.checkIn.goto (.returned false "already_checked_in")) := by
      simp [redisStep, h.pc, hkey, hthere]
    rw [h.survives_iff hplan hknown rfl hstep h.pool h.ended fun q' h' _ =>
      iff_true_intro (h'.survives hplan hknown)]
    simp
  | false =>
    have hstep : redisStep q.store.shared q.checkIn =
        some (q.store.shared.setDayKey q.checkIn true, q.checkIn.goto .getPool) := by
      simp [redisStep, h.pc, hkey, hthere]
    rw [h.survives_iff hplan hknown rfl hstep h.pool h.ended fun q' h' _ =>
      survives_getPool hplan hknown h']
    simp

/-- The check-in of a request is served, unless it comes to write a row that is there. -/
theorem survives_checkEnded (hplan : AttendanceTrouble plan) (hknown : PlanKnown store request) :
    Survives store request plan granted (request.clock 1) (n + 10) ⟨p, request.begun store⟩ ↔
      (plan.Proceeds .checkEnded → store.shared.ended = false → plan.Proceeds .acquire →
        store.shared.dayKeys request.key = false → plan.Finds store.shared →
          plan.Proceeds .decrement → ATTENDANCE_TOKENS ≤ store.shared.available →
            request.log ∉ store.shared.logs) := by
  have h : Working store request store.shared.pool store.shared.ended .checkEnded
      (request.begun store) :=
    ⟨⟨rfl, rfl, rfl⟩, rfl, rfl, rfl, rfl, rfl, ⟨rfl, rfl⟩, rfl⟩
  cases hended : store.shared.ended with
  | true =>
    have hstep : redisStep (request.begun store).store.shared (request.begun store).checkIn =
        some (store.shared,
          (request.begun store).checkIn.goto (.returned false "event_ended")) := by
      simp [redisStep, h.pc, h.ended, hended]
      rfl
    rw [h.survives_iff hplan hknown rfl hstep rfl rfl fun q' h' _ =>
      iff_true_intro (h'.survives hplan hknown)]
    simp
  | false =>
    have hstep : redisStep (request.begun store).store.shared (request.begun store).checkIn =
        some (store.shared, (request.begun store).checkIn.goto .acquire) := by
      simp [redisStep, h.pc, h.ended, hended]
      rfl
    rw [h.survives_iff hplan hknown rfl hstep rfl rfl fun q' h' hsame =>
      survives_acquire hplan hknown h' (congrArg Shared.dayKeys hsame)]
    simp

/-! ## Every query -/

/-- A plan in the table is granted its tokens, where they are due. -/
theorem begins_of_known (hplan : AttendanceTrouble plan) (hknown : PlanKnown store request) :
    Begins store request plan := by
  refine ⟨hplan.statements _ rfl, hplan.statements _ rfl, ?_⟩
  obtain ⟨amount, hamount⟩ := Option.isSome_iff_exists.mp hknown
  unfold ensureMonthlyTokens
  dsimp only
  rw [hamount]
  split_ifs
  · exact ⟨_, rfl⟩
  · exact ⟨_, rfl⟩

/-- A query that gets as far as Redis is served, unless it comes to write a row that is there. -/
theorem served_of_connected (hplan : AttendanceTrouble plan) (hknown : PlanKnown store request)
    (hredis : plan.fate .getRedis = .proceed) :
    Served store request (serve store request plan) ↔
      ¬ (request.log ∈ store.shared.logs ∧ Reaches store request plan) := by
  obtain ⟨granted, hrun⟩ := getTokenBalance_of_begins (begins_of_known hplan hknown)
  rw [attendance_bind, hredis] at hrun
  have hserve : Served store request (serve store request plan) ↔ Survives store request plan
      granted (request.clock 1) 10 ⟨2 + 1, request.begun store⟩ := by
    rw [serve, hrun]
  rw [hserve, survives_checkEnded (n := 0) hplan hknown]
  constructor
  · rintro h ⟨hrecorded, hreaches⟩
    exact h hreaches.checkEnded hreaches.lasts hreaches.acquire hreaches.first hreaches.finds
      hreaches.decrement hreaches.enough hrecorded
  · exact fun h hchecked hlasts hacquired hfirst hfinds htaken henough hrecorded =>
      h ⟨hrecorded, hredis, hchecked, hlasts, hacquired, hfirst, hfinds, htaken, henough⟩

/-- A query without Redis is served. -/
theorem served_of_disconnected (hplan : AttendanceTrouble plan) (hknown : PlanKnown store request)
    (hredis : plan.fate .getRedis = .fail) : Served store request (serve store request plan) := by
  obtain ⟨granted, hrun⟩ := getTokenBalance_of_begins (begins_of_known hplan hknown)
  rw [attendance_bind, hredis] at hrun
  rw [serve, hrun]
  exact served_of_intact (f := ⟨2 + 1, request.begun store⟩) hplan hknown rfl
    ⟨rfl, rfl, rfl⟩ ⟨rfl, rfl⟩ granted

/-- No query is served whose plan is not in the table. -/
theorem not_served_serve (hunknown : ¬ PlanKnown store request) :
    ¬ Served store request (serve store request plan) := by
  by_cases hbegins : Begins store request plan
  · obtain ⟨granted, hrun⟩ := getTokenBalance_of_begins hbegins
    rw [serve, hrun, attendance_bind]
    cases plan.fate .getRedis with
    | proceed =>
      dsimp only
      rcases commands plan (request.clock 1) 10 ⟨2 + 1, request.begun store⟩ with ⟨(_ | _) | _, f'⟩
      · exact not_served_of_unknown hunknown granted _
      · rintro ⟨response, hresponse, -⟩
        cases hresponse
      · exact not_served_of_unknown hunknown granted _
    | fail => exact not_served_of_unknown hunknown granted _
    | cancel done =>
      rintro ⟨response, hresponse, -⟩
      cases hresponse
  · obtain ⟨e, hserve⟩ := serve_of_not_begins hbegins
    rw [hserve]
    rintro ⟨response, hresponse, -⟩
    cases hresponse

/-- In spite of trouble with Redis, a query is served exactly if its plan is in the table, and
its check-in does not come to write a row that is there. -/
theorem balance_served_iff (hplan : AttendanceTrouble plan) :
    Served store request (serve store request plan) ↔
      PlanKnown store request ∧
        ¬ (request.log ∈ store.shared.logs ∧ Reaches store request plan) := by
  by_cases hknown : PlanKnown store request
  · cases hredis : plan.fate .getRedis with
    | proceed =>
      rw [served_of_connected hplan hknown hredis]
      exact (and_iff_right hknown).symm
    | fail =>
      have hreaches : ¬ Reaches store request plan := fun h => by
        simpa [hredis] using h.getRedis
      exact iff_of_true (served_of_disconnected hplan hknown hredis)
        ⟨hknown, fun h => hreaches h.2⟩
    | cancel done => exact absurd hredis (hplan.exceptions _ _)
  · exact iff_of_false (not_served_serve hknown) fun h => hknown h.1

theorem attendanceTrouble_undisturbed : AttendanceTrouble undisturbed :=
  ⟨fun _ _ => rfl, fun _ _ => by simp [undisturbed]⟩

/-- A row of today's attendance, whose key Redis has lost. -/
def keyLost : Store :=
  { Store.empty with shared := { Store.empty.shared with logs := [firstRequest.log] } }

theorem reaches_keyLost : Reaches keyLost firstRequest undisturbed where
  getRedis := rfl
  checkEnded := rfl
  lasts := rfl
  acquire := rfl
  first := rfl
  finds := ⟨rfl, fun _ => rfl, fun _ => rfl, fun _ _ => rfl⟩
  decrement := rfl
  enough := by decide

theorem not_balance_served : ¬ ∀ store request plan, AttendanceTrouble plan →
    PlanKnown store request → Served store request (serve store request plan) := by
  intro h
  have hknown : PlanKnown keyLost firstRequest := rfl
  have hserved := h keyLost firstRequest undisturbed attendanceTrouble_undisturbed hknown
  exact (served_of_connected attendanceTrouble_undisturbed hknown rfl).mp hserved
    ⟨List.mem_singleton_self _, reaches_keyLost⟩

/-- Redis is out of reach. -/
def redisDown : Plan where
  fate point := if point = .getRedis then .fail else .proceed
  sent _ := false

theorem attendanceTrouble_redisDown : AttendanceTrouble redisDown where
  statements point hpoint := if_neg fun hredis => by simp [hredis, Point.redis] at hpoint
  exceptions point done := by
    by_cases hredis : point = .getRedis <;> simp [redisDown, hredis]

theorem served_redisDown : Served keyLost firstRequest (serve keyLost firstRequest redisDown) := by
  refine (balance_served_iff attendanceTrouble_redisDown).mpr ⟨rfl, fun h => ?_⟩
  have hredis := h.2.getRedis
  simp [redisDown] at hredis

end Logit.Tokens
