import Logit.Concurrency.Interruptible
import Logit.Tokens.Announcements
import Logit.Tokens.EventEnd

/-!
# The balance query

Whoever asks for a balance is first granted what is due: the tokens of the month, an
attendance, the signup bonus; and is told of rewards. All of it is one transaction, except
what the check-in does to Redis. The query catches the exceptions of the check-in, and goes
on with the same session.

Whatever the query waits for may fail, or the query may be cancelled there. A statement that
fails breaks the session: the database has given up the transaction, and the session takes no
further statement. A Redis command that fails may have taken effect, and so may a commit.

The check-in runs alone here, by the commands of `redisStep`.

## Main definitions

* `Point`, `Plan` — where a query waits, and what happens there
* `Store`, `BalanceQuery` — the tables and Redis, and a query at work on them
* `command`, `checkInAlone` — a command of a check-in, and all of them
* `getTokenBalance`, `serve` — the query, and what it leaves when it is over

## Main results

* `commands_done` — a check-in comes to an end
-/

namespace Logit.Tokens

open Calendar Concurrency Python Subscriptions

/-! ## What may happen -/

/-- The places at which a balance query waits. -/
inductive Point
  | subscription
  | monthlyGrant
  | getRedis
  /-- A command of the check-in, or its row and its credit. -/
  | command (pc : Pc)
  | signupBonus
  | signupClaim
  | referralClaim
  | commit
  deriving DecidableEq, Repr

/-- What happens at each place, and whether what fails there has taken effect all the same. -/
structure Plan where
  fate : Point → Fate
  sent : Point → Bool

/-- What a query waits for takes effect, whether it fails or not. -/
def Plan.Effective (plan : Plan) (point : Point) : Prop :=
  (plan.fate point).Effective ∨ plan.fate point = .fail ∧ plan.sent point = true

/-! ## The state of a query -/

/-- A user's request for the balance, on a date, with the instants its calls read. -/
structure BalanceRequest where
  userId : UUID
  today : Date
  now : Datetime
  clock : ℕ → Clock

/-- Redis and the committed tables; the index of attendance rows has those of open
transactions too. -/
structure Store where
  shared : Shared
  tokens : UUID → Option UserToken
  subscriptions : SubscriptionTable

/-- A query at work, with its check-in and the transactions it has open. -/
structure BalanceQuery where
  store : Store
  checkIn : CheckIn
  /-- The user's token row in the open transaction. -/
  row : Option UserToken
  /-- The database has given up the transaction. -/
  broken : Bool

/-- A query that has just started. -/
def BalanceQuery.start (store : Store) (request : BalanceRequest) : BalanceQuery where
  store := store
  checkIn := newCheckIn request.userId request.today
  row := store.tokens request.userId
  broken := false

namespace BalanceQuery

variable (q : BalanceQuery)

/-- The database gives up the transaction. -/
def giveUp : BalanceQuery := { q with broken := true }

/-- The token row and transactions are written to the open transaction. -/
def write (token : UserToken) (recorded : List TokenTransaction) : BalanceQuery :=
  { q with
    checkIn := { q.checkIn with pending := q.checkIn.pending ++ recorded }
    row := some token }

/-- The check-in has gone on, and has left Redis and the database in a state. -/
def goOn (s : Shared) (t : CheckIn) : BalanceQuery :=
  { q with store := { q.store with shared := s }, checkIn := t }

/-- The attendance row of the query's user and date. -/
def log : AttendanceLog := ⟨q.checkIn.userId, q.checkIn.today⟩

/-- The attendance row and the credit are written. -/
def record (clock : Clock) : BalanceQuery :=
  let outcome := credit q.checkIn.userId clock q.row ATTENDANCE_TOKENS .attendance
    (some "출석 이벤트")
  { q.goOn { q.store.shared with logs := q.log :: q.store.shared.logs }
      { q.checkIn with
        pc := .returned true "success"
        pending := q.checkIn.pending ++ outcome.recorded
        pendingLog := some q.log } with
    row := some outcome.token }

/-- The attendance row or the credit has failed, and the handler undoes the decrement. -/
def recordFailed : BalanceQuery :=
  (q.goOn (q.store.shared.dropLog q.checkIn) (q.checkIn.close .undo)).giveUp

/-- A command has failed and has left a state. -/
def commandFailed (s : Shared) : BalanceQuery :=
  match q.checkIn.pc with
  -- The only one that is sent to the database.
  | .sumDistributed => (q.goOn (s.dropLog q.checkIn) (q.checkIn.close .raised)).giveUp
  -- The exception of a handler takes the place of the one it handles.
  | .undo | .undoRelease => q.goOn s (q.checkIn.goto .raised)
  | _ => q.goOn s (q.checkIn.goto (.returned false ""))

/-- The open transaction is committed. -/
def commit : BalanceQuery :=
  { q with
    store :=
      { q.store with
        shared :=
          { q.store.shared with
            transactions := q.store.shared.transactions ++ q.checkIn.pending }
        tokens := Function.update q.store.tokens q.checkIn.userId q.row }
    checkIn := q.checkIn.close .finished }

/-- The session is closed, and what is still open is undone. -/
def close : Store := { q.store with shared := q.store.shared.dropLog q.checkIn }

/-- The check-in has granted an attendance. -/
def attendanceReceived : Bool :=
  match q.checkIn.pc with
  | .returned success _ => success
  | _ => false

end BalanceQuery

/-! ## The query -/

section Program

variable (plan : Plan)

/-- A statement of the database; a broken session takes none. -/
def statement (point : Point) (effect : BalanceQuery → BalanceQuery) :
    Action BalanceQuery Unit := do
  if (← Action.get).broken then Action.raise
  else Action.suspend (fun _ => plan.fate point) BalanceQuery.giveUp effect

/-- A call of the token service. -/
def call {α : Type} (point : Point) (function : Option UserToken → Outcome α) :
    Action BalanceQuery α := do
  let outcome := function (← Action.get).row
  statement plan point fun q => q.write outcome.token outcome.recorded
  match outcome.result with
  | .ok value => pure value
  | .error _ => Action.raise

/-- The attendance row and the credit. The index refuses a second row, and the exception is
handled by undoing the decrement. -/
def record (clock : Clock) : Action BalanceQuery Unit := do
  let q ← Action.get
  let fate := plan.fate (.command .record)
  Action.swallow (Action.suspend
    (fun _ => if fate = .proceed ∧ q.log ∈ q.store.shared.logs then .fail else fate)
    BalanceQuery.recordFailed (·.record clock))

/-- The next command of the check-in, if there is one. -/
def command (clock : Clock) : Action BalanceQuery Unit := do
  let q ← Action.get
  if q.checkIn.pc = .record then record plan clock
  else
    match redisStep q.store.shared q.checkIn with
    | some (s, t) =>
      let point := Point.command q.checkIn.pc
      Action.suspend (fun _ => plan.fate point)
        (·.commandFailed (if plan.sent point then s else q.store.shared)) (·.goOn s t)
    | none => pure ()

/-- Some of the next commands of the check-in. -/
def commands (clock : Clock) : ℕ → Action BalanceQuery Unit
  | 0 => pure ()
  | n + 1 => do
    command plan clock
    commands clock n

/-- The check-in; ten commands are enough. -/
def checkInAlone (clock : Clock) : Action BalanceQuery Unit := do
  commands plan clock 10
  match (← Action.get).checkIn.pc with
  | .returned .. => pure ()
  | _ => Action.raise

/-- `try: …check_in(…) except Exception: log`. -/
def attendance (clock : Clock) : Action BalanceQuery Unit :=
  Action.swallow do
    Action.suspend (fun _ => plan.fate .getRedis) id id
    checkInAlone plan clock

/-- The commit; when its exception is raised, it may have been carried out. -/
def commitQuery : Action BalanceQuery Unit := do
  if (← Action.get).broken then Action.raise
  else
    Action.suspend (fun _ => plan.fate .commit)
      (fun q => if plan.sent .commit then q.commit else q.giveUp) BalanceQuery.commit

end Program

/-- The answer to a balance query. -/
structure TokenBalanceResponse where
  balance : ℤ
  plan : String
  monthlyTokens : ℤ
  monthlyGrantReceived : Bool
  monthlyGrantAmount : ℤ
  signupBonusReceived : Bool
  signupBonusAmount : ℤ
  attendanceReceived : Bool
  attendanceAmount : ℤ
  referralRewardReceived : Bool
  referralRewardAmount : ℤ
  referralRewardCount : ℤ
  deriving DecidableEq, Repr

/-- The signup bonus, and the rewards the user is told of: the bonus, and the amount and number
of referrals. -/
def claimRewards (plan : Plan) (request : BalanceRequest) : Action BalanceQuery (ℤ × ℤ × ℤ) := do
  let _ ← call plan .signupBonus (grantSignupBonus request.userId (request.clock 2))
  let signupBonusAmount ← call plan .signupClaim
    (claimSignupBonusNotification request.userId (request.clock 3))
  let (referralAmount, referralCount) ← call plan .referralClaim
    (claimReferralNotification request.userId (request.clock 4))
  pure (signupBonusAmount, referralAmount, referralCount)

/-- What is answered once the query is committed; a plan that is not in the table raises. -/
def answer (subscription : Option Subscription) (granted : Bool × ℤ) (attendanceReceived : Bool)
    (told : ℤ × ℤ × ℤ) (balance : ℤ) : Action BalanceQuery TokenBalanceResponse :=
  let (wasGranted, grantedAmount) := granted
  let (signupBonusAmount, referralAmount, referralCount) := told
  match PLAN_MONTHLY_TOKENS (planKey subscription) with
  | none => Action.raise
  | some monthlyTokens =>
    pure {
      balance := balance
      plan := planKey subscription
      monthlyTokens := monthlyTokens
      monthlyGrantReceived := wasGranted
      monthlyGrantAmount := grantedAmount
      signupBonusReceived := 0 < signupBonusAmount
      signupBonusAmount := signupBonusAmount
      attendanceReceived := attendanceReceived
      attendanceAmount := if attendanceReceived then ATTENDANCE_TOKENS else 0
      referralRewardReceived := 0 < referralCount
      referralRewardAmount := referralAmount
      referralRewardCount := referralCount }

/-- What follows the check-in. -/
def conclude (plan : Plan) (request : BalanceRequest) (subscription : Option Subscription)
    (granted : Bool × ℤ) : Action BalanceQuery TokenBalanceResponse := do
  let attendanceReceived := (← Action.get).attendanceReceived
  let told ← claimRewards plan request
  let balance := getBalance (← Action.get).row
  commitQuery plan
  answer subscription granted attendanceReceived told balance

/-- The subscription a request finds active. -/
def BalanceRequest.subscription (request : BalanceRequest) (store : Store) : Option Subscription :=
  getActiveSubscription store.subscriptions request.userId .logit request.now

/-- `GET /tokens/balance`. -/
def getTokenBalance (plan : Plan) (request : BalanceRequest) :
    Action BalanceQuery TokenBalanceResponse := do
  statement plan .subscription id
  let subscription := request.subscription (← Action.get).store
  let (wasGranted, grantedAmount, _) ← call plan .monthlyGrant
    fun row => ensureMonthlyTokens request.userId (request.clock 0) row subscription
  attendance plan (request.clock 1)
  conclude plan request subscription (wasGranted, grantedAmount)

/-- A request with its session: what is answered, and what is left. -/
def serve (store : Store) (request : BalanceRequest) (plan : Plan) :
    Except Interrupt TokenBalanceResponse × Store :=
  let (result, f) := getTokenBalance plan request ⟨0, .start store request⟩
  (result, f.world.close)

/-! ## What the parts of a query do -/

section Runs

variable {plan : Plan} {clock : Clock} {f : Frame BalanceQuery} {s : Shared} {t : CheckIn} {n : ℕ}

/-- A command sent to Redis, or the sum over the database. -/
theorem commands_redis (hpc : f.world.checkIn.pc ≠ .record)
    (hstep : redisStep f.world.store.shared f.world.checkIn = some (s, t)) :
    commands plan clock (n + 1) f =
      match plan.fate (.command f.world.checkIn.pc) with
      | .proceed => commands plan clock n ⟨f.point + 1, f.world.goOn s t⟩
      | .fail => (.error .exception, ⟨f.point + 1, f.world.commandFailed
          (if plan.sent (.command f.world.checkIn.pc) then s else f.world.store.shared)⟩)
      | .cancel done =>
        (.error .cancelled, ⟨f.point + 1, if done then f.world.goOn s t else f.world⟩) := by
  have hcommand : command plan clock f =
      Action.suspend (fun _ => plan.fate (.command f.world.checkIn.pc))
        (·.commandFailed (if plan.sent (.command f.world.checkIn.pc) then s
          else f.world.store.shared)) (·.goOn s t) f := by
    rw [command, Action.get_bind_apply, if_neg hpc, hstep]
  rw [commands]
  cases hfate : plan.fate (.command f.world.checkIn.pc) with
  | proceed => exact Action.bind_apply_ok (hcommand.trans (Action.suspend_of_proceed hfate))
  | fail => exact Action.bind_apply_error (hcommand.trans (Action.suspend_of_fail hfate))
  | cancel done => exact Action.bind_apply_error (hcommand.trans (Action.suspend_of_cancel hfate))

/-- The attendance row and the credit; a failure is handled. -/
theorem commands_record (hpc : f.world.checkIn.pc = .record) :
    commands plan clock (n + 1) f =
      match plan.fate (.command .record) with
      | .proceed =>
        commands plan clock n ⟨f.point + 1,
          if f.world.log ∈ f.world.store.shared.logs then f.world.recordFailed
          else f.world.record clock⟩
      | .fail => commands plan clock n ⟨f.point + 1, f.world.recordFailed⟩
      | .cancel done =>
        (.error .cancelled, ⟨f.point + 1, if done then f.world.record clock else f.world⟩) := by
  have hcommand : command plan clock f = record plan clock f := by
    rw [command, Action.get_bind_apply, if_pos hpc]
  rw [commands]
  cases hfate : plan.fate (.command .record) with
  | proceed =>
    apply Action.bind_apply_ok (a := ())
    rw [hcommand, record, Action.get_bind_apply]
    by_cases htaken : f.world.log ∈ f.world.store.shared.logs <;>
      simp [Action.swallow, Action.suspend, hfate, htaken]
  | fail =>
    apply Action.bind_apply_ok (a := ())
    rw [hcommand, record, Action.get_bind_apply]
    simp [Action.swallow, Action.suspend, hfate]
  | cancel done =>
    apply Action.bind_apply_error
    rw [hcommand, record, Action.get_bind_apply]
    simp [Action.swallow, Action.suspend, hfate]

theorem commands_idle (hpc : f.world.checkIn.pc ≠ .record)
    (hstep : redisStep f.world.store.shared f.world.checkIn = none) :
    commands plan clock n f = (.ok (), f) := by
  induction n with
  | zero => rfl
  | succ n ih =>
    have hcommand : command plan clock f = (.ok (), f) := by
      rw [command, Action.get_bind_apply, if_neg hpc, hstep]
      rfl
    rw [commands, Action.bind_apply_ok hcommand, ih]

/-- A check-in that is over runs no command. -/
theorem commands_of_done (h : f.world.checkIn.pc.inFlight = false) :
    commands plan clock n f = (.ok (), f) := by
  have hrecord : f.world.checkIn.pc ≠ .record := by
    intro hpc
    simp [hpc, Pc.inFlight] at h
  refine commands_idle hrecord ?_
  unfold redisStep
  cases hpc : f.world.checkIn.pc <;> simp [hpc, Pc.inFlight] at h ⊢

/-- How many commands a check-in has before it at most. -/
def Pc.rank : Pc → ℕ
  | .checkEnded => 10
  | .acquire => 9
  | .getPool => 8
  | .sumDistributed => 7
  | .setPool _ => 6
  | .setEnded => 5
  | .decrement => 4
  | .giveBack | .record => 3
  | .markEnded | .undo => 2
  | .release | .undoRelease => 1
  | .returned .. | .raised | .finished => 0

theorem redisStep_rank {s' : Shared} {t' : CheckIn} (h : redisStep s t = some (s', t')) :
    t'.pc.rank < t.pc.rank := by
  obtain ⟨pc, rfl, hcommand⟩ := redisStep_cases h
  cases hcommand with
  | _ hpc => simp [hpc, CheckIn.goto, Pc.rank]

theorem inFlight_of_rank {pc : Pc} (h : pc.rank = 0) : pc.inFlight = false := by
  cases pc <;> first | rfl | cases h

theorem inFlight_of_redisStep (h : redisStep s t = none) (hpc : t.pc ≠ .record) :
    t.pc.inFlight = false := by
  unfold redisStep at h
  cases hcommand : t.pc <;> simp only [hcommand] at h hpc <;> (try split at h) <;>
    first | rfl | exact absurd rfl hpc | cases h

/-- A check-in that is not interrupted comes to an end. -/
theorem commands_done {f' : Frame BalanceQuery} (hrank : f.world.checkIn.pc.rank ≤ n)
    (h : commands plan clock n f = (.ok (), f')) : f'.world.checkIn.pc.inFlight = false := by
  -- By induction on the number of commands; each one lowers the rank.
  induction n generalizing f with
  | zero =>
    obtain rfl : f = f' := (Prod.mk.injEq .. ▸ h).2
    exact inFlight_of_rank (Nat.le_zero.mp hrank)
  | succ n ih =>
    by_cases hrecord : f.world.checkIn.pc = .record
    · have hrank' : 3 ≤ n + 1 := by simpa [hrecord, Pc.rank] using hrank
      rw [commands_record hrecord] at h
      split at h
      · refine ih ?_ h
        split_ifs
        · exact (show 2 ≤ n by omega)
        · exact Nat.zero_le n
      · refine ih ?_ h
        exact (show 2 ≤ n by omega)
      · cases h
    · cases hstep : redisStep f.world.store.shared f.world.checkIn with
      | none =>
        rw [commands_idle hrecord hstep] at h
        obtain rfl : f = f' := (Prod.mk.injEq .. ▸ h).2
        exact inFlight_of_redisStep hstep hrecord
      | some next =>
        rw [commands_redis hrecord hstep] at h
        split at h
        · have hless := redisStep_rank hstep
          exact ih (by simp only [BalanceQuery.goOn]; omega) h
        · cases h
        · cases h

/-! ### Calls -/

variable {α : Type} {point : Point} {function : Option UserToken → Outcome α}

theorem statement_of_proceed {effect : BalanceQuery → BalanceQuery}
    (hbroken : f.world.broken = false) (hfate : plan.fate point = .proceed) :
    statement plan point effect f = (.ok (), ⟨f.point + 1, effect f.world⟩) := by
  rw [statement, Action.get_bind_apply, if_neg (by simp [hbroken])]
  exact Action.suspend_of_proceed hfate

theorem call_of_proceed {value : α} (hbroken : f.world.broken = false)
    (hfate : plan.fate point = .proceed) (hresult : (function f.world.row).result = .ok value) :
    call plan point function f = (.ok value, ⟨f.point + 1,
      f.world.write (function f.world.row).token (function f.world.row).recorded⟩) := by
  rw [call, Action.get_bind_apply, Action.bind_apply_ok (statement_of_proceed hbroken hfate),
    hresult]
  rfl

theorem call_of_raise {error : TokenError} (hbroken : f.world.broken = false)
    (hfate : plan.fate point = .proceed)
    (hresult : (function f.world.row).result = .error error) :
    call plan point function f = (.error .exception, ⟨f.point + 1,
      f.world.write (function f.world.row).token (function f.world.row).recorded⟩) := by
  rw [call, Action.get_bind_apply, Action.bind_apply_ok (statement_of_proceed hbroken hfate),
    hresult]
  rfl

@[simp] theorem close_write (q : BalanceQuery) (token : UserToken)
    (recorded : List TokenTransaction) : (q.write token recorded).close = q.close := rfl

@[simp] theorem close_giveUp (q : BalanceQuery) : q.giveUp.close = q.close := rfl

/-- A statement that is not carried out, or is cancelled, stops the query and leaves nothing. -/
theorem statement_stops {effect : BalanceQuery → BalanceQuery}
    (heffect : ∀ q, (effect q).close = q.close)
    (h : f.world.broken = true ∨ plan.fate point ≠ .proceed) :
    ∃ e f', statement plan point effect f = (.error e, f') ∧ f'.world.close = f.world.close := by
  rw [statement, Action.get_bind_apply]
  by_cases hbroken : f.world.broken = true
  · rw [if_pos hbroken]
    exact ⟨_, _, rfl, rfl⟩
  · rw [if_neg hbroken]
    cases hfate : plan.fate point with
    | proceed => exact absurd hfate (h.resolve_left hbroken)
    | fail => exact ⟨_, _, Action.suspend_of_fail rfl, rfl⟩
    | cancel done =>
      refine ⟨_, _, Action.suspend_of_cancel rfl, ?_⟩
      cases done
      · rfl
      · exact heffect f.world

theorem call_stops (h : f.world.broken = true ∨ plan.fate point ≠ .proceed) :
    ∃ e f', call plan point function f = (.error e, f') ∧ f'.world.close = f.world.close := by
  let outcome := function f.world.row
  have heffect : ∀ q : BalanceQuery, (q.write outcome.token outcome.recorded).close = q.close :=
    fun _ => rfl
  obtain ⟨e, f', hrun, hclose⟩ := statement_stops heffect h
  exact ⟨e, f', by rw [call, Action.get_bind_apply, Action.bind_apply_error hrun], hclose⟩

theorem grantSignupBonus_result (userId : UUID) (clock : Clock) (row : Option UserToken) :
    ∃ granted, (grantSignupBonus userId clock row).result = .ok granted := by
  unfold grantSignupBonus
  dsimp only
  split_ifs
  · exact ⟨_, rfl⟩
  · exact ⟨_, rfl⟩

/-! ### After the check-in -/

/-- The calls before the commit go through. -/
structure Rewarded (plan : Plan) (q : BalanceQuery) : Prop where
  intact : q.broken = false
  signupBonus : plan.fate .signupBonus = .proceed
  signupClaim : plan.fate .signupClaim = .proceed
  referralClaim : plan.fate .referralClaim = .proceed

variable {request : BalanceRequest}

/-- The query after the signup bonus. -/
def BalanceQuery.bonus (q : BalanceQuery) (request : BalanceRequest) : BalanceQuery :=
  let outcome := grantSignupBonus request.userId (request.clock 2) q.row
  q.write outcome.token outcome.recorded

theorem call_signupBonus (hbroken : f.world.broken = false)
    (hfate : plan.fate .signupBonus = .proceed) : ∃ granted,
      call plan .signupBonus (grantSignupBonus request.userId (request.clock 2)) f =
        (.ok granted, ⟨f.point + 1, f.world.bonus request⟩) := by
  obtain ⟨granted, hgranted⟩ :=
    grantSignupBonus_result request.userId (request.clock 2) f.world.row
  exact ⟨granted, call_of_proceed hbroken hfate hgranted⟩

/-- The query after the user is told of the bonus. -/
def BalanceQuery.told (q : BalanceQuery) (request : BalanceRequest) : BalanceQuery :=
  let outcome := claimSignupBonusNotification request.userId (request.clock 3) q.row
  q.write outcome.token outcome.recorded

theorem call_signupClaim (hbroken : f.world.broken = false)
    (hfate : plan.fate .signupClaim = .proceed) : ∃ amount,
      call plan .signupClaim (claimSignupBonusNotification request.userId (request.clock 3)) f =
        (.ok amount, ⟨f.point + 1, f.world.told request⟩) :=
  ⟨_, call_of_proceed hbroken hfate rfl⟩

/-- The query after the user is told of referrals. -/
def BalanceQuery.rewarded (q : BalanceQuery) (request : BalanceRequest) : BalanceQuery :=
  let q := (q.bonus request).told request
  let outcome := claimReferralNotification request.userId (request.clock 4) q.row
  q.write outcome.token outcome.recorded

theorem Rewarded.claimRewards (h : Rewarded plan f.world) (request : BalanceRequest) : ∃ told,
    Logit.Tokens.claimRewards plan request f =
      (.ok told, ⟨f.point + 1 + 1 + 1, f.world.rewarded request⟩) := by
  obtain ⟨granted, hbonus⟩ := call_signupBonus h.intact h.signupBonus
  let bonus : Frame BalanceQuery := ⟨f.point + 1, f.world.bonus request⟩
  obtain ⟨amount, htold⟩ := call_signupClaim (f := bonus) h.intact
    h.signupClaim
  let told : Frame BalanceQuery := ⟨f.point + 1 + 1, (f.world.bonus request).told request⟩
  have hreferrals : call plan .referralClaim
      (claimReferralNotification request.userId (request.clock 4)) told = _ :=
    call_of_proceed h.intact h.referralClaim rfl
  rw [Logit.Tokens.claimRewards, Action.bind_apply_ok hbonus, Action.bind_apply_ok htold,
    Action.bind_apply_ok hreferrals]
  exact ⟨_, rfl⟩

/-- Otherwise they stop the query, and what they have written is lost. -/
theorem claimRewards_stops (request : BalanceRequest) (h : ¬ Rewarded plan f.world) :
    ∃ e f', claimRewards plan request f = (.error e, f') ∧ f'.world.close = f.world.close := by
  unfold claimRewards
  -- The first of the three calls that does not go through stops the query.
  by_cases hfirst : f.world.broken = false ∧ plan.fate .signupBonus = .proceed
  · obtain ⟨hbroken, hfate⟩ := hfirst
    obtain ⟨granted, hbonus⟩ := call_signupBonus hbroken hfate
    let bonus : Frame BalanceQuery := ⟨f.point + 1, f.world.bonus request⟩
    rw [Action.bind_apply_ok hbonus]
    by_cases hsecond : plan.fate .signupClaim = .proceed
    · obtain ⟨amount, htold⟩ := call_signupClaim (f := bonus) hbroken hsecond
      rw [Action.bind_apply_ok htold]
      have hthird : plan.fate .referralClaim ≠ .proceed := fun hthird =>
        h ⟨hbroken, hfate, hsecond, hthird⟩
      obtain ⟨e, f', hrun, hclose⟩ := call_stops (.inr hthird)
      exact ⟨e, f', Action.bind_apply_error hrun, hclose⟩
    · obtain ⟨e, f', hrun, hclose⟩ := call_stops (.inr hsecond)
      exact ⟨e, f', Action.bind_apply_error hrun, hclose⟩
  · have hstops : f.world.broken = true ∨ plan.fate .signupBonus ≠ .proceed := by
      by_contra hne
      simp only [not_or, Bool.not_eq_true, not_not] at hne
      exact hfirst hne
    obtain ⟨e, f', hrun, hclose⟩ := call_stops hstops
    exact ⟨e, f', Action.bind_apply_error hrun, hclose⟩

/-- The transaction is committed. -/
structure Commits (plan : Plan) (q : BalanceQuery) : Prop extends Rewarded plan q where
  commit : plan.Effective .commit

variable {subscription : Option Subscription} {granted : Bool × ℤ}

theorem answer_snd {received : Bool} {told : ℤ × ℤ × ℤ} {balance : ℤ} (f : Frame BalanceQuery) :
    (answer subscription granted received told balance f).2 = f := by
  unfold answer
  cases PLAN_MONTHLY_TOKENS (planKey subscription) <;> rfl

/-- What the commit leaves. -/
theorem Rewarded.commitQuery_close (h : Rewarded plan f.world) (request : BalanceRequest) :
    (plan.Effective .commit →
      (commitQuery plan ⟨n, f.world.rewarded request⟩).2.world.close =
        (f.world.rewarded request).commit.close) ∧
    (¬ plan.Effective .commit →
      (commitQuery plan ⟨n, f.world.rewarded request⟩).2.world.close = f.world.close) := by
  have hbroken : (f.world.rewarded request).broken = false := h.intact
  rw [commitQuery, Action.get_bind_apply, if_neg (by simp [hbroken])]
  unfold Plan.Effective Fate.Effective
  cases hfate : plan.fate .commit with
  | proceed => simp [Action.suspend]
  | fail => cases plan.sent .commit <;> simp [Action.suspend, BalanceQuery.rewarded,
      BalanceQuery.told, BalanceQuery.bonus]
  | cancel done => cases done <;> simp [Action.suspend, BalanceQuery.rewarded,
      BalanceQuery.told, BalanceQuery.bonus]

/-- What a query leaves that has passed its check-in. -/
theorem conclude_close :
    (Commits plan f.world →
      (conclude plan request subscription granted f).2.world.close =
        (f.world.rewarded request).commit.close) ∧
    (¬ Commits plan f.world →
      (conclude plan request subscription granted f).2.world.close = f.world.close) := by
  rw [conclude, Action.get_bind_apply]
  by_cases hrewarded : Rewarded plan f.world
  · obtain ⟨told, hrun⟩ := hrewarded.claimRewards request
    have hcommitted := hrewarded.commitQuery_close request (n := f.point + 1 + 1 + 1)
    rw [Action.bind_apply_ok hrun, Action.get_bind_apply,
      Action.bind_apply_snd fun _ f => answer_snd f]
    exact ⟨fun h => hcommitted.1 h.commit,
      fun h => hcommitted.2 fun heffective => h ⟨hrewarded, heffective⟩⟩
  · obtain ⟨e, f', hrun, hclose⟩ := claimRewards_stops request hrewarded
    rw [Action.bind_apply_error hrun]
    exact ⟨fun h => absurd h.toRewarded hrewarded, fun _ => hclose⟩

/-! ### The whole of it -/

/-- What follows the commands of the check-in: only a cancellation stops the query. -/
def resume {α : Type} (next : Action BalanceQuery α) :
    Except Interrupt Unit × Frame BalanceQuery → Except Interrupt α × Frame BalanceQuery
  | (.error .cancelled, f) => (.error .cancelled, f)
  | (_, f) => next f

theorem attendance_bind (next : Action BalanceQuery α) :
    (attendance plan clock >>= fun _ => next) f =
      match plan.fate .getRedis with
      | .proceed => resume next (commands plan clock 10 ⟨f.point + 1, f.world⟩)
      | .fail => next ⟨f.point + 1, f.world⟩
      | .cancel _ => (.error .cancelled, ⟨f.point + 1, f.world⟩) := by
  cases hfate : plan.fate .getRedis with
  | proceed =>
    have hconnected : Action.suspend (fun _ => plan.fate .getRedis) id id f =
        (.ok (), ⟨f.point + 1, f.world⟩) := Action.suspend_of_proceed hfate
    have hattendance : attendance plan clock f = Action.swallow (checkInAlone plan clock)
        ⟨f.point + 1, f.world⟩ := by
      rw [attendance, Action.swallow, Action.bind_apply_ok hconnected]
      rfl
    unfold resume
    rcases hrun : commands plan clock 10 ⟨f.point + 1, f.world⟩ with ⟨(_ | _) | _, f'⟩
    · have hcheck : checkInAlone plan clock ⟨f.point + 1, f.world⟩ = (.error .exception, f') :=
        Action.bind_apply_error hrun
      exact Action.bind_apply_ok (hattendance.trans (by rw [Action.swallow, hcheck]))
    · have hcheck : checkInAlone plan clock ⟨f.point + 1, f.world⟩ = (.error .cancelled, f') :=
        Action.bind_apply_error hrun
      exact Action.bind_apply_error (hattendance.trans (by rw [Action.swallow, hcheck]))
    · -- The check-in has returned, or it raises the exception it has handled.
      apply Action.bind_apply_ok (a := ())
      rw [hattendance, Action.swallow, checkInAlone, Action.bind_apply_ok hrun,
        Action.get_bind_apply]
      cases f'.world.checkIn.pc <;> rfl
  | fail =>
    have hattendance : attendance plan clock f = (.ok (), ⟨f.point + 1, f.world⟩) := by
      rw [attendance, Action.swallow, Action.bind_apply_error (Action.suspend_of_fail hfate)]
      rfl
    exact Action.bind_apply_ok hattendance
  | cancel done =>
    have hattendance : attendance plan clock f =
        (.error .cancelled, ⟨f.point + 1, if done then id f.world else f.world⟩) := by
      rw [attendance, Action.swallow, Action.bind_apply_error (Action.suspend_of_cancel hfate)]
    rw [Action.bind_apply_error hattendance]
    cases done <;> rfl

/-- The calls before the check-in go through. -/
structure Begins (store : Store) (request : BalanceRequest) (plan : Plan) : Prop where
  subscription : plan.fate .subscription = .proceed
  monthlyGrant : plan.fate .monthlyGrant = .proceed
  /-- The plan of the subscription is in the table, where a grant is due. -/
  granted : ∃ granted, (ensureMonthlyTokens request.userId (request.clock 0)
    (store.tokens request.userId) (request.subscription store)).result = .ok granted

/-- The query with the tokens of the month granted. -/
def BalanceRequest.begun (request : BalanceRequest) (store : Store) : BalanceQuery :=
  let outcome := ensureMonthlyTokens request.userId (request.clock 0)
    (store.tokens request.userId) (request.subscription store)
  (BalanceQuery.start store request).write outcome.token outcome.recorded

theorem getTokenBalance_of_begins {store : Store} (h : Begins store request plan) : ∃ granted,
    getTokenBalance plan request ⟨0, .start store request⟩ =
      (attendance plan (request.clock 1) >>= fun _ =>
        conclude plan request (request.subscription store) granted) ⟨2, request.begun store⟩ := by
  obtain ⟨⟨wasGranted, grantedAmount, token⟩, hgranted⟩ := h.granted
  refine ⟨(wasGranted, grantedAmount), ?_⟩
  have hread : statement plan .subscription id ⟨0, .start store request⟩ =
      (.ok (), ⟨1, .start store request⟩) := statement_of_proceed rfl h.subscription
  have hcall : call plan .monthlyGrant (fun row => ensureMonthlyTokens request.userId
      (request.clock 0) row (request.subscription store)) ⟨1, .start store request⟩ = _ :=
    call_of_proceed rfl h.monthlyGrant hgranted
  rw [getTokenBalance, Action.bind_apply_ok hread]
  exact Action.bind_apply_ok hcall

/-- Otherwise the query stops, and leaves the store as it was. -/
theorem serve_of_not_begins {store : Store} (h : ¬ Begins store request plan) :
    ∃ e, serve store request plan = (.error e, store) := by
  suffices hstops : ∃ e f',
      getTokenBalance plan request ⟨0, .start store request⟩ = (.error e, f') ∧
        f'.world.close = store by
    obtain ⟨e, f', hrun, hclose⟩ := hstops
    refine ⟨e, ?_⟩
    rw [serve, hrun]
    exact congrArg (Prod.mk _) hclose
  unfold getTokenBalance
  by_cases hread : plan.fate .subscription = .proceed
  · rw [Action.bind_apply_ok (statement_of_proceed rfl hread), Action.get_bind_apply]
    by_cases hcall : plan.fate .monthlyGrant = .proceed
    · cases hresult : (ensureMonthlyTokens request.userId (request.clock 0)
          (store.tokens request.userId) (request.subscription store)).result with
      | ok granted => exact absurd ⟨hread, hcall, granted, hresult⟩ h
      | error error =>
        have hraise : call plan .monthlyGrant (fun row => ensureMonthlyTokens request.userId
            (request.clock 0) row (request.subscription store)) ⟨1, .start store request⟩ = _ :=
          call_of_raise rfl hcall hresult
        exact ⟨_, _, Action.bind_apply_error hraise, rfl⟩
    · obtain ⟨e, f', hrun, hclose⟩ := call_stops (.inr hcall)
      exact ⟨e, f', Action.bind_apply_error hrun, hclose⟩
  · obtain ⟨e, f', hrun, hclose⟩ := statement_stops (fun _ => rfl) (.inr hread)
    exact ⟨e, f', Action.bind_apply_error hrun, hclose⟩

end Runs

end Logit.Tokens
