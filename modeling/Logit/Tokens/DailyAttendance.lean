import Logit.Tokens.Attendance

/-!
# One attendance a day

The day's key in Redis keeps a user from checking in twice on a date, but keys get lost, and
the handlers of exceptions delete them. What remains is the index of the attendance rows: a
check-in writes its row and its transaction together, in the transaction of the balance query
it belongs to. A row that the index refuses takes the whole query with it, also where the
query goes on after the exception.

So every row of the index, committed or still open, stands for one attendance transaction.

## Main definitions

* `Shared.Forgets`, `CheckIn.Raises` — lost keys, and exceptions in Redis
* `Dated` — the shared state, with the dates of the check-ins that transactions are of
* `balanceQueries` — the check-ins of balance queries, and all that may happen to them
* `Paired` — rows of the index and transactions belong together

## Main results

* `Paired.step` — every action keeps rows and transactions together
* `attendance_once_of_reachable` — a user has at most one attendance transaction for a date,
  and has one exactly if there is a committed row
-/

namespace Logit.Tokens

open Calendar Concurrency Python

/-! ## The program -/

/-- Redis loses a key. -/
inductive Shared.Forgets (s : Shared) : Shared → Prop
  | pool : Forgets s { s with pool := none }
  | ended : Forgets s { s with ended := false }
  | dayKey (key : UUID × Date) :
      Forgets s { s with dayKeys := Function.update s.dayKeys key false }

/-- A Redis command has been sent: it has taken effect, or it has not. -/
def Sent (s : Shared) (t : CheckIn) (s' : Shared) : Prop :=
  s' = s ∨ ∃ t', redisStep s t = some (s', t')

/-- A command of a check-in raises. The query goes on without the attendance, unless the
database has given up its transaction. -/
inductive CheckIn.Raises (s : Shared) (t : CheckIn) : Shared → CheckIn → Prop
  | redis {s' : Shared} (hpc : t.pc ≠ .sumDistributed ∧ t.pc ≠ .undo ∧ t.pc ≠ .undoRelease)
      (hcommand : (redisStep s t).isSome = true) (hsent : Sent s t s') :
      Raises s t s' (t.goto (.returned false ""))
  | sum (hpc : t.pc = .sumDistributed) : Raises s t (s.dropLog t) (t.close .raised)
  /-- In the handler of an exception of the database. -/
  | undo {s' : Shared} (hpc : t.pc = .undo ∨ t.pc = .undoRelease) (hsent : Sent s t s') :
      Raises s t s' (t.goto .raised)

/-- The shared state, and the committed transactions with the dates of the check-ins whose
queries have written them. -/
structure Dated where
  shared : Shared
  committed : List (Date × TokenTransaction)

/-- The check-ins of balance queries. A query may have written transactions of other kinds
before it checks in; what it commits is dated with its check-in. -/
def balanceQueries : Program Dated CheckIn where
  env d d' := d.shared.Forgets d'.shared ∧ d'.committed = d.committed
  start t := t.pc = .checkEnded ∧ (∀ tx ∈ t.pending, tx.type ≠ .attendance) ∧ t.pendingLog = none
  act d t d' t' := (CheckIn.Act d.shared t d'.shared t' ∨ CheckIn.Raises d.shared t d'.shared t') ∧
    ∃ txs, d'.shared.transactions = d.shared.transactions ++ txs ∧
      d'.committed = d.committed ++ txs.map (t.today, ·)

variable {s s' : Shared} {t t' : CheckIn}

/-- A command of a check-in writes nothing to the database. -/
structure Untouched (s : Shared) (t : CheckIn) (s' : Shared) (t' : CheckIn) : Prop where
  logs : s'.logs = s.logs
  transactions : s'.transactions = s.transactions
  userId : t'.userId = t.userId
  today : t'.today = t.today
  pending : t'.pending = t.pending
  pendingLog : t'.pendingLog = t.pendingLog

theorem redisStep_untouched (h : redisStep s t = some (s', t')) : Untouched s t s' t' := by
  obtain ⟨pc, rfl, hcommand⟩ := redisStep_cases h
  cases hcommand <;> exact ⟨rfl, rfl, rfl, rfl, rfl, rfl⟩

theorem Sent.untouched (h : Sent s t s') (pc : Pc) : Untouched s t s' (t.goto pc) := by
  rcases h with rfl | ⟨t', hstep⟩
  · exact ⟨rfl, rfl, rfl, rfl, rfl, rfl⟩
  · have hsame := redisStep_untouched hstep
    exact ⟨hsame.logs, hsame.transactions, rfl, rfl, rfl, rfl⟩

/-- Every action of a check-in can be dated. -/
theorem exists_dated {d : Dated}
    (h : CheckIn.Act d.shared t s' t' ∨ CheckIn.Raises d.shared t s' t') :
    ∃ committed, balanceQueries.act d t ⟨s', committed⟩ t' := by
  suffices hwrites : ∃ txs, s'.transactions = d.shared.transactions ++ txs by
    obtain ⟨txs, htxs⟩ := hwrites
    exact ⟨_, h, txs, htxs, rfl⟩
  rcases h with hact | hraises
  · cases hact with
    | redis hstep => exact ⟨[], by simp [(redisStep_untouched hstep).transactions]⟩
    | commit hpc => exact ⟨t.pending, rfl⟩
    | _ => exact ⟨[], by simp⟩
  · cases hraises with
    | redis _ _ hsent => exact ⟨[], by simp [(hsent.untouched .raised).transactions]⟩
    | sum hpc => exact ⟨[], by simp⟩
    | undo _ hsent => exact ⟨[], by simp [(hsent.untouched .raised).transactions]⟩

/-! ## Rows and transactions -/

/-- A transaction of an attendance of the user and on the date of a row. -/
def Rewards (row : AttendanceLog) (entry : Date × TokenTransaction) : Prop :=
  entry.1 = row.date ∧ entry.2.userId = row.userId ∧ entry.2.type = .attendance

instance (row : AttendanceLog) (entry : Date × TokenTransaction) : Decidable (Rewards row entry) :=
  inferInstanceAs (Decidable (_ ∧ _))

/-- The number of a user's attendance transactions for a date. -/
def rewards (row : AttendanceLog) (entries : List (Date × TokenTransaction)) : ℕ :=
  entries.countP fun entry => Rewards row entry

@[simp] theorem rewards_append (row : AttendanceLog)
    (entries more : List (Date × TokenTransaction)) :
    rewards row (entries ++ more) = rewards row entries + rewards row more :=
  List.countP_append

/-- The transactions a check-in has open, with its date. -/
def CheckIn.dated (t : CheckIn) : List (Date × TokenTransaction) := t.pending.map (t.today, ·)

/-- The number of open rows of a key. -/
def openRows (row : AttendanceLog) (ts : List CheckIn) : ℕ :=
  ts.countP fun t => t.pendingLog = some row

/-- A check-in that has written a row has written its transaction, and returned. -/
structure CheckIn.Matched (t : CheckIn) : Prop where
  recorded : ∀ row, rewards row t.dated = if t.pendingLog = some row then 1 else 0
  returned : t.pendingLog ≠ none → ∃ message, t.pc = .returned true message

/-- The rows of the index are those of committed transactions and of open ones. -/
structure Paired (p : Pool Dated CheckIn) : Prop where
  matched : ∀ t ∈ p.tasks, t.Matched
  count : ∀ row, p.shared.shared.logs.count row =
    rewards row p.shared.committed + openRows row p.tasks
  unique : p.shared.shared.logs.Nodup
  dated : p.shared.committed.map Prod.snd = p.shared.shared.transactions

theorem rewards_eq_zero {row : AttendanceLog} {date : Date} {txs : List TokenTransaction}
    (h : ∀ tx ∈ txs, tx.type ≠ .attendance) : rewards row (txs.map (date, ·)) = 0 := by
  apply List.countP_eq_zero.mpr
  intro entry hentry
  obtain ⟨tx, htx, rfl⟩ := List.mem_map.mp hentry
  simp [Rewards, h tx htx]

/-- The credit of an attendance is one transaction of its user. -/
theorem rewards_credit (row : AttendanceLog) (userId : UUID) (date : Date) (clock : Clock)
    (found : Option UserToken) :
    rewards row ((credit userId clock found ATTENDANCE_TOKENS .attendance
        (some "출석 이벤트")).recorded.map (date, ·)) =
      if some (⟨userId, date⟩ : AttendanceLog) = some row then 1 else 0 := by
  obtain ⟨user, day⟩ := row
  have hopened : rewards ⟨user, day⟩ ((getOrCreateBalance userId clock found).recorded.map
      (date, ·)) = 0 := by
    apply rewards_eq_zero
    cases found <;> simp [getOrCreateBalance, recordTransaction]
  simp only [credit, List.map_append, rewards_append, hopened]
  simp [rewards, Rewards, recordTransaction, List.countP_cons, and_comm]

namespace CheckIn.Matched

/-- A check-in that has not returned a success has no open row. -/
theorem pendingLog_eq_none (h : t.Matched) (hpc : ∀ message, t.pc ≠ .returned true message) :
    t.pendingLog = none := by
  by_contra hne
  obtain ⟨message, hreturned⟩ := h.returned hne
  exact hpc message hreturned

theorem of_none (hnone : t.pendingLog = none) (hrewards : ∀ row, rewards row t.dated = 0) :
    t.Matched := by
  refine ⟨fun row => ?_, fun hne => absurd hnone hne⟩
  rw [hrewards, hnone, if_neg (by simp)]

/-- A command that writes nothing to the database, of a check-in without an open row. -/
theorem untouched (h : t.Matched) (hsame : Untouched s t s' t')
    (hpc : ∀ message, t.pc ≠ .returned true message) : t'.Matched := by
  have hnone := h.pendingLog_eq_none hpc
  apply of_none (hsame.pendingLog.trans hnone)
  intro row
  have hrewards := h.recorded row
  rw [hnone, if_neg (by simp)] at hrewards
  rwa [CheckIn.dated, hsame.pending, hsame.today]

/-- A transaction that is over leaves nothing open. -/
theorem close (t : CheckIn) (pc : Pc) : (t.close pc).Matched := of_none rfl fun _ => rfl

end CheckIn.Matched

/-! ## The invariant -/

theorem openRows_middle (row : AttendanceLog) (before after : List CheckIn) (t : CheckIn) :
    openRows row (before ++ t :: after) =
      openRows row (before ++ after) + if t.pendingLog = some row then 1 else 0 := by
  simp only [openRows, List.countP_append, List.countP_cons, decide_eq_true_eq]
  omega

theorem count_dropLog {row : AttendanceLog} (hmem : ∀ own, t.pendingLog = some own → own ∈ s.logs) :
    (s.dropLog t).logs.count row + (if t.pendingLog = some row then 1 else 0) =
      s.logs.count row := by
  unfold Shared.dropLog
  cases hpending : t.pendingLog with
  | none => simp
  | some own =>
    have hpos := List.count_pos_iff.mpr (hmem own hpending)
    simp only [List.count_erase, Option.some.injEq]
    by_cases hrow : own = row
    · subst hrow
      simp only [beq_self_eq_true, if_true]
      omega
    · simp [hrow]

theorem nodup_dropLog (h : s.logs.Nodup) : (s.dropLog t).logs.Nodup := by
  unfold Shared.dropLog
  split
  · exact h.erase _
  · exact h

namespace Paired

variable {d d' : Dated} {before after : List CheckIn}

/-- An action of one check-in changes the index by what it commits and leaves open. -/
theorem act (h : Paired ⟨d, before ++ t :: after⟩) (hmatched : t'.Matched)
    {txs : List TokenTransaction}
    (htransactions : d'.shared.transactions = d.shared.transactions ++ txs)
    (hcommitted : d'.committed = d.committed ++ txs.map (t.today, ·))
    (hcount : ∀ row, d'.shared.logs.count row + (if t.pendingLog = some row then 1 else 0) =
      d.shared.logs.count row + rewards row (txs.map (t.today, ·)) +
        if t'.pendingLog = some row then 1 else 0)
    (hunique : d'.shared.logs.Nodup) : Paired ⟨d', before ++ t' :: after⟩ where
  matched := forall_mem_middle h.matched (fun _ _ hu => hu) fun _ => hmatched
  count row := by
    have hbefore := h.count row
    have hchange := hcount row
    simp only [openRows_middle] at hbefore ⊢
    rw [hcommitted, rewards_append]
    omega
  unique := hunique
  dated := by
    have hbefore := h.dated
    simp only at hbefore ⊢
    rw [hcommitted, htransactions, List.map_append, hbefore, List.map_map]
    simp [Function.comp_def]

/-- A command that writes nothing to the database. -/
theorem untouched (h : Paired ⟨d, before ++ t :: after⟩) (hsame : Untouched d.shared t d'.shared t')
    (hpc : ∀ message, t.pc ≠ .returned true message)
    {txs : List TokenTransaction}
    (htransactions : d'.shared.transactions = d.shared.transactions ++ txs)
    (hcommitted : d'.committed = d.committed ++ txs.map (t.today, ·)) :
    Paired ⟨d', before ++ t' :: after⟩ := by
  have hmatched := h.matched t (List.mem_append_right _ List.mem_cons_self)
  obtain rfl : txs = [] := by
    rw [hsame.transactions] at htransactions
    exact List.self_eq_append_right.mp htransactions
  refine h.act (hmatched.untouched hsame hpc) htransactions hcommitted ?_ (hsame.logs ▸ h.unique)
  intro row
  rw [hsame.logs, hsame.pendingLog]
  rfl

/-- The transaction of a check-in is rolled back. -/
theorem rollback (h : Paired ⟨d, before ++ t :: after⟩) {pc : Pc}
    (hshared : d'.shared = d.shared.dropLog t) {txs : List TokenTransaction}
    (htransactions : d'.shared.transactions = d.shared.transactions ++ txs)
    (hcommitted : d'.committed = d.committed ++ txs.map (t.today, ·)) :
    Paired ⟨d', before ++ t.close pc :: after⟩ := by
  obtain rfl : txs = [] := by
    rw [hshared, dropLog_transactions] at htransactions
    exact List.self_eq_append_right.mp htransactions
  have hmem : ∀ own, t.pendingLog = some own → own ∈ d.shared.logs := by
    intro own hown
    apply List.count_pos_iff.mp
    have hcount := h.count own
    simp only [openRows_middle, if_pos hown] at hcount
    omega
  refine h.act (.close t pc) htransactions hcommitted ?_ (hshared ▸ nodup_dropLog h.unique)
  intro row
  rw [hshared, count_dropLog hmem]
  rfl

/-- A check-in writes its row and its transaction, and leaves both open. -/
theorem record (h : Paired ⟨d, before ++ t :: after⟩) (hpc : t.pc = .record) {clock : Clock}
    {row : Option UserToken} (hindex : ⟨t.userId, t.today⟩ ∉ d.shared.logs)
    (hshared : d'.shared = { d.shared with logs := ⟨t.userId, t.today⟩ :: d.shared.logs })
    {txs : List TokenTransaction}
    (htransactions : d'.shared.transactions = d.shared.transactions ++ txs)
    (hcommitted : d'.committed = d.committed ++ txs.map (t.today, ·)) :
    Paired ⟨d', before ++ { t with
      pc := .returned true "success"
      pending := t.pending ++ (credit t.userId clock row ATTENDANCE_TOKENS .attendance
        (some "출석 이벤트")).recorded
      pendingLog := some ⟨t.userId, t.today⟩ } :: after⟩ := by
  obtain rfl : txs = [] := by
    rw [hshared] at htransactions
    exact List.self_eq_append_right.mp htransactions
  have hmatched := h.matched t (List.mem_append_right _ List.mem_cons_self)
  have hnone := hmatched.pendingLog_eq_none (by simp [hpc])
  refine h.act ⟨fun own => ?_, fun _ => ⟨"success", rfl⟩⟩ htransactions hcommitted ?_ ?_
  · have hrecorded := hmatched.recorded own
    rw [hnone, if_neg (by simp)] at hrecorded
    rw [CheckIn.dated] at hrecorded ⊢
    rw [List.map_append, rewards_append, rewards_credit, hrecorded, Nat.zero_add]
  · intro own
    rw [hshared, hnone]
    simp [List.count_cons, rewards]
  · rw [hshared]
    exact List.nodup_cons.mpr ⟨hindex, h.unique⟩

/-- The query writes transactions of other kinds. -/
theorem goOn (h : Paired ⟨d, before ++ t :: after⟩) {more : List TokenTransaction}
    (hmore : ∀ tx ∈ more, tx.type ≠ .attendance) {txs : List TokenTransaction}
    {committed : List (Date × TokenTransaction)}
    (htransactions : d.shared.transactions = d.shared.transactions ++ txs)
    (hcommitted : committed = d.committed ++ txs.map (t.today, ·)) :
    Paired ⟨⟨d.shared, committed⟩, before ++ { t with pending := t.pending ++ more } :: after⟩ := by
  obtain rfl : txs = [] := List.self_eq_append_right.mp htransactions
  have hmatched := h.matched t (List.mem_append_right _ List.mem_cons_self)
  refine h.act ⟨fun own => ?_, hmatched.returned⟩ htransactions hcommitted (fun _ => rfl) h.unique
  have hrecorded := hmatched.recorded own
  rw [CheckIn.dated] at hrecorded ⊢
  rw [List.map_append, rewards_append, rewards_eq_zero hmore, hrecorded, Nat.add_zero]

/-- What a check-in has left open is committed. -/
theorem commit (h : Paired ⟨d, before ++ t :: after⟩) {txs : List TokenTransaction}
    {committed : List (Date × TokenTransaction)}
    (htransactions : d.shared.transactions ++ t.pending = d.shared.transactions ++ txs)
    (hcommitted : committed = d.committed ++ txs.map (t.today, ·)) :
    Paired ⟨⟨{ d.shared with transactions := d.shared.transactions ++ t.pending }, committed⟩,
      before ++ t.close .finished :: after⟩ := by
  obtain rfl := List.append_cancel_left htransactions
  have hmatched := h.matched t (List.mem_append_right _ List.mem_cons_self)
  refine h.act (.close t _) rfl hcommitted (fun own => ?_) h.unique
  have hrecorded := hmatched.recorded own
  rw [CheckIn.dated] at hrecorded
  rw [hrecorded]
  rfl

/-- Every action keeps rows and transactions together. -/
theorem step {p p' : Pool Dated CheckIn} (h : Paired p) (hstep : Pool.Step balanceQueries p p') :
    Paired p' := by
  cases hstep with
  | @env d d' ts henv =>
    obtain ⟨hforgets, hcommitted⟩ := henv
    have hsame : d'.shared.logs = d.shared.logs ∧
        d'.shared.transactions = d.shared.transactions := by
      generalize d'.shared = s' at hforgets
      cases hforgets <;> exact ⟨rfl, rfl⟩
    refine ⟨h.matched, fun row => ?_, hsame.1 ▸ h.unique, ?_⟩
    · rw [hsame.1, hcommitted]
      exact h.count row
    · rw [hsame.2, hcommitted]
      exact h.dated
  | @start t d ts hstart =>
    obtain ⟨hpc, hpending, hnone⟩ := hstart
    have hnew : t.Matched := .of_none hnone fun row => rewards_eq_zero hpending
    refine ⟨List.forall_mem_cons.mpr ⟨hnew, h.matched⟩, fun row => ?_, h.unique, h.dated⟩
    have hcount := h.count row
    simpa [openRows, hnone] using hcount
  | @act d d' t t' before after hact =>
    obtain ⟨hact, txs, htransactions, hcommitted⟩ := hact
    obtain ⟨s', committed⟩ := d'
    have hmatched := h.matched t (List.mem_append_right _ List.mem_cons_self)
    dsimp only at hact htransactions hcommitted
    rcases hact with hact | hraises
    · cases hact with
      | redis hstep =>
        refine h.untouched (redisStep_untouched hstep) ?_ htransactions hcommitted
        intro message hpc
        simp [redisStep, hpc] at hstep
      | record clock row hpc hindex =>
        exact h.record hpc hindex rfl htransactions hcommitted
      | recordFails hpc => exact h.rollback rfl htransactions hcommitted
      | goOn more hpc hmore => exact h.goOn hmore htransactions hcommitted
      | commit hpc => exact h.commit htransactions hcommitted
      | rollback => exact h.rollback rfl htransactions hcommitted
    · cases hraises with
      | redis hpc hcommand hsent =>
        refine h.untouched (hsent.untouched _) ?_ htransactions hcommitted
        intro message hreturned
        simp [redisStep, hreturned] at hcommand
      | sum hpc => exact h.rollback rfl htransactions hcommitted
      | undo hpc hsent =>
        refine h.untouched (hsent.untouched _) ?_ htransactions hcommitted
        intro message hreturned
        simp [hreturned] at hpc

end Paired

/-! ## Every run -/

/-- A row of the index that belongs to no open transaction. -/
def Committed (p : Pool Dated CheckIn) (row : AttendanceLog) : Prop :=
  row ∈ p.shared.shared.logs ∧ ∀ t ∈ p.tasks, t.pendingLog ≠ some row

/-- From a database without attendances and any content of Redis, whatever keys Redis loses, a
user has at most one committed attendance transaction for a date, and has one exactly if there
is a committed row. -/
theorem attendance_once_of_reachable {s : Shared} {p : Pool Dated CheckIn} (hlogs : s.logs = [])
    (htransactions : s.transactions = []) (h : Pool.Reachable balanceQueries ⟨s, []⟩ p)
    (row : AttendanceLog) :
    p.shared.committed.map Prod.snd = p.shared.shared.transactions ∧
      rewards row p.shared.committed ≤ 1 ∧
      (rewards row p.shared.committed = 1 ↔ Committed p row) := by
  -- By induction on the run; every action keeps rows and transactions together.
  have hpaired : Paired p := by
    induction h with
    | refl => exact ⟨by simp, fun row => by simp [hlogs, rewards, openRows], by simp [hlogs],
        by simp [htransactions]⟩
    | tail _ hstep ih => exact ih.step hstep
  have hcount := hpaired.count row
  have hone : p.shared.shared.logs.count row ≤ 1 :=
    List.nodup_iff_count.mp hpaired.unique row
  refine ⟨hpaired.dated, by omega, ?_⟩
  constructor
  · intro hrewarded
    have hpos : 0 < p.shared.shared.logs.count row := by omega
    have hopen : openRows row p.tasks = 0 := by omega
    refine ⟨List.count_pos_iff.mp hpos, fun t ht hpending => ?_⟩
    have hnone := List.countP_eq_zero.mp hopen t ht
    simp [hpending] at hnone
  · rintro ⟨hmem, hclosed⟩
    have hpos := List.count_pos_iff.mpr hmem
    have hopen : openRows row p.tasks = 0 :=
      List.countP_eq_zero.mpr fun t ht => by simpa using hclosed t ht
    omega

/-! ### A check-in -/

theorem runs_redis {start : Dated × CheckIn} {d : Dated} (h : balanceQueries.Runs start (d, t))
    (hstep : redisStep d.shared t = some (s', t')) :
    balanceQueries.Runs start (⟨s', d.committed⟩, t') :=
  h.act ⟨.inl (.redis hstep), [], by simp [(redisStep_untouched hstep).transactions], by simp⟩

theorem runs_act {start : Dated × CheckIn} {d : Dated} (h : balanceQueries.Runs start (d, t))
    (hact : CheckIn.Act d.shared t s' t') :
    ∃ committed, balanceQueries.Runs start (⟨s', committed⟩, t') := by
  obtain ⟨committed, hdated⟩ := exists_dated (.inl hact)
  exact ⟨committed, h.act hdated⟩

/-- Once a check-in has its tokens, it writes its row and its transaction, and the query commits. -/
theorem runs_recorded {start : Dated × CheckIn} {d : Dated} (h : balanceQueries.Runs start (d, t))
    (clock : Clock) (found : Option UserToken) (hpc : t.pc = .record)
    (hindex : ⟨t.userId, t.today⟩ ∉ d.shared.logs) :
    ∃ d' t', balanceQueries.Runs start (d', t') ∧
      d'.shared.logs = ⟨t.userId, t.today⟩ :: d.shared.logs ∧ t'.pendingLog = none := by
  obtain ⟨written, hrecord⟩ := runs_act h (.record clock found hpc hindex)
  obtain ⟨committed, hcommit⟩ := runs_act hrecord (.commit rfl)
  exact ⟨_, _, hcommit, rfl, rfl⟩

/-- A user checks in at the start of the event, and the query commits. -/
theorem runs_checkIn (userId : UUID) (today : Date) : ∃ d t, balanceQueries.Runs
    (⟨⟨none, false, fun _ => false, [], []⟩, []⟩, newCheckIn userId today) (d, t) ∧
      d.shared.logs = [⟨userId, today⟩] ∧ t.pendingLog = none := by
  let d : Dated := ⟨⟨none, false, fun _ => false, [], []⟩, []⟩
  have hstart : balanceQueries.Runs (d, newCheckIn userId today) (d, newCheckIn userId today) :=
    .refl
  have hchecked := runs_redis hstart rfl
  have hacquired := runs_redis hchecked rfl
  have hmissed := runs_redis hacquired rfl
  have hsummed := runs_redis hmissed rfl
  have hset := runs_redis hsummed rfl
  have htaken := runs_redis hset rfl
  exact runs_recorded htaken (fun _ => .utc 2026 1 10 9) none rfl List.not_mem_nil

theorem attendance_once_of_reachable_first : ∃ p,
    Pool.Reachable balanceQueries ⟨⟨none, false, fun _ => false, [], []⟩, []⟩ p ∧
      Committed p ⟨1, (Datetime.utc 2026 1 10 9).date⟩ ∧
      p.shared.committed.map Prod.snd = p.shared.shared.transactions ∧
      rewards ⟨1, (Datetime.utc 2026 1 10 9).date⟩ p.shared.committed ≤ 1 ∧
      (rewards ⟨1, (Datetime.utc 2026 1 10 9).date⟩ p.shared.committed = 1 ↔
        Committed p ⟨1, (Datetime.utc 2026 1 10 9).date⟩) := by
  obtain ⟨d, t, hruns, hlogs, hnone⟩ := runs_checkIn 1 (Datetime.utc 2026 1 10 9).date
  have hreachable := hruns.reachable (⟨rfl, by simp [newCheckIn], rfl⟩ : balanceQueries.start _)
    (.refl : Pool.Reachable balanceQueries _ _)
  refine ⟨_, hreachable, ⟨by simp [hlogs], by simp [hnone]⟩,
    attendance_once_of_reachable (s := ⟨none, false, fun _ => false, [], []⟩) rfl rfl hreachable _⟩

end Logit.Tokens
