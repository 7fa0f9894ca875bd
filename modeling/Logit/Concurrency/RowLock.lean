import Mathlib.Logic.Relation
import Mathlib.Logic.Function.Basic
import Mathlib.Data.List.Induction

/-!
# Row locks

A table of rows, and sessions that run calls on it. A call works on one row: it
locks the row, or inserts it where there is none, replaces it and appends entries
to a log. Rows, entries and locks stay with the session until it commits; a
rollback drops them. Sessions may run any calls in any order and commit or roll
back after any of them, and any statement may fail. A locking read returns the
latest committed row, whatever the session has read before without a lock.

Locks make the calls of each key sequential: whatever the sessions do, the
committed row and the committed entries of a key are what one makes by running
the committed calls of that key one after another, in the order of their locks.

## Main definitions

* `Table` — a table, by what a call does to the row it works on
* `Table.runAll`, `Table.replay` — running calls one after another on one row
* `Step` — one statement of one session
* `Reachable` — the states that sessions reach from the empty table
* `Serial` — the committed and the held rows are replays

## Main results

* `Serial.step` — every statement keeps the invariant
* `Reachable.committed` — committed rows and entries are replays of committed calls
* `Reachable.invariant` — what calls keep one after another holds of every committed row
-/

namespace Logit.Concurrency

variable {τ κ ρ γ ε : Type*}

/-- A table with keys `κ`, rows `ρ`, calls `γ` and log entries `ε`. -/
structure Table (κ ρ γ ε : Type*) where
  /-- The key of the row a call works on. -/
  keyOf : γ → κ
  /-- Whether a call locks the row it finds. -/
  locks : γ → Bool
  /-- The row a call leaves and the entries it writes, given the row it finds. -/
  run : γ → Option ρ → ρ × List ε
  /-- The key an entry is about. -/
  entryKey : ε → κ
  entryKey_run : ∀ call row, ∀ entry ∈ (run call row).2, entryKey entry = keyOf call

namespace Table

variable (T : Table κ ρ γ ε)

/-- The row and the entries that calls leave one after another. -/
def runAll (row : Option ρ) : List γ → Option ρ × List ε
  | [] => (row, [])
  | call :: calls =>
    let (after, entries) := T.run call row
    ((runAll (some after) calls).1, entries ++ (runAll (some after) calls).2)

@[simp] theorem runAll_nil (row : Option ρ) : T.runAll row [] = (row, []) := rfl

theorem runAll_cons (row : Option ρ) (call : γ) (calls : List γ) :
    T.runAll row (call :: calls) =
      ((T.runAll (some (T.run call row).1) calls).1,
        (T.run call row).2 ++ (T.runAll (some (T.run call row).1) calls).2) := rfl

theorem runAll_append (row : Option ρ) (calls more : List γ) :
    T.runAll row (calls ++ more) =
      ((T.runAll (T.runAll row calls).1 more).1,
        (T.runAll row calls).2 ++ (T.runAll (T.runAll row calls).1 more).2) := by
  induction calls generalizing row with
  | nil => rfl
  | cons call calls ih => simp only [List.cons_append, runAll_cons, ih, List.append_assoc]

/-- The row and the entries that calls leave one after another, from no row. -/
def replay (calls : List γ) : Option ρ × List ε := T.runAll none calls

@[simp] theorem replay_nil : T.replay [] = (none, []) := rfl

theorem replay_concat (calls : List γ) (call : γ) :
    T.replay (calls ++ [call]) =
      (some (T.run call (T.replay calls).1).1,
        (T.replay calls).2 ++ (T.run call (T.replay calls).1).2) := by
  simp [replay, runAll_append, runAll_cons]

variable [DecidableEq κ]

/-- The calls on one key. -/
def callsOf (key : κ) (calls : List γ) : List γ := calls.filter fun call => T.keyOf call = key

/-- The entries about one key. -/
def entriesOf (key : κ) (entries : List ε) : List ε :=
  entries.filter fun entry => T.entryKey entry = key

@[simp] theorem callsOf_nil (key : κ) : T.callsOf key [] = [] := rfl

@[simp] theorem entriesOf_nil (key : κ) : T.entriesOf key [] = [] := rfl

@[simp] theorem callsOf_append (key : κ) (calls more : List γ) :
    T.callsOf key (calls ++ more) = T.callsOf key calls ++ T.callsOf key more :=
  List.filter_append ..

@[simp] theorem entriesOf_append (key : κ) (entries more : List ε) :
    T.entriesOf key (entries ++ more) = T.entriesOf key entries ++ T.entriesOf key more :=
  List.filter_append ..

theorem callsOf_self (call : γ) : T.callsOf (T.keyOf call) [call] = [call] := by
  simp [callsOf]

theorem callsOf_ne {key : κ} {call : γ} (h : key ≠ T.keyOf call) : T.callsOf key [call] = [] := by
  simp [callsOf, h.symm]

theorem entriesOf_run_self (call : γ) (row : Option ρ) :
    T.entriesOf (T.keyOf call) (T.run call row).2 = (T.run call row).2 :=
  List.filter_eq_self.mpr fun entry hentry => by simpa using T.entryKey_run call row entry hentry

theorem entriesOf_run_ne {key : κ} {call : γ} (h : key ≠ T.keyOf call) (row : Option ρ) :
    T.entriesOf key (T.run call row).2 = [] :=
  List.filter_eq_nil_iff.mpr fun entry hentry => by
    simpa [T.entryKey_run call row entry hentry] using h.symm

end Table

/-! ## Sessions and states -/

/-- Where a session stands between two statements. -/
inductive Mode (γ : Type*)
  /-- The next call may start, and the session may commit. -/
  | ready
  /-- The call has found no row and is about to insert one. -/
  | inserting (call : γ)
  /-- A statement has failed; only a rollback helps. -/
  | failed

/-- A session: what its open transaction has done so far. -/
structure Session (κ ρ γ ε : Type*) where
  mode : Mode γ
  /-- The rows the transaction holds, as it has left them. -/
  held : κ → Option ρ
  /-- The entries the transaction has written. -/
  entries : List ε
  /-- The calls the transaction has run. -/
  calls : List γ

namespace Session

/-- A session without an open transaction. -/
def fresh : Session κ ρ γ ε := ⟨.ready, fun _ => none, [], []⟩

/-- A session whose transaction has been given up by the database. -/
def broken : Session κ ρ γ ε := ⟨.failed, fun _ => none, [], []⟩

/-- The session after a call on the row it found; from now on it holds the row. -/
def execute [DecidableEq κ] (x : Session κ ρ γ ε) (T : Table κ ρ γ ε) (call : γ)
    (row : Option ρ) : Session κ ρ γ ε where
  mode := .ready
  held := Function.update x.held (T.keyOf call) (some (T.run call row).1)
  entries := x.entries ++ (T.run call row).2
  calls := x.calls ++ [call]

end Session

/-- The committed table and log, the committed calls, and the sessions. -/
structure State (τ κ ρ γ ε : Type*) where
  row : κ → Option ρ
  log : List ε
  calls : List γ
  session : τ → Session κ ρ γ ε

namespace State

/-- The empty table, without open transactions. -/
def init : State τ κ ρ γ ε := ⟨fun _ => none, [], [], fun _ => .fresh⟩

/-- The row a session sees: its own, or else the committed one. -/
def visible (s : State τ κ ρ γ ε) (t : τ) (key : κ) : Option ρ :=
  -- A transaction sees its own uncommitted work.
  ((s.session t).held key).or (s.row key)

/-- No other session holds the row. -/
def Free (s : State τ κ ρ γ ε) (t : τ) (key : κ) : Prop :=
  ∀ u, u ≠ t → (s.session u).held key = none

variable [DecidableEq τ]

/-- The state after a session has changed and nothing has been committed. -/
def setSession (s : State τ κ ρ γ ε) (t : τ) (x : Session κ ρ γ ε) : State τ κ ρ γ ε :=
  { s with session := Function.update s.session t x }

/-- The state after a session has committed its transaction. -/
def commit (s : State τ κ ρ γ ε) (t : τ) : State τ κ ρ γ ε where
  -- Only the rows the session holds differ from the committed ones.
  row := s.visible t
  log := s.log ++ (s.session t).entries
  calls := s.calls ++ (s.session t).calls
  session := Function.update s.session t .fresh

end State

variable [DecidableEq τ] [DecidableEq κ]

/-- One statement of one session. -/
inductive Step (T : Table κ ρ γ ε) (s : State τ κ ρ γ ε) : State τ κ ρ γ ε → Prop
  /-- A locking read finds the row, which no other session holds, and the call runs on it. -/
  | lock (t : τ) (call : γ) (row : ρ) (hmode : (s.session t).mode = .ready)
      (hlocks : T.locks call = true) (hrow : s.visible t (T.keyOf call) = some row)
      (hfree : s.Free t (T.keyOf call)) :
      Step T s (s.setSession t ((s.session t).execute T call (some row)))
  /-- A read without a lock finds the row, and the call ends there. -/
  | peek (t : τ) (call : γ) (row : ρ) (hmode : (s.session t).mode = .ready)
      (hlocks : T.locks call = false) (hrow : s.visible t (T.keyOf call) = some row) :
      Step T s s
  /-- A read finds no row; there is nothing to lock. -/
  | miss (t : τ) (call : γ) (hmode : (s.session t).mode = .ready)
      (hrow : s.visible t (T.keyOf call) = none) :
      Step T s (s.setSession t { s.session t with mode := .inserting call })
  /-- The insert goes through: no committed row and no insert of another session
  has the key. -/
  | insert (t : τ) (call : γ) (hmode : (s.session t).mode = .inserting call)
      (hrow : s.visible t (T.keyOf call) = none) (hfree : s.Free t (T.keyOf call)) :
      Step T s (s.setSession t ((s.session t).execute T call none))
  /-- A statement fails, such as an insert that meets a committed row of its key. -/
  | fail (t : τ) : Step T s (s.setSession t .broken)
  | commit (t : τ) (hmode : (s.session t).mode = .ready) : Step T s (s.commit t)
  | rollback (t : τ) : Step T s (s.setSession t .fresh)

/-- The states that sessions reach from the empty table. -/
def Reachable (T : Table κ ρ γ ε) (s : State τ κ ρ γ ε) : Prop :=
  Relation.ReflTransGen (Step T) .init s

/-! ## The invariant -/

/-- What a session that holds a row has made of it is a replay of the committed calls
and its own; what it does not hold it has not touched. -/
structure Session.Serial (T : Table κ ρ γ ε) (s : State τ κ ρ γ ε) (x : Session κ ρ γ ε) :
    Prop where
  held : ∀ key row, x.held key = some row →
    T.replay (T.callsOf key s.calls ++ T.callsOf key x.calls) =
      (some row, T.entriesOf key s.log ++ T.entriesOf key x.entries)
  untouched : ∀ key, x.held key = none →
    T.callsOf key x.calls = [] ∧ T.entriesOf key x.entries = []

/-- Each row has at most one holder, and committed and held rows are replays. -/
structure Serial (T : Table κ ρ γ ε) (s : State τ κ ρ γ ε) : Prop where
  exclusive : ∀ t key, (s.session t).held key ≠ none → s.Free t key
  committed : ∀ key,
    T.replay (T.callsOf key s.calls) = (s.row key, T.entriesOf key s.log)
  session : ∀ t, (s.session t).Serial T s

variable {T : Table κ ρ γ ε} {s s' : State τ κ ρ γ ε} {t : τ}

omit [DecidableEq τ] in
theorem Session.serial_of_untouched {x : Session κ ρ γ ε} (hheld : ∀ key, x.held key = none)
    (hcalls : x.calls = []) (hentries : x.entries = []) : x.Serial T s where
  held key row hrow := by simp [hheld] at hrow
  untouched key _ := by simp [hcalls, hentries]

omit [DecidableEq τ] in
theorem Session.serial_fresh : (Session.fresh : Session κ ρ γ ε).Serial T s :=
  serial_of_untouched (fun _ => rfl) rfl rfl

omit [DecidableEq τ] in
theorem serial_init : Serial T (State.init : State τ κ ρ γ ε) where
  exclusive _ _ h := absurd rfl h
  committed _ := rfl
  session _ := Session.serial_fresh

namespace Serial

omit [DecidableEq τ] in
/-- The replay behind the row a session sees. -/
theorem replay_visible (h : Serial T s) (t : τ) (key : κ) :
    T.replay (T.callsOf key s.calls ++ T.callsOf key (s.session t).calls) =
      (s.visible t key, T.entriesOf key s.log ++ T.entriesOf key (s.session t).entries) := by
  cases hheld : (s.session t).held key with
  | none =>
    obtain ⟨hcalls, hentries⟩ := (h.session t).untouched key hheld
    simp [State.visible, hheld, hcalls, hentries, h.committed key]
  | some row => simpa [State.visible, hheld] using (h.session t).held key row hheld

/-- A session changes without a commit: it holds nothing that another session holds,
and what it holds is a replay. -/
theorem setSession (h : Serial T s) {x : Session κ ρ γ ε}
    (hfree : ∀ key, x.held key ≠ none → s.Free t key) (hx : x.Serial T s) :
    Serial T (s.setSession t x) where
  exclusive u key hu v hv := by
    by_cases hut : u = t
    · subst hut
      have hx' : x.held key ≠ none := by simpa [State.setSession] using hu
      simpa [State.setSession, hv] using hfree key hx' v hv
    · have hheld : (s.session u).held key ≠ none := by simpa [State.setSession, hut] using hu
      by_cases hvt : v = t
      · -- If the changed session held the row as well, the row would not have been free.
        subst hvt
        by_contra hne
        have hne' : x.held key ≠ none := by simpa [State.setSession] using hne
        exact hheld (hfree key hne' u hut)
      · simpa [State.setSession, hvt] using h.exclusive u key hheld v hv
  committed := h.committed
  session u := by
    by_cases hut : u = t
    · subst hut
      simpa [State.setSession] using show x.Serial T (s.setSession u x) from ⟨hx.held, hx.untouched⟩
    · have hu := h.session u
      simpa [State.setSession, hut] using
        show (s.session u).Serial T (s.setSession t x) from ⟨hu.held, hu.untouched⟩

/-- A call on the row a session sees, which no other session holds. -/
theorem execute (h : Serial T s) {call : γ} (hfree : s.Free t (T.keyOf call)) :
    Serial T (s.setSession t
      ((s.session t).execute T call (s.visible t (T.keyOf call)))) := by
  refine h.setSession ?_ ⟨?_, ?_⟩
  · intro key hheld
    by_cases hkey : key = T.keyOf call
    · exact hkey ▸ hfree
    · exact h.exclusive t key (by simpa [Session.execute, hkey] using hheld)
  · intro key row hrow
    by_cases hkey : key = T.keyOf call
    · subst hkey
      obtain rfl : (T.run call (s.visible t (T.keyOf call))).1 = row := by
        simpa [Session.execute] using hrow
      simp only [Session.execute, T.callsOf_append, T.entriesOf_append, T.callsOf_self,
        T.entriesOf_run_self, ← List.append_assoc, T.replay_concat,
        h.replay_visible t (T.keyOf call)]
    · have hheld : (s.session t).held key = some row := by
        simpa [Session.execute, hkey] using hrow
      simpa [Session.execute, T.callsOf_ne hkey, T.entriesOf_run_ne hkey] using
        (h.session t).held key row hheld
  · intro key hnone
    have hkey : key ≠ T.keyOf call := by
      rintro rfl
      simp [Session.execute] at hnone
    have hheld : (s.session t).held key = none := by
      simpa [Session.execute, hkey] using hnone
    simpa [Session.execute, T.callsOf_ne hkey, T.entriesOf_run_ne hkey] using
      (h.session t).untouched key hheld

theorem commit (h : Serial T s) (t : τ) : Serial T (s.commit t) where
  exclusive u key hu v hv := by
    by_cases hut : u = t
    · simp [State.commit, hut, Session.fresh] at hu
    · have hheld : (s.session u).held key ≠ none := by simpa [State.commit, hut] using hu
      by_cases hvt : v = t
      · simp [State.commit, hvt, Session.fresh]
      · simpa [State.commit, hvt] using h.exclusive u key hheld v hv
  committed key := by simpa [State.commit] using h.replay_visible t key
  session u := by
    by_cases hut : u = t
    · simpa [State.commit, hut] using Session.serial_fresh
    · refine ⟨fun key row hrow => ?_, fun key hnone => ?_⟩
      · have hheld : (s.session u).held key = some row := by simpa [State.commit, hut] using hrow
        have hnot : (s.session t).held key = none :=
          h.exclusive u key (by simp [hheld]) t (Ne.symm hut)
        obtain ⟨hcalls, hentries⟩ := (h.session t).untouched key hnot
        simpa [State.commit, hut, hcalls, hentries] using (h.session u).held key row hheld
      · have hheld : (s.session u).held key = none := by simpa [State.commit, hut] using hnone
        simpa [State.commit, hut] using (h.session u).untouched key hheld

theorem step (h : Serial T s) (hstep : Step T s s') : Serial T s' := by
  cases hstep with
  | lock t call row hmode hlocks hrow hfree => exact hrow ▸ h.execute hfree
  | peek => exact h
  | miss t call hmode hrow =>
    exact h.setSession (h.exclusive t) ⟨(h.session t).held, (h.session t).untouched⟩
  | insert t call hmode hrow hfree => exact hrow ▸ h.execute hfree
  | fail t =>
    exact h.setSession (fun _ hne => absurd rfl hne)
      (Session.serial_of_untouched (fun _ => rfl) rfl rfl)
  -- What is committed was a replay before, by `replay_visible`.
  | commit t hmode => exact h.commit t
  | rollback t => exact h.setSession (fun _ hne => absurd rfl hne) Session.serial_fresh

end Serial

namespace Reachable

theorem serial (h : Reachable T s) : Serial T s := by
  induction h with
  | refl => exact serial_init
  | tail _ hstep ih => exact ih.step hstep

/-- The committed row and entries of a key are the replay of its committed calls. -/
theorem committed (h : Reachable T s) (key : κ) :
    T.replay (T.callsOf key s.calls) = (s.row key, T.entriesOf key s.log) :=
  h.serial.committed key

/-- What holds of no row and no entries, and is kept by every call on the key,
holds of the committed row and entries of the key. -/
theorem invariant (h : Reachable T s) (key : κ) (P : Option ρ → List ε → Prop)
    (hnil : P none [])
    (hcall : ∀ call row entries, T.keyOf call = key → P row entries →
      P (some (T.run call row).1) (entries ++ (T.run call row).2)) :
    P (s.row key) (T.entriesOf key s.log) := by
  have hreplay : ∀ calls : List γ, (∀ call ∈ calls, T.keyOf call = key) →
      P (T.replay calls).1 (T.replay calls).2 := by
    intro calls
    induction calls using List.reverseRecOn with
    | nil => exact fun _ => hnil
    | append_singleton calls call ih =>
      intro hkeys
      rw [T.replay_concat]
      have hcalls := ih fun c hc => hkeys c (List.mem_append_left _ hc)
      exact hcall call _ _ (hkeys call (by simp)) hcalls
  have hkeys : ∀ call ∈ T.callsOf key s.calls, T.keyOf call = key := fun call hmem => by
    simpa using (List.mem_filter.mp hmem).2
  simpa [h.committed key] using hreplay _ hkeys

end Reachable

/-! ## A session alone -/

/-- A session that is alone, and ready, can run any call that locks its row. -/
theorem exists_execute {s : State Unit κ ρ γ ε} (h : Reachable T s)
    (hmode : (s.session ()).mode = .ready) {call : γ} (hlocks : T.locks call = true) :
    ∃ s', Reachable T s' ∧ (s'.session ()).mode = .ready ∧ s'.calls = s.calls ∧
      (s'.session ()).calls = (s.session ()).calls ++ [call] := by
  have hfree : ∀ s : State Unit κ ρ γ ε, s.Free () (T.keyOf call) := fun s u hu =>
    absurd (Subsingleton.elim u ()) hu
  cases hrow : s.visible () (T.keyOf call) with
  | some row =>
    have hlock := h.tail (.lock () call row hmode hlocks hrow (hfree s))
    exact ⟨_, hlock, by simp [State.setSession, Session.execute], rfl,
      by simp [State.setSession, Session.execute]⟩
  | none =>
    have hmiss := h.tail (.miss () call hmode hrow)
    have hinsert := hmiss.tail (.insert () call (by simp [State.setSession])
      (by simpa [State.visible, State.setSession] using hrow) (hfree _))
    exact ⟨_, hinsert, by simp [State.setSession, Session.execute], rfl,
      by simp [State.setSession, Session.execute]⟩

/-- A session that is alone can run any such calls in one transaction, and commit them. -/
theorem exists_reachable_calls (T : Table κ ρ γ ε) {calls : List γ}
    (hlocks : ∀ call ∈ calls, T.locks call = true) :
    ∃ s : State Unit κ ρ γ ε, Reachable T s ∧ s.calls = calls := by
  have hrun : ∃ s : State Unit κ ρ γ ε, Reachable T s ∧ (s.session ()).mode = .ready ∧
      s.calls = [] ∧ (s.session ()).calls = calls := by
    -- By induction on the calls, from the last one; the session stays ready.
    induction calls using List.reverseRecOn with
    | nil => exact ⟨.init, .refl, rfl, rfl, rfl⟩
    | append_singleton calls call ih =>
      obtain ⟨s, hs, hmode, hcommitted, hcalls⟩ :=
        ih fun c hc => hlocks c (List.mem_append_left _ hc)
      obtain ⟨s', hs', hmode', hcommitted', hcalls'⟩ :=
        exists_execute hs hmode (hlocks call (by simp))
      exact ⟨s', hs', hmode', hcommitted'.trans hcommitted, by rw [hcalls', hcalls]⟩
  obtain ⟨s, hs, hmode, hcommitted, hcalls⟩ := hrun
  exact ⟨_, hs.tail (.commit () hmode), by simp [State.commit, hcommitted, hcalls]⟩

end Logit.Concurrency
