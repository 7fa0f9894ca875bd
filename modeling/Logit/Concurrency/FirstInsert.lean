import Logit.Concurrency.RowLock

/-!
# The first insert of a row

A locking read that finds no row locks nothing, so several sessions can find none and
go on to insert it. The key lets one of them through; the others wait for it, and fail
when it commits.

Here a statement fails for one of two reasons only: it inserts a row that is committed,
or its session waits, around a circle, for itself. Sessions are orderly if none commits a
row that another is about to insert, and if there is no such circle. Then nothing fails.

## Main definitions

* `Waits` — a session waits for a row that another holds
* `ServedStep` — one statement of one session, which fails only for a reason
* `Overtakes` — a session has a row that another is about to insert
* `OrderlyStep` — a step without an overtaking commit and without a circle
* `Unimpeded` — no session has failed or is about to insert a row it can see

## Main results

* `ServedStep.step` — these are statements of sessions on the table
* `Unimpeded.step`, `unimpeded_of_orderly` — in orderly runs no statement fails
* `exists_overtaken_commit`, `Overtaken.step` — a commit that is not orderly overtakes an
  insert, which then never goes through
-/

namespace Logit.Concurrency

variable {τ κ ρ γ ε : Type*}

/-- A session waits, at its next call, for a row that another session holds: to insert it
itself, or to lock it where it has been committed. -/
structure Waits (T : Table κ ρ γ ε) (s : State τ κ ρ γ ε) (next : τ → γ) (t u : τ) : Prop where
  other : u ≠ t
  held : (s.session u).held (T.keyOf (next t)) ≠ none
  waiting : (s.session t).mode = .inserting (next t) ∨
    (s.session t).mode = .ready ∧ T.locks (next t) = true ∧ s.row (T.keyOf (next t)) ≠ none

/-- A session has a row that another session is about to insert. -/
def Overtakes (T : Table κ ρ γ ε) (s : State τ κ ρ γ ε) (t : τ) : Prop :=
  ∃ u ≠ t, ∃ call, (s.session u).mode = .inserting call ∧
    (s.session t).held (T.keyOf call) ≠ none

/-- What a step is to the other sessions. -/
inductive StepKind (τ : Type*)
  /-- A statement goes through and leaves its transaction open, or the transaction is dropped. -/
  | statement
  | commit (t : τ)
  /-- An insert meets a committed row of its key. -/
  | conflict
  /-- The database gives up one of the sessions that wait for each other. -/
  | deadlock

variable [DecidableEq τ] [DecidableEq κ]

/-- One statement of one session; it fails only where another session is in its way. -/
inductive ServedStep (T : Table κ ρ γ ε) (s : State τ κ ρ γ ε) :
    StepKind τ → State τ κ ρ γ ε → Prop
  /-- A locking read finds the row, which no other session holds, and the call runs on it. -/
  | lock (t : τ) (call : γ) (row : ρ) (hmode : (s.session t).mode = .ready)
      (hlocks : T.locks call = true) (hrow : s.visible t (T.keyOf call) = some row)
      (hfree : s.Free t (T.keyOf call)) :
      ServedStep T s .statement (s.setSession t ((s.session t).execute T call (some row)))
  /-- A read without a lock finds the row, and the call ends there. -/
  | peek (t : τ) (call : γ) (row : ρ) (hmode : (s.session t).mode = .ready)
      (hlocks : T.locks call = false) (hrow : s.visible t (T.keyOf call) = some row) :
      ServedStep T s .statement s
  /-- A read finds no row; there is nothing to lock. -/
  | miss (t : τ) (call : γ) (hmode : (s.session t).mode = .ready)
      (hrow : s.visible t (T.keyOf call) = none) :
      ServedStep T s .statement (s.setSession t { s.session t with mode := .inserting call })
  /-- The insert goes through: no committed row and no insert of another session
  has the key. -/
  | insert (t : τ) (call : γ) (hmode : (s.session t).mode = .inserting call)
      (hrow : s.visible t (T.keyOf call) = none) (hfree : s.Free t (T.keyOf call)) :
      ServedStep T s .statement (s.setSession t ((s.session t).execute T call none))
  /-- The insert meets a committed row of its key. -/
  | conflict (t : τ) (call : γ) (hmode : (s.session t).mode = .inserting call)
      (hrow : s.row (T.keyOf call) ≠ none) : ServedStep T s .conflict (s.setSession t .broken)
  /-- The database gives up a session that waits, around a circle, for itself. -/
  | deadlock (t : τ) (next : τ → γ) (hcircle : Relation.TransGen (Waits T s next) t t) :
      ServedStep T s .deadlock (s.setSession t .broken)
  | commit (t : τ) (hmode : (s.session t).mode = .ready) : ServedStep T s (.commit t) (s.commit t)
  | rollback (t : τ) : ServedStep T s .statement (s.setSession t .fresh)

/-- A step that is in nobody's way: no overtaking commit, and no circle. -/
def StepKind.Orderly (T : Table κ ρ γ ε) (s : State τ κ ρ γ ε) : StepKind τ → Prop
  | .commit t => ¬ Overtakes T s t
  | .deadlock => False
  | _ => True

/-- A step without an overtaking commit and without a circle of waiting sessions. -/
def OrderlyStep (T : Table κ ρ γ ε) (s s' : State τ κ ρ γ ε) : Prop :=
  ∃ kind : StepKind τ, ServedStep T s kind s' ∧ kind.Orderly T s

/-- No session has failed, and none is about to insert a row that it can see. -/
structure Unimpeded (T : Table κ ρ γ ε) (s : State τ κ ρ γ ε) : Prop where
  not_failed : ∀ t, (s.session t).mode ≠ .failed
  unseen : ∀ t call, (s.session t).mode = .inserting call → s.visible t (T.keyOf call) = none

/-- A session is about to insert a row that another has committed. -/
structure Overtaken (T : Table κ ρ γ ε) (s : State τ κ ρ γ ε) (t : τ) (call : γ) : Prop where
  inserting : (s.session t).mode = .inserting call
  committed : s.row (T.keyOf call) ≠ none

variable {T : Table κ ρ γ ε} {s s' : State τ κ ρ γ ε} {t : τ} {call : γ} {kind : StepKind τ}

/-- These are statements of sessions on the table, which may fail at any point. -/
theorem ServedStep.step (h : ServedStep T s kind s') : Step T s s' := by
  cases h with
  | lock t call row hmode hlocks hrow hfree => exact .lock t call row hmode hlocks hrow hfree
  | peek t call row hmode hlocks hrow => exact .peek t call row hmode hlocks hrow
  | miss t call hmode hrow => exact .miss t call hmode hrow
  | insert t call hmode hrow hfree => exact .insert t call hmode hrow hfree
  | conflict t call hmode hrow => exact .fail t
  | deadlock t next hcircle => exact .fail t
  | commit t hmode => exact .commit t hmode
  | rollback t => exact .rollback t

theorem OrderlyStep.step (h : OrderlyStep T s s') : Step T s s' := by
  obtain ⟨kind, hserved, -⟩ := h
  exact hserved.step

omit [DecidableEq τ] [DecidableEq κ] in
/-- Every call leaves a row. -/
theorem Table.replay_fst_eq_none_iff {calls : List γ} :
    (T.replay calls).1 = none ↔ calls = [] := by
  induction calls using List.reverseRecOn with
  | nil => simp
  | append_singleton calls call ih => simp [T.replay_concat]

/-! ## Orderly runs -/

omit [DecidableEq τ] [DecidableEq κ] in
theorem unimpeded_init : Unimpeded T (State.init : State τ κ ρ γ ε) where
  not_failed t := by simp [State.init, Session.fresh]
  unseen t call hmode := by simp [State.init, Session.fresh] at hmode

namespace Unimpeded

omit [DecidableEq κ] in
/-- A session changes without a commit; it has not failed and is not about to insert a
row it can see. -/
theorem setSession (h : Unimpeded T s) {x : Session κ ρ γ ε} (hfailed : x.mode ≠ .failed)
    (hunseen : ∀ call, x.mode = .inserting call →
      (x.held (T.keyOf call)).or (s.row (T.keyOf call)) = none) :
    Unimpeded T (s.setSession t x) where
  not_failed u := by
    by_cases hut : u = t
    · simpa [State.setSession, hut] using hfailed
    · simpa [State.setSession, hut] using h.not_failed u
  unseen u call hmode := by
    by_cases hut : u = t
    · have hx : x.mode = .inserting call := by simpa [State.setSession, hut] using hmode
      simpa [State.visible, State.setSession, hut] using hunseen call hx
    · have hu : (s.session u).mode = .inserting call := by
        simpa [State.setSession, hut] using hmode
      simpa [State.visible, State.setSession, hut] using h.unseen u call hu

omit [DecidableEq κ] in
/-- A session that is ready is not about to insert. -/
theorem setSession_ready (h : Unimpeded T s) {x : Session κ ρ γ ε} (hready : x.mode = .ready) :
    Unimpeded T (s.setSession t x) :=
  h.setSession (by simp [hready]) (by simp [hready])

omit [DecidableEq κ] in
theorem commit (h : Unimpeded T s) (hovertakes : ¬ Overtakes T s t) :
    Unimpeded T (s.commit t) where
  not_failed u := by
    by_cases hut : u = t
    · simp [State.commit, hut, Session.fresh]
    · simpa [State.commit, hut] using h.not_failed u
  unseen u call hmode := by
    by_cases hut : u = t
    · simp [State.commit, hut, Session.fresh] at hmode
    · have hu : (s.session u).mode = .inserting call := by simpa [State.commit, hut] using hmode
      have hunseen := h.unseen u call hu
      simp only [State.visible, Option.or_eq_none_iff] at hunseen
      obtain ⟨hheld, hrow⟩ := hunseen
      have hnot : (s.session t).held (T.keyOf call) = none := by
        by_contra hne
        exact hovertakes ⟨u, hut, call, hu, hne⟩
      simp [State.visible, State.commit, hut, hheld, hrow, hnot]

theorem step (h : Unimpeded T s) (hstep : OrderlyStep T s s') : Unimpeded T s' := by
  obtain ⟨kind, hserved, horderly⟩ := hstep
  cases hserved with
  | lock t call row hmode hlocks hrow hfree => exact h.setSession_ready rfl
  | peek => exact h
  | miss t call hmode hrow =>
    refine h.setSession (by simp) fun call' hcall => ?_
    obtain rfl : call = call' := by simpa using hcall
    exact hrow
  | insert t call hmode hrow hfree => exact h.setSession_ready rfl
  | conflict t call hmode hrow =>
    have hunseen := h.unseen t call hmode
    simp only [State.visible, Option.or_eq_none_iff] at hunseen
    exact absurd hunseen.2 hrow
  | deadlock => exact horderly.elim
  | commit t hmode => exact h.commit horderly
  | rollback t => exact h.setSession_ready rfl

end Unimpeded

/-- In orderly runs no statement fails. -/
theorem unimpeded_of_orderly (h : Relation.ReflTransGen (OrderlyStep T) .init s) :
    Unimpeded T s := by
  induction h with
  | refl => exact unimpeded_init
  | tail _ hstep ih => exact ih.step hstep

/-- Orderly runs reach what sessions can reach. -/
theorem reachable_of_orderly (h : Relation.ReflTransGen (OrderlyStep T) .init s) :
    Reachable T s :=
  Relation.ReflTransGen.mono (fun _ _ => OrderlyStep.step) _ _ h

/-! ## Overtaken inserts -/

omit [DecidableEq κ] in
/-- A commit that is not orderly overtakes an insert. -/
theorem exists_overtaken_commit (h : Overtakes T s t) :
    ∃ u call, Overtaken T (s.commit t) u call := by
  obtain ⟨u, hut, call, hmode, hheld⟩ := h
  refine ⟨u, call, ?_, ?_⟩
  · simpa [State.commit, hut] using hmode
  · simp [State.commit, State.visible, hheld]

/-- An insert that has been overtaken never goes through: its session waits on, fails or
drops its transaction. -/
theorem Overtaken.step (h : Overtaken T s t call) (hstep : ServedStep T s kind s') :
    Overtaken T s' t call ∨ s'.session t = .broken ∨ s'.session t = .fresh := by
  have hother : ∀ {u x}, u ≠ t → Overtaken T (s.setSession u x) t call := fun hut =>
    ⟨by simpa [State.setSession, hut.symm] using h.inserting, h.committed⟩
  cases hstep with
  | lock u call' row hmode hlocks hrow hfree =>
    refine .inl (hother ?_)
    rintro rfl
    simp [h.inserting] at hmode
  | peek => exact .inl h
  | miss u call' hmode hrow =>
    refine .inl (hother ?_)
    rintro rfl
    simp [h.inserting] at hmode
  | insert u call' hmode hrow hfree =>
    refine .inl (hother ?_)
    rintro rfl
    obtain rfl : call = call' := by simpa [h.inserting] using hmode
    simp only [State.visible, Option.or_eq_none_iff] at hrow
    exact h.committed hrow.2
  | conflict u call' hmode hrow =>
    by_cases hut : u = t
    · exact .inr (.inl (by simp [State.setSession, hut]))
    · exact .inl (hother hut)
  | deadlock u next hcircle =>
    by_cases hut : u = t
    · exact .inr (.inl (by simp [State.setSession, hut]))
    · exact .inl (hother hut)
  | commit u hmode =>
    have hut : u ≠ t := by
      rintro rfl
      simp [h.inserting] at hmode
    refine .inl ⟨by simpa [State.commit, hut.symm] using h.inserting, ?_⟩
    simp [State.commit, State.visible, h.committed]
  | rollback u =>
    by_cases hut : u = t
    · exact .inr (.inr (by simp [State.setSession, hut]))
    · exact .inl (hother hut)

end Logit.Concurrency
