import Logit.Chats.Charging
import Logit.Concurrency.Halting

/-!
# Compensation of a failed answer

When a database operation fails after the cost of a draft has been taken, the handler
gives the cost back. It does so on the session whose operation has failed, and that
session refuses every statement until it is rolled back, which nothing does; and the
user's message is saved outside of the handler. So the cost is given back only where
the charge had been settled before the failure.

## Main definitions

* `Compensated` — without a saved answer, nothing is charged in the end
* `Stopped` — what a program leaves that is stopped at a suspension point

## Main results

* `compensated_run_iff` — a charged request in which a database operation fails is
  compensated if and only if its charge was settled before
-/

namespace Logit.Chats

open Concurrency Concurrency.Action Python Tokens

/-- If no answer has been committed, what was taken has been given back. -/
def Compensated (w : World) : Prop := answersOf w.chats = [] → ledgerSum w.transactions = 0

/-! ## A failed session -/

/-- A database operation has failed, with so much committed. -/
def Broke (c : ℤ × List Bool) (w : World) : Prop := w.broken = true ∧ w.committed = c

section Broke

variable {request : Request} {c : ℤ × List Bool}

/-- After a failure no statement goes through, so nothing is given back on the session. -/
theorem steady_broke : Steady request (Broke c) where
  statement effect _ := by
    intro f hf
    change Broke c ((if f.world.broken then raise else _ : Action World Unit) f).2.world
    rw [hf.1]
    exact hf
  emit event _ := by
    refine Keeps.bind (Keeps.modify ?_) fun _ => Keeps.suspend (fun _ h => h) fun _ h => h
    exact fun _ h => h
  wait := Keeps.suspend (fun _ h => h) fun _ h => h
  record _ _ h := h
  add _ _ h := h

theorem prededuct_answer_broke (question : Question) :
    Keeps (Broke c) (do
      match ← prededuct request with
      | .ok balance => answer request question (some balance)
      | .error (.insufficientTokens current _) =>
        emit request (.done none false false (some current) none)
      | .error (.keyError _) => raise) :=
  steady_broke.prededuct.bind fun result => steady_broke.answered question result

end Broke

/-! ## Stopped programs -/

/-- What a program leaves that may not proceed at a suspension point: where it fails, either a
database operation has failed, or an exception is raised in a world with `D`. -/
def Stopped (D : ℤ × List Bool → Interrupt → World → Prop) (c : ℤ × List Bool) :
    Fate → Option Interrupt → World → Prop
  | .proceed, _, _ => True
  | .fail, e, w => Broke c w ∨ ∃ e', e = some e' ∧ D c e' w
  | .cancel _, e, w => e = some .cancelled ∧ w.broken = false

/-- The same, with `before` committed up to the failure of the `s`-th point and `after` from
there on. -/
def StopsAt (D : ℤ × List Bool → Interrupt → World → Prop) (s : ℕ) (before after : ℤ × List Bool)
    (i : ℕ) : Fate → Option Interrupt → World → Prop :=
  Stopped D (if s < i then after else before)

/-- No exception but of a database operation. -/
def Never (_ : ℤ × List Bool) (_ : Interrupt) (_ : World) : Prop := False

/-- What the request waits for has failed, and nothing is open. -/
def Waited (c : ℤ × List Bool) (e : Interrupt) (w : World) : Prop := e = .exception ∧ Rests c w

/-- No database operation has failed in the end. -/
def Over (_ : ℤ × List Bool) (_ : Interrupt) (w : World) : Prop := w.broken = false

section Stopped

variable {D D' : ℤ × List Bool → Interrupt → World → Prop} {c before after : ℤ × List Bool}
  {s j k : ℕ} {α β : Type} {plan : ℕ → Fate} {P : World → Prop} {m : Action World α}
  {Q : α → World → Prop} {R₀ : ℕ → Bool → World → Prop} {g : α → Action World β}

theorem Stopped.mono {fate : Fate} {e : Option Interrupt} {w : World}
    (h : ∀ e w, D c e w → D' c e w) (hstopped : Stopped D c fate e w) :
    Stopped D' c fate e w := by
  cases fate with
  | proceed => trivial
  | fail =>
    rcases hstopped with hbroke | ⟨e', he, hD⟩
    · exact .inl hbroke
    · exact .inr ⟨e', he, h e' w hD⟩
  | cancel done => exact hstopped

theorem StopsAt.of_before {i : ℕ} (hi : i ≤ s) :
    StopsAt D s before after i = Stopped D before := by
  rw [StopsAt, if_neg (by omega)]

theorem StopsAt.of_after {i : ℕ} (hi : s < i) :
    StopsAt D s before after i = Stopped D after := by
  rw [StopsAt, if_pos hi]

theorem StopsAt.self (i : ℕ) : StopsAt D s c c i = Stopped D c := by
  rw [StopsAt, ite_self]

theorem StopsAt.add (i : ℕ) :
    StopsAt D (j + s) before after (j + i) = StopsAt D s before after i := by
  simp only [StopsAt, Nat.add_lt_add_iff_left]

/-- A program that ends although it was stopped has swallowed the failure of a database
operation, and what comes after it runs on the failed session. -/
theorem stopped_bind {R : ℕ → Fate → Option Interrupt → World → Prop}
    (hm : Triple plan j P m Q R₀) (hhalts : Halts plan j P m R)
    (hg : ∀ a, Halts plan k (Q a) (g a) fun i => R (j + i))
    (hR : ∀ i < j, ∃ c, R i = Stopped D c) (hkeeps : ∀ c a, Keeps (Broke c) (g a)) :
    Halts plan (j + k) P (m >>= g) R := by
  apply Halts.bind hm hhalts hg
  intro i hi fate w h a f hf
  obtain ⟨c, hc⟩ := hR i hi
  rw [hc] at h ⊢
  cases fate with
  | proceed => trivial
  | fail =>
    rcases h with hbroke | ⟨e', he, -⟩
    · exact .inl (hkeeps c a f (hf ▸ hbroke))
    · cases he
  | cancel done => cases h.1

theorem stopped_bind_quiet (hm : Triple plan j P m Q R₀)
    (hhalts : Halts plan j P m fun _ => Stopped D c)
    (hg : ∀ a, Halts plan k (Q a) (g a) fun _ => Stopped D c)
    (hkeeps : ∀ c a, Keeps (Broke c) (g a)) :
    Halts plan (j + k) P (m >>= g) fun _ => Stopped D c :=
  stopped_bind hm hhalts hg (fun _ _ => ⟨c, rfl⟩) hkeeps

/-- After a program that commits nothing. -/
theorem stopsAt_bind_before (hm : Triple plan j P m Q R₀)
    (hhalts : Halts plan j P m fun _ => Stopped D before)
    (hg : ∀ a, Halts plan k (Q a) (g a) (StopsAt D s before after))
    (hkeeps : ∀ c a, Keeps (Broke c) (g a)) :
    Halts plan (j + k) P (m >>= g) (StopsAt D (j + s) before after) := by
  refine stopped_bind (R := StopsAt D (j + s) before after) hm ?_ ?_ (fun i _ => ⟨_, rfl⟩) hkeeps
  · refine hhalts.mono fun i hi fate e w h => ?_
    rwa [StopsAt.of_before (by omega)]
  · refine fun a => (hg a).mono fun i _ fate e w h => ?_
    rwa [StopsAt.add]

/-- Before a program that commits nothing. -/
theorem stopsAt_bind_after (hm : Triple plan j P m Q R₀)
    (hhalts : Halts plan j P m (StopsAt D s before after)) (hs : s < j)
    (hg : ∀ a, Halts plan k (Q a) (g a) fun _ => Stopped D after)
    (hkeeps : ∀ c a, Keeps (Broke c) (g a)) :
    Halts plan (j + k) P (m >>= g) (StopsAt D s before after) := by
  refine stopped_bind hm hhalts (fun a => ?_) (fun i _ => ⟨_, rfl⟩) hkeeps
  refine (hg a).mono fun i _ fate e w h => ?_
  rwa [StopsAt.of_after (by omega)]

end Stopped

/-! ## Where the parts of a request stop -/

section Parts

variable {request : Request} {n : ℕ} {c o : ℤ × List Bool}
  {D : ℤ × List Bool → Interrupt → World → Prop}

theorem statement_halts {effect : World → World}
    (h : ∀ w, w.broken = false → (effect w).broken = false) :
    Halts request.plan 1 (Standing n c o) (statement request effect) fun _ => Stopped D c := by
  apply Halts.get_bind
  intro w₀ h₀
  rw [if_neg (by simp [h₀.intact])]
  apply Halts.suspend
  · rintro w rfl
    exact .inl ⟨rfl, h₀.committed⟩
  · rintro w rfl
    exact ⟨⟨rfl, h₀.intact⟩, rfl, h w h₀.intact⟩

theorem commit_halts :
    Halts request.plan 1 (Standing n c o) (commit request) fun _ => Stopped D c :=
  statement_halts fun _ h => h

theorem suspend_halts :
    Halts request.plan 1 (Standing n c (0, [])) (suspend request.plan id id)
      fun _ => Stopped Waited c := by
  apply Halts.suspend
  · intro w h
    exact .inr ⟨_, rfl, rfl, n, h⟩
  · intro w h
    exact ⟨⟨rfl, h.intact⟩, rfl, h.intact⟩

theorem emit_halts (event : SseEvent) :
    Halts request.plan 1 (Standing n c (0, [])) (emit request event)
      fun _ => Stopped Waited c :=
  Halts.bind_zero (event_triple (R := Quiet World.committed c) event) fun _ => suspend_halts

theorem emit_return_halts (event : SseEvent) (fullContent : String) :
    Halts request.plan 1 (Standing n c (0, [])) (do emit request event; return fullContent)
      fun _ => Stopped Waited c :=
  stopped_bind_quiet (k := 0) (emit_triple event) (emit_halts event) (fun _ => Halts.zero)
    fun _ _ => Keeps.pure _

theorem createChat_halts (question : Question) (chatId : UUID) (role : ChatRole)
    (content : String) (isDraft : Bool) :
    Halts request.plan 2 (Standing n c o)
      (createChat request question chatId role content isDraft)
      (StopsAt D 0 c (join c (join o (0, answer? role isDraft)))) := by
  refine Halts.bind_zero (addChat_triple (R := Quiet World.committed c)) fun _ => ?_
  refine stopsAt_bind_after (j := 1) (k := 1) commit_triple ?_ (by omega)
    (fun _ => statement_halts fun _ h => h) fun c _ => steady_broke.statement id fun _ => rfl
  refine (commit_halts (D := D)).mono fun i hi fate e w h => ?_
  rwa [StopsAt.of_before (by omega)]

theorem tokenCall_halts {α : Type} (function : Clock → Option UserToken → Outcome α) :
    Halts request.plan (callPoints request n) (Standing n c o) (tokenCall request function)
      fun _ => Stopped D c := by
  apply Halts.get_bind
  intro w₀ h₀
  rw [h₀.reads]
  have hread : Halts request.plan 1 (fun w => w = w₀)
      (statement request fun w => { w with reads := w.reads + 1 }) fun _ => Stopped D c := by
    refine (statement_halts (n := n) (o := o) ?_).pre ?_
    · exact fun _ h => h
    · rintro w rfl
      exact h₀
  have hsteady (c : ℤ × List Bool) : Steady request (Broke c) := steady_broke
  unfold callPoints
  split_ifs with hnone
  · -- The row is inserted first.
    refine stopped_bind_quiet (k := 1) (read_triple h₀) hread (fun _ => ?_)
      fun c _ => ((hsteady c).statement id fun _ => rfl).bind fun _ => (hsteady c).recorded _
    exact stopped_bind_quiet (k := 0) (statement_quiet fun w hw => hw)
      (statement_halts fun _ h => h) (fun _ => Halts.zero) fun c _ => (hsteady c).recorded _
  · exact stopped_bind_quiet (k := 0) (read_triple h₀) hread (fun _ => Halts.zero)
      fun c _ => (hsteady c).recorded _

theorem credit_halts {amount : ℤ} {txType : TokenTransactionType} {description : Option String} :
    Halts request.plan (callPoints request n) (Standing n c o)
      (tokenValue request fun clock row =>
        credit request.userId clock row amount txType description) fun _ => Stopped D c := by
  refine stopped_bind_quiet (k := 0) (tokenCall_triple _) (tokenCall_halts _)
    (fun _ => Halts.zero) fun _ result => ?_
  cases result
  · exact Keeps.raise
  · exact Keeps.pure _

/-- A refund that is stopped has given nothing back, and its exception is not raised. -/
theorem refundPrededuction_halts (huser : request.isTestUser = false) :
    Halts request.plan (callPoints request n + 1) (Standing n c (0, []))
      (refundPrededuction request)
      (StopsAt D (callPoints request n) c (join c (10, []))) := by
  unfold refundPrededuction
  rw [if_neg (by simp [huser])]
  have hinside : Halts request.plan (callPoints request n + 1) (Standing n c (0, [])) (do
      let _ ← tokenValue request fun clock row =>
        credit request.userId clock row DRAFT_TOKEN_COST .chatRefund (some "AI 오류 전액 환불")
      commit request) (fun _ => Stopped Never c) :=
    stopped_bind_quiet credit_triple credit_halts (fun _ => commit_halts)
      fun _ _ => steady_broke.commit
  refine hinside.swallow (fun i hi fate e w _ h => ?_) fun i hi fate w h => ?_
  · rw [StopsAt.of_before (by omega)]
    exact h.mono fun _ _ => False.elim
  · rw [StopsAt.of_before (by omega)]
    cases fate with
    | proceed => trivial
    | fail =>
      rcases h with hbroke | ⟨_, _, hnever⟩
      · exact .inl hbroke
      · exact hnever.elim
    | cancel done => cases h.1

theorem refundDifference_halts (huser : request.isTestUser = false) (balance : Option ℤ)
    (isDraft : Bool) :
    Halts request.plan (differencePoints request isDraft n) (Standing n c (0, []))
      (refundDifference request balance isDraft) fun _ => Stopped D c := by
  unfold refundDifference
  rw [if_neg (by simp [huser])]
  cases isDraft
  · exact stopped_bind_quiet (k := 0) credit_triple credit_halts (fun _ => Halts.zero)
      fun _ _ => Keeps.pure _
  · exact Halts.zero

theorem handleChunk_done_halts (huser : request.isTestUser = false) (question : Question)
    (balance : Option ℤ) (fullContent content : String) (isDraft : Bool) :
    Halts request.plan (differencePoints request isDraft n + 3) (Standing n c (0, []))
      (handleChunk request question balance fullContent (.done content isDraft))
      (StopsAt Waited (differencePoints request isDraft n) c
        (join c (difference isDraft, [isDraft]))) := by
  obtain ⟨n', hdifference⟩ := refundDifference_triple (n := n) (c := c) huser balance isDraft
  have hjoin : join (difference isDraft, []) (0, answer? .assistant isDraft) =
      (difference isDraft, [isDraft]) := by simp [answer?]
  refine stopsAt_bind_before (s := 0) hdifference (refundDifference_halts huser balance isDraft)
    (fun remaining => ?_) fun c _ => (steady_broke.createChat question _ _ _ _).bind fun _ =>
      steady_broke.emitReturn (by simp) _
  refine stopsAt_bind_after (j := 2) (k := 1)
    (createChat_triple question request.assistantChatId .assistant fullContent isDraft) ?_
    (by omega) (fun _ => ?_) fun c _ => steady_broke.emitReturn (by simp) _
  · rw [← hjoin]
    exact createChat_halts question request.assistantChatId .assistant fullContent isDraft
  · rw [hjoin]
    exact emit_return_halts _ fullContent

theorem handleChunk_error_halts (huser : request.isTestUser = false) (question : Question)
    (balance : Option ℤ) (fullContent message : String) :
    Halts request.plan (callPoints request n + 1 + 1) (Standing n c (0, []))
      (handleChunk request question balance fullContent (.error message))
      (StopsAt Waited (callPoints request n) c (join c (10, []))) :=
  stopsAt_bind_after (refundPrededuction_triple huser) (refundPrededuction_halts huser)
    (by omega) (fun _ => emit_return_halts _ fullContent)
    fun _ _ => steady_broke.emitReturn (by simp) _

theorem consume_pings_halts (question : Question) (balance : Option ℤ) {chunks : List Chunk}
    (hpings : ∀ chunk ∈ chunks, chunk = .ping) (fullContent : String) :
    Halts request.plan (2 * chunks.length + 1) (Standing n c (0, []))
      (consume request question balance chunks fullContent) fun _ => Stopped Waited c := by
  induction chunks generalizing fullContent with
  | nil => exact suspend_halts
  | cons chunk chunks ih =>
    obtain rfl : chunk = .ping := hpings chunk (by simp)
    rw [show 2 * (Chunk.ping :: chunks).length + 1 = 1 + (1 + (2 * chunks.length + 1)) by
      rw [List.length_cons]; omega]
    refine stopped_bind_quiet suspend_triple suspend_halts (fun _ => ?_) fun _ _ =>
      (steady_broke.handleChunk question balance fullContent _).bind fun _ =>
        steady_broke.consume question balance _ _
    refine stopped_bind_quiet (handleChunk_ping question balance fullContent)
      (emit_return_halts _ fullContent) (fun fullContent => ?_) fun _ _ =>
        steady_broke.consume question balance _ _
    exact ih (fun chunk hchunk => hpings chunk (by simp [hchunk])) fullContent

/-- Before the chunks that follow one that commits nothing. -/
theorem consume_cons_halts {question : Question} {balance : Option ℤ} {chunk : Chunk}
    {chunks : List Chunk} {event : SseEvent} {fullContent next : String} {s k : ℕ}
    {c' : ℤ × List Bool}
    (hchunk : handleChunk request question balance fullContent chunk =
      (do emit request event; return next))
    (hrest : ∀ fullContent, Halts request.plan k (Standing n c (0, []))
      (consume request question balance chunks fullContent) (StopsAt Waited s c c')) :
    Halts request.plan (2 + k) (Standing n c (0, []))
      (consume request question balance (chunk :: chunks) fullContent)
      (StopsAt Waited (2 + s) c c') := by
  rw [Nat.add_assoc 1 1 k, Nat.add_assoc 1 1 s]
  refine stopsAt_bind_before suspend_triple suspend_halts (fun _ => ?_) fun _ _ =>
    (steady_broke.handleChunk question balance fullContent _).bind fun _ =>
      steady_broke.consume question balance _ _
  rw [hchunk]
  refine stopsAt_bind_before (j := 1)
    (Triple.bind (j := 1) (k := 0) (emit_triple event) fun _ => Triple.pure fun w hw => hw)
    (emit_return_halts event next) hrest fun _ _ => steady_broke.consume question balance _ _

/-- The chunk that ends the answer, and the pings after it. -/
theorem consume_ending_halts {question : Question} {balance : Option ℤ} {chunk : Chunk}
    {chunks : List Chunk} {s k : ℕ} {c' : ℤ × List Bool}
    (hpings : ∀ chunk ∈ chunks, chunk = .ping) (fullContent : String) (hs : s < k)
    (htriple : ∃ n', Triple request.plan k (Standing n c (0, []))
      (handleChunk request question balance fullContent chunk) (fun _ => Standing n' c' (0, []))
      (Settles World.committed s c c'))
    (hhalts : Halts request.plan k (Standing n c (0, []))
      (handleChunk request question balance fullContent chunk) (StopsAt Waited s c c')) :
    Halts request.plan (1 + (k + (2 * chunks.length + 1))) (Standing n c (0, []))
      (consume request question balance (chunk :: chunks) fullContent)
      (StopsAt Waited (1 + s) c c') := by
  obtain ⟨n', htriple⟩ := htriple
  refine stopsAt_bind_before suspend_triple suspend_halts (fun _ => ?_) fun _ _ =>
    (steady_broke.handleChunk question balance fullContent _).bind fun _ =>
      steady_broke.consume question balance _ _
  exact stopsAt_bind_after htriple hhalts hs
    (fun fullContent => consume_pings_halts question balance hpings fullContent) fun _ _ =>
      steady_broke.consume question balance _ _

theorem consume_halts (huser : request.isTestUser = false) (question : Question)
    (balance : Option ℤ) {chunks : List Chunk} (hended : WellEnded chunks) (fullContent : String) :
    Halts request.plan (consumePoints request chunks) (Standing 1 (-10, []) (0, []))
      (consume request question balance chunks fullContent)
      (StopsAt Waited (settleIndex request chunks) (-10, []) (finalCharge chunks)) := by
  induction chunks generalizing fullContent with
  | nil =>
    refine (suspend_halts (n := 1)).mono fun i hi fate e w h => ?_
    rwa [StopsAt.of_before (by omega)]
  | cons chunk chunks ih =>
    cases chunk with
    | ping => exact consume_cons_halts rfl (ih hended)
    | content content => exact consume_cons_halts rfl (ih hended)
    | done content isDraft =>
      exact consume_ending_halts hended fullContent (by omega)
        (handleChunk_done huser question balance fullContent content isDraft)
        (handleChunk_done_halts huser question balance fullContent content isDraft)
    | error message =>
      exact consume_ending_halts hended fullContent (by omega)
        ⟨2, handleChunk_error huser question balance fullContent message⟩
        (handleChunk_error_halts huser question balance fullContent message)

end Parts

/-! ## What the handler gives back -/

section Handler

variable {request : Request} {c : ℤ × List Bool}

theorem Stopped.pass {fate : Fate} {e : Option Interrupt} {w : World} (he : e ≠ some .exception)
    (h : Stopped Waited c fate e w) : Stopped Over c fate e w := by
  cases fate with
  | proceed => trivial
  | fail =>
    rcases h with hbroke | ⟨e', rfl, rfl, -⟩
    · exact .inl hbroke
    · exact absurd rfl he
  | cancel done => exact h

/-- From a world in which nothing is open, the handler either ends on a sound session, or a
database operation fails and nothing is given back. -/
theorem refundPrededuction_rests (huser : request.isTestUser = false) (f : Frame World)
    (h : Rests c f.world) :
    Broke c (refundPrededuction request f).2.world ∨
      (refundPrededuction request f).2.world.broken = false := by
  obtain ⟨n, hn⟩ := h
  rcases (refundPrededuction_halts (D := Over) huser).cases (refundPrededuction_triple huser) f hn
    with ⟨_, w, hrun, hw, -⟩ | ⟨i, hi, -, hat, hstops⟩
  · rw [hrun]
    exact .inr hw.intact
  · rw [StopsAt.of_before (by omega)] at hstops
    cases hfate : request.plan (f.point + i) with
    | proceed => exact absurd hfate hat
    | fail =>
      rw [hfate] at hstops
      rcases hstops with hbroke | ⟨_, _, hover⟩
      · exact .inl hbroke
      · exact .inr hover
    | cancel done =>
      rw [hfate] at hstops
      exact .inr hstops.2

theorem Stopped.handled (huser : request.isTestUser = false) {fate : Fate} {f : Frame World}
    (h : Stopped Waited c fate (some .exception) f.world) :
    Stopped Over c fate
      (ending ((refundPrededuction request >>= fun _ => (raise : Action World Unit)) f).1)
      ((refundPrededuction request >>= fun _ => (raise : Action World Unit)) f).2.world := by
  have hraise : ∃ e, (refundPrededuction request >>= fun _ => (raise : Action World Unit)) f =
      (.error e, (refundPrededuction request f).2) := by
    rcases hrun : refundPrededuction request f with ⟨e | a, f'⟩
    · exact ⟨e, bind_apply_error hrun⟩
    · exact ⟨_, bind_apply_ok hrun⟩
  obtain ⟨e, hraise⟩ := hraise
  rw [hraise]
  cases fate with
  | proceed => trivial
  | fail =>
    rcases h with hbroke | ⟨_, _, _, hrests⟩
    · exact .inl (steady_broke.refundPrededuction f hbroke)
    · rcases refundPrededuction_rests huser f hrests with hbroke | hover
      · exact .inl hbroke
      · exact .inr ⟨e, rfl, hover⟩
  | cancel done => cases h.1

theorem answer_halts (huser : request.isTestUser = false) (hended : WellEnded request.chunks)
    (question : Question) (balance : Option ℤ) :
    Halts request.plan (2 + consumePoints request request.chunks) (Standing 1 (-10, []) (0, []))
      (answer request question balance)
      (StopsAt Over (2 + settleIndex request request.chunks) (-10, [])
        (finalCharge request.chunks)) := by
  have hsave : Triple request.plan 2 (Standing 1 (-10, []) (0, []))
      (createUserChat request question) (fun _ => Standing 1 (-10, []) (0, []))
      (Settles World.committed 0 (-10, []) (-10, [])) :=
    createChat_triple question request.userChatId .user request.content false
  have hsaved : Halts request.plan 2 (Standing 1 (-10, []) (0, []))
      (createUserChat request question) fun _ => Stopped Over (-10, []) := by
    have hcreate : Halts request.plan 2 (Standing 1 (-10, []) (0, [])) _ (StopsAt Over 0 _ _) :=
      createChat_halts question request.userChatId .user request.content false
    refine hcreate.mono fun i _ fate e w h => ?_
    rwa [← StopsAt.self (s := 0) i]
  refine stopsAt_bind_before hsave hsaved (fun _ => ?_) fun _ _ =>
    (steady_broke.consume question balance _ _).attempt steady_broke.refundPrededuction
  exact (consume_halts huser question balance hended "").attempt
    (fun _ _ _ _ _ he h => h.pass he) fun _ _ _ _ h => h.handled huser

theorem prededuct_halts {D : ℤ × List Bool → Interrupt → World → Prop} {token : UserToken}
    (hfound : request.found 0 = some token) (hbalance : DRAFT_TOKEN_COST ≤ token.balance) :
    Halts request.plan 2 (Standing 0 (0, []) (0, [])) (prededuct request)
      fun _ => Stopped D (0, []) := by
  have hpoints : callPoints request 0 = 1 := by simp [callPoints, hfound]
  obtain ⟨hresult, -⟩ := debit_recorded (request.clock 0) request.userId .draftUsage
    (some "선차감 (채팅/초안)") hbalance
  rw [show 2 = callPoints request 0 + 1 by rw [hpoints]]
  refine stopped_bind_quiet (tokenCall_triple _) (tokenCall_halts _) (fun result => ?_)
    fun c result => ?_
  · apply Halts.of_imp
    rintro rfl
    rw [hfound, hresult]
    exact stopped_bind_quiet (k := 0) commit_triple commit_halts (fun _ => Halts.zero)
      fun _ _ => Keeps.pure _
  · cases result
    · exact Keeps.pure _
    · exact steady_broke.commit.bind fun _ => Keeps.pure _

/-- What a request leaves that is stopped: the fourth point takes the cost of a draft, and from
then on the answer settles the charge. -/
def StopsIn (s : ℕ) (final : ℤ × List Bool) (i : ℕ) :
    Fate → Option Interrupt → World → Prop :=
  Stopped Over (if i < 4 then (0, []) else if s < i - 4 then final else (-10, []))

/-- A stopped request that may be answered and paid for. -/
theorem sendChatStream_halts (huser : request.isTestUser = false)
    (hended : WellEnded request.chunks) (hpayable : request.Payable) :
    Halts request.plan (4 + (2 + consumePoints request request.chunks))
      (Standing 0 (0, []) (0, [])) (sendChatStream request)
      (StopsIn (2 + settleIndex request request.chunks) (finalCharge request.chunks)) := by
  obtain ⟨⟨question, hquestion, howner⟩, hproject, token, hfound, hbalance⟩ := hpayable
  have hanswer := answer_halts huser hended question (some (token.balance - DRAFT_TOKEN_COST))
  generalize 2 + consumePoints request request.chunks = k,
    2 + settleIndex request request.chunks = s, finalCharge request.chunks = final at hanswer ⊢
  have hbefore : ∀ {j l : ℕ} {α : Type} {m : Action World α}, j + l ≤ 4 →
      Halts request.plan l (Standing 0 (0, []) (0, [])) m (fun _ => Stopped Over (0, [])) →
      Halts request.plan l (Standing 0 (0, []) (0, [])) m fun i => StopsIn s final (j + i) := by
    intro j l α m hjl hm
    refine hm.mono fun i hi fate e w h => ?_
    rwa [StopsIn, if_pos (by omega)]
  have hstatement : Triple request.plan 1 (Standing 0 (0, []) (0, [])) (statement request id)
      (fun _ => Standing 0 (0, []) (0, [])) (Quiet World.committed (0, [])) :=
    statement_quiet fun w hw => hw
  have hstatements : Halts request.plan 1 (Standing 0 (0, []) (0, [])) (statement request id)
      fun _ => Stopped Over (0, []) := statement_halts fun _ h => h
  have hafter : Halts request.plan k (Standing 1 (-10, []) (0, []))
      (answer request question (some (token.balance - DRAFT_TOKEN_COST)))
      fun i => StopsIn s final (4 + i) := by
    refine hanswer.mono fun i hi fate e w h => ?_
    rwa [StopsIn, if_neg (by omega), Nat.add_sub_cancel_left]
  rw [sendChatStream_eq huser hquestion howner hproject, show 4 + k = 1 + (1 + (2 + k)) by omega]
  refine stopped_bind hstatement (by simpa using hbefore (j := 0) (by omega) hstatements)
    (fun _ => ?_) (fun i _ => ⟨_, rfl⟩) fun c _ =>
      (steady_broke.statement id fun _ => rfl).bind fun _ =>
        prededuct_answer_broke question
  refine stopped_bind hstatement (hbefore (j := 1) (by omega) hstatements) (fun _ => ?_)
    (fun i _ => ⟨_, rfl⟩) fun c _ => prededuct_answer_broke question
  simp only [← Nat.add_assoc, Nat.reduceAdd]
  refine stopped_bind (prededuct_triple hfound hbalance)
    (hbefore (j := 2) (by omega) (prededuct_halts hfound hbalance)) (fun result => ?_)
    (fun i _ => ⟨_, rfl⟩) fun c result => steady_broke.answered question result
  apply Halts.of_imp
  rintro rfl
  simp only [← Nat.add_assoc, Nat.reduceAdd]
  exact hafter

end Handler

/-! ## Compensation -/

/-- An exact charge without an answer is none. -/
theorem exact_compensated {committed : ℤ × List Bool} (h : Exact committed) :
    committed.2 = [] → committed.1 = 0 := by
  obtain ⟨spent, _ | ⟨answer, answers⟩⟩ := committed
  · exact fun _ => h
  · exact fun hnil => absurd hnil (List.cons_ne_nil _ _)

/-- Of a request whose cost has been taken and in which a database operation has failed, the
charge is settled if and only if what was taken has been given back or an answer is saved. -/
theorem compensated_iff_settled {s k i : ℕ} {final : ℤ × List Bool} {request : Request}
    {e : Option Interrupt} {w : World} (hends : Ends (settlePoint request) (4 + s) k final)
    (hcharged : request.Charged) (hbroken : w.broken = true)
    (hbefore : ∀ j < i, request.plan j = .proceed) (hat : request.plan i ≠ .proceed)
    (hstops : StopsIn s final i (request.plan i) e w) : Compensated w ↔ request.Settled := by
  have hnot : ¬ (([] : List Bool) = [] → (-10 : ℤ) = 0) := by decide
  cases hfate : request.plan i with
  | proceed => exact absurd hfate hat
  | cancel done =>
    rw [hfate] at hstops
    rw [hstops.2] at hbroken
    cases hbroken
  | fail =>
    have hreached := fun c => reached_iff_of_failed (c := c) hbefore hfate
    have hi : 3 < i := (hreached 3).mp hcharged.2
    rw [hfate, StopsIn, if_neg (by omega)] at hstops
    rcases hstops with ⟨-, hcommitted⟩ | ⟨_, _, hover⟩
    · change (w.committed.2 = [] → w.committed.1 = 0) ↔ _
      rw [hcommitted]
      rcases hends with ⟨hsome, -, hfinal⟩ | ⟨hnone, rfl⟩
      · rw [settled_iff hsome, hreached]
        split_ifs with hs
        · exact iff_of_true (exact_compensated hfinal) (by omega)
        · exact iff_of_false hnot (by omega)
      · -- Nothing settles the charge.
        rw [ite_self]
        exact iff_of_false hnot fun ⟨c, hc, _⟩ => by simp [hnone] at hc
    · rw [hover] at hbroken
      cases hbroken

/-- Whatever the producer yields and wherever the request is stopped: if a database operation
fails after the cost of a draft has been taken, it is compensated if and only if the charge was
settled before. -/
theorem compensated_run_iff (request : Request) (pipeline : Pipeline) (pings : ℕ → ℕ)
    (hchunks : request.chunks = generateAiResponseStream pipeline pings)
    (huser : request.isTestUser = false) (hcharged : request.Charged)
    (hbroken : request.run.broken = true) :
    Compensated request.run ↔ request.Settled := by
  have hended : WellEnded request.chunks := hchunks ▸ wellEnded_generateAiResponseStream _ _
  rcases (sendChatStream_halts huser hended hcharged.1).cases
      (sendChatStream_payable huser hended hcharged.1) ⟨0, .init⟩ Standing.init with
    ⟨_, w, hrun, hrests, -⟩ | ⟨i, -, hbefore, hat, hstops⟩
  · -- A request that runs to its end leaves a sound session.
    have hintact : request.run.broken = false := by
      rw [Request.run, hrun]
      exact hrests.intact
    rw [hintact] at hbroken
    cases hbroken
  · simp only [Nat.zero_add] at hbefore hat hstops
    exact compensated_iff_settled ends_settlePoint hcharged hbroken hbefore hat hstops

/-- The request of a client that stays, with a failure at one point. -/
def failedMessage (i : ℕ) : Request :=
  firstMessage (fun j => if j = i then .fail else .proceed)
    (generateAiResponseStream shortAnswer fun _ => 0)

theorem failedMessage_charged {i : ℕ} (hi : 3 < i) : (failedMessage i).Charged := by
  refine ⟨⟨⟨_, rfl, rfl⟩, rfl, _, rfl, by decide⟩, fun j hj => if_neg ?_, .inl (if_neg ?_)⟩
  · omega
  · omega

/-- The answer has been committed with its charge, and cannot be read again. -/
theorem compensated_run_iff_failed :
    (failedMessage 10).run.committed = (-10, [true]) ∧ Compensated (failedMessage 10).run := by
  refine ⟨by decide, (compensated_run_iff (failedMessage 10) shortAnswer (fun _ => 0) rfl rfl
    (failedMessage_charged (by decide)) (by decide)).mpr ?_⟩
  exact ⟨9, by decide, fun j hj => if_neg (by omega), .inl rfl⟩

/-- The answer cannot be committed, and neither can what is given back for it. -/
theorem not_compensated_run :
    ¬ ∀ (request : Request) (pipeline : Pipeline) (pings : ℕ → ℕ),
      request.chunks = generateAiResponseStream pipeline pings → request.isTestUser = false →
      request.Charged → request.run.broken = true → Compensated request.run := by
  intro h
  have hcompensated := h (failedMessage 9) shortAnswer (fun _ => 0) rfl rfl
    (failedMessage_charged (by decide)) (by decide)
  have hcommitted : (failedMessage 9).run.committed = (-10, []) := by decide
  have hspent : (failedMessage 9).run.committed.2 = [] → (failedMessage 9).run.committed.1 = 0 :=
    hcompensated
  rw [hcommitted] at hspent
  exact absurd (hspent rfl) (by decide)

end Logit.Chats
