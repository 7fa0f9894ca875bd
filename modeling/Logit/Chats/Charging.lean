import Logit.Chats.Stream

/-!
# What a chat costs

The cost of a draft is taken before the answer, and what the answer did not cost is
given back with it. So a request is charged exactly what it should be if, and only if,
it gets as far as the commit that settles its charge: a stream that is closed before,
or that ends without a chunk that says how, keeps the cost of a draft.

## Main definitions

* `ExactCharge` — the committed transactions add up to what the saved answer costs
* `settlePoint` — the suspension point at which the charge of a request is settled
* `Request.Charged`, `Request.Settled` — the cost has been taken, and the charge settled

## Main results

* `exactCharge_run_iff` — a request is charged exactly if and only if its charge, once
  taken, is settled
-/

namespace Logit.Chats

open Concurrency Concurrency.Action Python Tokens

/-! ## Charges -/

/-- Of each answer of the model among some messages, whether it is a draft. -/
def answersOf (chats : List Chat) : List Bool :=
  (chats.filter fun chat => chat.role = .assistant).map (·.isDraft)

/-- What the committed transactions add up to, and the saved answers. -/
def World.committed (w : World) : ℤ × List Bool := (ledgerSum w.transactions, answersOf w.chats)

/-- The same for what the open transaction has recorded and added. -/
def World.opened (w : World) : ℤ × List Bool := (ledgerSum w.recorded, answersOf w.added)

/-- A sum of transactions is what the saved answers cost, of which there is at most one. -/
def Exact : ℤ × List Bool → Prop
  | (spent, []) => spent = 0
  | (spent, [isDraft]) => spent = if isDraft then -10 else -5
  | _ => False

/-- What a request has committed adds up to what its answer costs. -/
def ExactCharge (w : World) : Prop := Exact w.committed

/-- A charge and answers, followed by others. -/
def join (a b : ℤ × List Bool) : ℤ × List Bool := (a.1 + b.1, a.2 ++ b.2)

@[simp] theorem join_mk (spent spent' : ℤ) (answers answers' : List Bool) :
    join (spent, answers) (spent', answers') = (spent + spent', answers ++ answers') := rfl

@[simp] theorem join_nothing (a : ℤ × List Bool) : join a (0, []) = a := by simp [join]

theorem answersOf_append (chats more : List Chat) :
    answersOf (chats ++ more) = answersOf chats ++ answersOf more := by
  simp [answersOf]

/-! ## The chunks of an answer -/

/-- After a chunk that ends the answer only pings follow. -/
def WellEnded : List Chunk → Prop
  | [] => True
  | .done _ _ :: chunks => ∀ chunk ∈ chunks, chunk = .ping
  | .error _ :: chunks => ∀ chunk ∈ chunks, chunk = .ping
  | .ping :: chunks => WellEnded chunks
  | .content _ :: chunks => WellEnded chunks

theorem wellEnded_pings (n : ℕ) (chunks : List Chunk) (h : WellEnded chunks) :
    WellEnded (List.replicate n .ping ++ chunks) := by
  induction n with
  | zero => exact h
  | succ n ih => exact ih

theorem wellEnded_chunks (pings : ℕ → ℕ) (n : ℕ) (ending : Ending) :
    WellEnded (withPings pings n ending.chunks) := by
  cases ending with
  | done content isDraft =>
    apply wellEnded_pings
    intro chunk hchunk
    exact List.eq_of_mem_replicate hchunk
  | error message =>
    apply wellEnded_pings
    intro chunk hchunk
    exact List.eq_of_mem_replicate hchunk
  | cancelled =>
    have hpings := wellEnded_pings (pings n) [] trivial
    rwa [List.append_nil] at hpings

/-- A task puts its ending in the queue last. -/
theorem wellEnded_generateAiResponseStream (pipeline : Pipeline) (pings : ℕ → ℕ) :
    WellEnded (generateAiResponseStream pipeline pings) := by
  obtain ⟨contents, ending⟩ := pipeline
  unfold generateAiResponseStream
  generalize 0 = n
  induction contents generalizing n with
  | nil => exact wellEnded_chunks pings n ending
  | cons content contents ih =>
    apply wellEnded_pings
    exact ih (n + 1)

/-! ## The point that settles a charge -/

section Points

variable (request : Request)

/-- The suspension points of a call of the token service: the `n`-th locked read, and an insert
where it finds no row. -/
def callPoints (n : ℕ) : ℕ := if (request.found n).isNone then 2 else 1

/-- The suspension points of giving back what an answer did not cost. -/
def differencePoints (isDraft : Bool) (n : ℕ) : ℕ := if isDraft then 0 else callPoints request n

/-- The number of suspension points before the commit that settles the charge, from the first
wait for a chunk; without a chunk that ends the answer there is no such commit. -/
def settleOffset : List Chunk → Option ℕ
  | [] => none
  | .done _ isDraft :: _ => some (1 + differencePoints request isDraft 1)
  | .error _ :: _ => some (1 + callPoints request 1)
  | .ping :: chunks => (settleOffset chunks).map (2 + ·)
  | .content _ :: chunks => (settleOffset chunks).map (2 + ·)

/-- The suspension point that settles the charge: six come before the first wait for a chunk. -/
def settlePoint : Option ℕ := (settleOffset request request.chunks).map (6 + ·)

/-- The request may be answered and paid for. -/
def Request.Payable : Prop :=
  (∃ question, request.question = some question ∧ question.userId = request.userId) ∧
    request.projectExists = true ∧ ∃ token, request.found 0 = some token ∧ 10 ≤ token.balance

/-- The cost of a draft has been taken: the fourth suspension point commits it. -/
def Request.Charged : Prop := request.Payable ∧ Reached request.plan 3

/-- The charge has been settled. -/
def Request.Settled : Prop := ∃ c, settlePoint request = some c ∧ Reached request.plan c

end Points

/-! ## What the statements of a request do -/

/-- A world with a sound transaction, by its reads, what is committed and what is open. -/
structure Standing (n : ℕ) (committed opened : ℤ × List Bool) (w : World) : Prop where
  intact : w.broken = false
  reads : w.reads = n
  committed : w.committed = committed
  opened : w.opened = opened

variable {request : Request} {n n' : ℕ} {c c' o o' : ℤ × List Bool} {w : World}

theorem Standing.init : Standing 0 (0, []) (0, []) World.init := ⟨rfl, rfl, rfl, rfl⟩

/-- A world with a sound transaction in which nothing is open, by what is committed. -/
def Rests (c : ℤ × List Bool) (w : World) : Prop := ∃ n, Standing n c (0, []) w

theorem Rests.committed (h : Rests c w) : w.committed = c := h.choose_spec.committed

theorem Rests.intact (h : Rests c w) : w.broken = false := h.choose_spec.intact

theorem statement_triple {effect : World → World}
    (h : ∀ w, Standing n c o w → Standing n' c' o' (effect w)) :
    Triple request.plan 1 (Standing n c o) (statement request effect)
      (fun _ => Standing n' c' o') (Settles World.committed 0 c c') := by
  apply Triple.get_bind
  intro w₀ h₀
  -- Cancelled before it takes effect, the statement leaves the world as it was.
  rw [if_neg (by simp [h₀.intact])]
  apply Triple.suspend
  · rintro w rfl
    exact h w h₀
  · rintro w rfl
    exact ⟨by simpa [Settles] using h₀.committed, by simpa [Settles] using (h w h₀).committed⟩

theorem statement_quiet {effect : World → World}
    (h : ∀ w, Standing n c o w → Standing n' c o' (effect w)) :
    Triple request.plan 1 (Standing n c o) (statement request effect)
      (fun _ => Standing n' c o') (Quiet World.committed c) := by
  apply (statement_triple h).mono (fun _ h => h) (fun _ _ h => h)
  intro i _ done w hw
  simpa [Settles, Quiet] using hw

theorem commit_triple :
    Triple request.plan 1 (Standing n c o) (commit request)
      (fun _ => Standing n (join c o) (0, [])) (Settles World.committed 0 c (join c o)) := by
  apply statement_triple
  rintro w ⟨hintact, hreads, rfl, rfl⟩
  refine ⟨hintact, hreads, ?_, rfl⟩
  simp [World.committed, World.opened, answersOf_append]

theorem event_triple {R : ℕ → Bool → World → Prop} (event : SseEvent) :
    Triple request.plan 0 (Standing n c o)
      (modify fun w => { w with events := w.events ++ [event] }) (fun _ => Standing n c o) R := by
  apply Triple.modify
  rintro w ⟨hintact, hreads, hcommitted, hopened⟩
  exact ⟨hintact, hreads, hcommitted, hopened⟩

theorem emit_triple (event : SseEvent) :
    Triple request.plan 1 (Standing n c o) (emit request event) (fun _ => Standing n c o)
      (Quiet World.committed c) := by
  apply Triple.bind (j := 0) (k := 1) (event_triple event)
  · intro _
    apply Triple.suspend
    · exact fun w h => h
    · exact fun w h => ⟨h.committed, h.committed⟩

theorem suspend_triple :
    Triple request.plan 1 (Standing n c o) (suspend request.plan id id)
      (fun _ => Standing n c o) (Quiet World.committed c) := by
  apply Triple.suspend
  · exact fun w h => h
  · exact fun w h => ⟨h.committed, h.committed⟩

/-- A program that has nothing to settle is settled from the start. -/
theorem settles_self : Settles World.committed n c c = Quiet World.committed c := by
  funext i done w
  simp [Settles, Quiet]

/-- What a saved message counts for. -/
def answer? (role : ChatRole) (isDraft : Bool) : List Bool :=
  if role = .assistant then [isDraft] else []

theorem addChat_triple {R : ℕ → Bool → World → Prop} {chat : Chat} :
    Triple request.plan 0 (Standing n c o) (modify fun w => { w with added := w.added ++ [chat] })
      (fun _ => Standing n c (join o (0, answer? chat.role chat.isDraft))) R := by
  apply Triple.modify
  rintro w ⟨hintact, hreads, hcommitted, rfl⟩
  refine ⟨hintact, hreads, hcommitted, ?_⟩
  obtain ⟨_, _, _, _, role, _, _, _⟩ := chat
  cases role <;> simp [World.opened, answersOf, answer?]

theorem createChat_triple (question : Question) (chatId : UUID) (role : ChatRole)
    (content : String) (isDraft : Bool) :
    Triple request.plan 2 (Standing n c o)
      (createChat request question chatId role content isDraft)
      (fun _ => Standing n (join c (join o (0, answer? role isDraft))) (0, []))
      (Settles World.committed 0 c (join c (join o (0, answer? role isDraft)))) := by
  apply Triple.bind (j := 0) (k := 2) addChat_triple
  intro _
  simp only [Nat.zero_add]
  apply Triple.bind_settled (j := 1) (k := 1) commit_triple (by omega)
  intro _
  exact statement_quiet fun w hw => hw

/-! ## What the calls of the token service do -/

theorem read_triple {w₀ : World} (h₀ : Standing n c o w₀) :
    Triple request.plan 1 (fun w => w = w₀)
      (statement request fun w => { w with reads := w.reads + 1 })
      (fun _ => Standing (n + 1) c o) (Quiet World.committed c) := by
  apply (statement_quiet (n := n) (o := o) _).mono _ (fun _ _ h => h) (fun _ _ _ _ h => h)
  · rintro w ⟨hintact, rfl, hcommitted, hopened⟩
    exact ⟨hintact, rfl, hcommitted, hopened⟩
  · rintro w rfl
    exact h₀

theorem record_triple {R : ℕ → Bool → World → Prop} {α : Type} (outcome : Outcome α) :
    Triple request.plan 0 (Standing n c o)
      (do modify fun w => { w with recorded := w.recorded ++ outcome.recorded }
          return outcome.result)
      (fun result w => result = outcome.result ∧
        Standing n c (join o (ledgerSum outcome.recorded, [])) w) R := by
  apply Triple.bind (j := 0) (k := 0)
    (Q := fun _ => Standing n c (join o (ledgerSum outcome.recorded, [])))
  · apply Triple.modify
    rintro w ⟨hintact, hreads, hcommitted, rfl⟩
    exact ⟨hintact, hreads, hcommitted, by simp [World.opened]⟩
  · intro _
    exact Triple.pure fun w hw => ⟨rfl, hw⟩

theorem tokenCall_triple {α : Type} (function : Clock → Option UserToken → Outcome α) :
    let outcome := function (request.clock n) (request.found n)
    Triple request.plan (callPoints request n) (Standing n c o) (tokenCall request function)
      (fun result w => result = outcome.result ∧
        Standing (n + 1) c (join o (ledgerSum outcome.recorded, [])) w)
      (Quiet World.committed c) := by
  intro outcome
  apply Triple.get_bind
  intro w₀ h₀
  rw [h₀.reads]
  unfold callPoints
  split_ifs with hnone
  · -- The row is inserted first.
    refine Triple.bind (k := 1) (read_triple h₀) fun _ => ?_
    refine Triple.bind (k := 0) (Q := fun _ => Standing (n + 1) c o) ?_ fun _ =>
      record_triple outcome
    exact statement_quiet fun w hw => hw
  · exact Triple.bind (k := 0) (read_triple h₀) fun _ => record_triple outcome

theorem ledgerSum_credit (clock : Clock) (userId : UUID) (row : Option UserToken) (amount : ℤ)
    (txType : TokenTransactionType) (description : Option String) :
    ledgerSum (credit userId clock row amount txType description).recorded = amount := by
  cases row <;> simp [credit, getOrCreateBalance, recordTransaction]

/-- A credit opens what it grants, and does not raise. -/
theorem credit_triple {amount : ℤ} {txType : TokenTransactionType} {description : Option String} :
    Triple request.plan (callPoints request n) (Standing n c o)
      (tokenValue request fun clock row =>
        credit request.userId clock row amount txType description)
      (fun _ => Standing (n + 1) c (join o (amount, []))) (Quiet World.committed c) := by
  apply Triple.bind (k := 0) (tokenCall_triple _)
  intro result
  apply Triple.of_imp
  rintro rfl
  rw [ledgerSum_credit]
  exact Triple.pure fun w hw => hw

theorem refundPrededuction_triple (huser : request.isTestUser = false) :
    Triple request.plan (callPoints request n + 1) (Standing n c (0, []))
      (refundPrededuction request) (fun _ => Standing (n + 1) (join c (10, [])) (0, []))
      (Settles World.committed (callPoints request n) c (join c (10, []))) := by
  unfold refundPrededuction
  rw [if_neg (by simp [huser])]
  apply Triple.swallow
  apply Triple.bind_quiet (c := 0) credit_triple
  intro _
  rw [show join (0, []) (DRAFT_TOKEN_COST, []) = (10, []) from rfl]
  exact commit_triple

/-- What is given back with an answer. -/
def difference (isDraft : Bool) : ℤ := if isDraft then 0 else 5

theorem refundDifference_triple (huser : request.isTestUser = false) (balance : Option ℤ)
    (isDraft : Bool) :
    ∃ n', Triple request.plan (differencePoints request isDraft n) (Standing n c (0, []))
      (refundDifference request balance isDraft)
      (fun _ => Standing n' c (difference isDraft, [])) (Quiet World.committed c) := by
  unfold refundDifference
  rw [if_neg (by simp [huser])]
  cases isDraft
  · -- A chat message gives back the difference to a draft.
    refine ⟨n + 1, Triple.bind (j := callPoints request n) (k := 0) ?_ fun _ =>
      Triple.pure fun w hw => hw⟩
    exact credit_triple (n := n) (c := c) (o := (0, []))
  · exact ⟨n, Triple.pure fun w hw => hw⟩

/-! ## What handling a chunk does -/

theorem handleChunk_done (huser : request.isTestUser = false) (question : Question)
    (balance : Option ℤ) (fullContent content : String) (isDraft : Bool) :
    ∃ n', Triple request.plan (differencePoints request isDraft n + 3) (Standing n c (0, []))
      (handleChunk request question balance fullContent (.done content isDraft))
      (fun _ => Standing n' (join c (difference isDraft, [isDraft])) (0, []))
      (Settles World.committed (differencePoints request isDraft n) c
        (join c (difference isDraft, [isDraft]))) := by
  obtain ⟨n', hdifference⟩ := refundDifference_triple (n := n) (c := c) huser balance isDraft
  refine ⟨n', Triple.bind_quiet (c := 0) hdifference fun remaining => ?_⟩
  refine Triple.bind_settled (j := 2) (k := 1)
    (Q := fun _ => Standing n' (join c (difference isDraft, [isDraft])) (0, [])) ?_ (by omega)
    fun _ => ?_
  · have hjoin : join (difference isDraft, []) (0, answer? .assistant isDraft) =
        (difference isDraft, [isDraft]) := by simp [answer?]
    rw [← hjoin]
    exact createChat_triple question request.assistantChatId .assistant fullContent isDraft
  · exact Triple.bind (j := 1) (k := 0) (emit_triple _) fun _ => Triple.pure fun w hw => hw

theorem handleChunk_error (huser : request.isTestUser = false) (question : Question)
    (balance : Option ℤ) (fullContent message : String) :
    Triple request.plan (callPoints request n + 1 + 1) (Standing n c (0, []))
      (handleChunk request question balance fullContent (.error message))
      (fun _ => Standing (n + 1) (join c (10, [])) (0, []))
      (Settles World.committed (callPoints request n) c (join c (10, []))) := by
  refine Triple.bind_settled (refundPrededuction_triple huser) (by omega) fun _ => ?_
  exact Triple.bind (j := 1) (k := 0) (emit_triple _) fun _ => Triple.pure fun w hw => hw

theorem handleChunk_ping (question : Question) (balance : Option ℤ) (fullContent : String) :
    Triple request.plan 1 (Standing n c o)
      (handleChunk request question balance fullContent .ping)
      (fun _ => Standing n c o) (Quiet World.committed c) :=
  Triple.bind (j := 1) (k := 0) (emit_triple _) fun _ => Triple.pure fun _ hw => hw

theorem handleChunk_content (question : Question) (balance : Option ℤ)
    (fullContent content : String) :
    Triple request.plan 1 (Standing n c o)
      (handleChunk request question balance fullContent (.content content))
      (fun _ => Standing n c o) (Quiet World.committed c) :=
  Triple.bind (j := 1) (k := 0) (emit_triple _) fun _ => Triple.pure fun _ hw => hw

/-! ## What consuming the chunks does -/

theorem consume_pings (question : Question) (balance : Option ℤ) {chunks : List Chunk}
    (hpings : ∀ chunk ∈ chunks, chunk = .ping) (fullContent : String) :
    Triple request.plan (2 * chunks.length + 1) (Standing n c o)
      (consume request question balance chunks fullContent) (fun _ => Standing n c o)
      (Quiet World.committed c) := by
  induction chunks generalizing fullContent with
  | nil => exact suspend_triple
  | cons chunk chunks ih =>
    obtain rfl : chunk = .ping := hpings chunk (by simp)
    rw [show 2 * (Chunk.ping :: chunks).length + 1 = 1 + (1 + (2 * chunks.length + 1)) by
      rw [List.length_cons]; omega]
    refine Triple.bind suspend_triple fun _ => ?_
    refine Triple.bind (handleChunk_ping question balance fullContent) fun fullContent => ?_
    exact ih (fun chunk hchunk => hpings chunk (by simp [hchunk])) fullContent

/-- The chunk that ends the answer settles the charge, and the pings after it change nothing. -/
theorem consume_ending {question : Question} {balance : Option ℤ} {chunk : Chunk}
    {chunks : List Chunk} {s k : ℕ} (hpings : ∀ chunk ∈ chunks, chunk = .ping)
    (fullContent : String) (hs : s < k)
    (h : ∃ n', Triple request.plan k (Standing n c o)
      (handleChunk request question balance fullContent chunk) (fun _ => Standing n' c' (0, []))
      (Settles World.committed s c c')) :
    Triple request.plan (1 + (k + (2 * chunks.length + 1))) (Standing n c o)
      (consume request question balance (chunk :: chunks) fullContent)
      (fun _ => Rests c') (Settles World.committed (1 + s) c c') := by
  obtain ⟨n', hchunk⟩ := h
  refine Triple.bind_quiet suspend_triple fun _ => ?_
  refine Triple.bind_settled hchunk hs fun fullContent => ?_
  exact (consume_pings question balance hpings fullContent).mono (fun _ h => h)
    (fun _ _ h => ⟨n', h⟩) (fun _ _ _ _ h => h)

/-- A charge that is settled in the end is exact; one that is not is that of a draft. -/
def Ends (offset : Option ℕ) (s k : ℕ) (final : ℤ × List Bool) : Prop :=
  offset = some s ∧ s < k ∧ Exact final ∨ offset = none ∧ final = (-10, [])

theorem Ends.shift {offset : Option ℕ} {s k : ℕ} {final : ℤ × List Bool} (j : ℕ)
    (h : Ends offset s k final) : Ends (offset.map (j + ·)) (j + s) (j + k) final := by
  rcases h with ⟨rfl, hs, hfinal⟩ | ⟨rfl, hfinal⟩
  · exact .inl ⟨rfl, by omega, hfinal⟩
  · exact .inr ⟨rfl, hfinal⟩

/-- The suspension point of the consumer that settles the charge, if any does. -/
def settleIndex (request : Request) : List Chunk → ℕ
  | [] => 0
  | .done _ isDraft :: _ => 1 + differencePoints request isDraft 1
  | .error _ :: _ => 1 + callPoints request 1
  | .ping :: chunks => 2 + settleIndex request chunks
  | .content _ :: chunks => 2 + settleIndex request chunks

/-- The suspension points of the consumer. -/
def consumePoints (request : Request) : List Chunk → ℕ
  | [] => 1
  | .done _ isDraft :: chunks =>
    1 + (differencePoints request isDraft 1 + 3 + (2 * chunks.length + 1))
  | .error _ :: chunks => 1 + (callPoints request 1 + 1 + 1 + (2 * chunks.length + 1))
  | .ping :: chunks => 2 + consumePoints request chunks
  | .content _ :: chunks => 2 + consumePoints request chunks

/-- What is committed when all chunks have been handled. -/
def finalCharge : List Chunk → ℤ × List Bool
  | [] => (-10, [])
  | .done _ isDraft :: _ => join (-10, []) (difference isDraft, [isDraft])
  | .error _ :: _ => join (-10, []) (10, [])
  | .ping :: chunks => finalCharge chunks
  | .content _ :: chunks => finalCharge chunks

theorem ends_consume (chunks : List Chunk) :
    Ends (settleOffset request chunks) (settleIndex request chunks) (consumePoints request chunks)
      (finalCharge chunks) := by
  -- By induction on the chunks; the ones before the ending only shift the point.
  induction chunks with
  | nil => exact .inr ⟨rfl, rfl⟩
  | cons chunk chunks ih =>
    cases chunk with
    | ping => exact ih.shift 2
    | content content => exact ih.shift 2
    | done content isDraft =>
      refine .inl ⟨rfl, by simp only [settleIndex, consumePoints]; omega, ?_⟩
      cases isDraft <;> rfl
    | error message =>
      exact .inl ⟨rfl, by simp only [settleIndex, consumePoints]; omega, rfl⟩

/-- Consuming the chunks settles the charge where `settleOffset` says, and not at all where it
says nothing. -/
theorem consume_triple (huser : request.isTestUser = false) (question : Question)
    (balance : Option ℤ) {chunks : List Chunk} (hended : WellEnded chunks) (fullContent : String) :
    Triple request.plan (consumePoints request chunks) (Standing 1 (-10, []) (0, []))
      (consume request question balance chunks fullContent) (fun _ => Rests (finalCharge chunks))
      (Settles World.committed (settleIndex request chunks) (-10, []) (finalCharge chunks)) := by
  -- By induction on the chunks; until one ends the answer, the draft stays charged.
  induction chunks generalizing fullContent with
  | nil =>
    -- The producer has ended without an ending, and the draft stays charged.
    rw [finalCharge, settles_self]
    exact suspend_triple.mono (fun _ h => h) (fun _ _ h => ⟨1, h⟩) (fun _ _ _ _ h => h)
  | cons chunk chunks ih =>
    cases chunk with
    | ping =>
      rw [consumePoints, settleIndex, Nat.add_assoc 1 1, Nat.add_assoc 1 1]
      refine Triple.bind_quiet suspend_triple fun _ => ?_
      exact Triple.bind_quiet (handleChunk_ping question balance fullContent) (ih hended)
    | content content =>
      rw [consumePoints, settleIndex, Nat.add_assoc 1 1, Nat.add_assoc 1 1]
      refine Triple.bind_quiet suspend_triple fun _ => ?_
      exact Triple.bind_quiet (handleChunk_content question balance fullContent content) (ih hended)
    | done content isDraft =>
      exact consume_ending hended fullContent (by omega)
        (handleChunk_done huser question balance fullContent content isDraft)
    | error message =>
      exact consume_ending hended fullContent (by omega)
        ⟨2, handleChunk_error huser question balance fullContent message⟩

/-! ## What a request does -/

theorem answer_triple (huser : request.isTestUser = false) (hended : WellEnded request.chunks)
    (question : Question) (balance : Option ℤ) :
    Triple request.plan (2 + consumePoints request request.chunks) (Standing 1 (-10, []) (0, []))
      (answer request question balance) (fun _ => Rests (finalCharge request.chunks))
      (Settles World.committed (2 + settleIndex request request.chunks) (-10, [])
        (finalCharge request.chunks)) := by
  have hsave : Triple request.plan 2 (Standing 1 (-10, []) (0, []))
      (createUserChat request question) (fun _ => Standing 1 (-10, []) (0, []))
      (Quiet World.committed (-10, [])) := by
    rw [← settles_self (n := 0)]
    exact createChat_triple question request.userChatId .user request.content false
  exact Triple.bind_quiet hsave fun _ => (consume_triple huser question balance hended "").attempt

theorem debit_recorded (clock : Clock) (userId : UUID) {token : UserToken} {amount : ℤ}
    (txType : TokenTransactionType) (description : Option String) (h : amount ≤ token.balance) :
    let outcome := debit userId clock (some token) amount txType description
    outcome.result = .ok (token.balance - amount) ∧ ledgerSum outcome.recorded = -amount := by
  simp [debit, getOrCreateBalance, not_lt.mpr h, recordTransaction]

/-- Of a user who can pay, the cost of a draft is taken and committed. -/
theorem prededuct_triple {token : UserToken} (hfound : request.found 0 = some token)
    (hbalance : DRAFT_TOKEN_COST ≤ token.balance) :
    Triple request.plan 2 (Standing 0 (0, []) (0, [])) (prededuct request)
      (fun result w => result = .ok (token.balance - DRAFT_TOKEN_COST) ∧
        Standing 1 (-10, []) (0, []) w)
      (Settles World.committed 1 (0, []) (-10, [])) := by
  have hpoints : callPoints request 0 = 1 := by simp [callPoints, hfound]
  obtain ⟨hresult, hrecorded⟩ := debit_recorded (request.clock 0) request.userId .draftUsage
    (some "선차감 (채팅/초안)") hbalance
  refine Triple.bind_quiet (c := 0) (j := 1) (k := 1)
    (Q := fun result w => result = .ok (token.balance - DRAFT_TOKEN_COST) ∧
      Standing 1 (0, []) (-10, []) w)
    ?_ fun result => ?_
  · rw [← hpoints]
    apply (tokenCall_triple _).mono (fun _ h => h) _ (fun _ _ _ _ h => h)
    rintro result w ⟨rfl, hw⟩
    rw [hfound] at hw ⊢
    refine ⟨hresult, ?_⟩
    rw [hrecorded] at hw
    rwa [hpoints]
  · apply Triple.of_imp
    rintro rfl
    exact Triple.bind (j := 1) (k := 0) commit_triple fun _ => Triple.pure fun w hw => ⟨rfl, hw⟩

theorem debit_insufficient (clock : Clock) (userId : UUID) {row : Option UserToken} {amount : ℤ}
    (txType : TokenTransactionType) (description : Option String) (hpos : 0 < amount)
    (h : ¬ ∃ token, row = some token ∧ amount ≤ token.balance) :
    ∃ current, (debit userId clock row amount txType description).result =
      .error (.insufficientTokens current amount) := by
  cases row with
  | none => exact ⟨0, by simp [debit, getOrCreateBalance, hpos]⟩
  | some token =>
    have hlt : token.balance < amount := not_le.mp fun hle => h ⟨token, rfl, hle⟩
    exact ⟨token.balance, by simp [debit, getOrCreateBalance, hlt]⟩

/-- Of a user who cannot pay, nothing is taken. -/
theorem prededuct_insufficient
    (h : ¬ ∃ token, request.found 0 = some token ∧ DRAFT_TOKEN_COST ≤ token.balance) :
    ∃ o, Triple request.plan (callPoints request 0) (Standing 0 (0, []) (0, [])) (prededuct request)
      (fun result w => (∃ current, result = .error (.insufficientTokens current DRAFT_TOKEN_COST)) ∧
        Standing 1 (0, []) o w)
      (Quiet World.committed (0, [])) := by
  obtain ⟨current, hresult⟩ := debit_insufficient (request.clock 0) request.userId .draftUsage
    (some "선차감 (채팅/초안)") (by decide) h
  refine ⟨join (0, []) (ledgerSum (debit request.userId (request.clock 0) (request.found 0)
    DRAFT_TOKEN_COST .draftUsage (some "선차감 (채팅/초안)")).recorded, []),
    Triple.bind (k := 0) (tokenCall_triple _) fun result => ?_⟩
  apply Triple.of_imp
  rintro rfl
  rw [hresult]
  exact Triple.pure fun w hw => ⟨⟨current, rfl⟩, hw⟩

/-- A request that may be answered asks for the cost of a draft first. -/
theorem sendChatStream_eq (huser : request.isTestUser = false) {question : Question}
    (hquestion : request.question = some question) (howner : question.userId = request.userId)
    (hproject : request.projectExists = true) :
    sendChatStream request = (do
      statement request id
      statement request id
      match ← prededuct request with
      | .ok balance => answer request question (some balance)
      | .error (.insufficientTokens current _) =>
        emit request (.done none false false (some current) none)
      | .error (.keyError _) => raise) := by
  have hbody := sendChatStream.eq_def request
  simp only [hquestion, howner, ne_eq, not_true_eq_false, if_false, hproject, Bool.not_true, huser,
    Bool.false_eq_true] at hbody
  exact hbody

/-- A request that may not be answered or paid for commits nothing. -/
theorem sendChatStream_not_payable (huser : request.isTestUser = false)
    (h : ¬ request.Payable) :
    ∃ k, Triple request.plan k (Standing 0 (0, []) (0, [])) (sendChatStream request)
      (fun _ w => w.committed = (0, [])) (Quiet World.committed (0, [])) := by
  have hrefuse : ∀ n o event, Triple request.plan 1 (Standing n (0, []) o) (emit request event)
      (fun _ w => w.committed = (0, [])) (Quiet World.committed (0, [])) := fun n o event =>
    (emit_triple event).mono (fun _ h => h) (fun _ _ h => h.committed) (fun _ _ _ _ h => h)
  have hstatement : Triple request.plan 1 (Standing 0 (0, []) (0, [])) (statement request id)
      (fun _ => Standing 0 (0, []) (0, [])) (Quiet World.committed (0, [])) :=
    statement_quiet fun w hw => hw
  cases hquestion : request.question with
  | none =>
    unfold sendChatStream
    rw [hquestion]
    exact ⟨2, Triple.bind (j := 1) (k := 1) hstatement fun _ => hrefuse _ _ _⟩
  | some question =>
    by_cases howner : question.userId = request.userId
    · by_cases hproject : request.projectExists = true
      · have hinsufficient : ¬ ∃ token, request.found 0 = some token ∧
            DRAFT_TOKEN_COST ≤ token.balance := fun hfound =>
          h ⟨⟨question, hquestion, howner⟩, hproject, hfound⟩
        obtain ⟨o, hprededuct⟩ := prededuct_insufficient hinsufficient
        rw [sendChatStream_eq huser hquestion howner hproject]
        refine ⟨1 + (1 + (callPoints request 0 + 1)), Triple.bind hstatement fun _ =>
          Triple.bind hstatement fun _ => Triple.bind hprededuct fun result => ?_⟩
        apply Triple.of_imp
        rintro ⟨current, rfl⟩
        exact hrefuse _ _ _
      · unfold sendChatStream
        rw [hquestion]
        refine ⟨1 + (1 + 1), Triple.bind hstatement fun _ => ?_⟩
        simp only [howner, ne_eq, not_true_eq_false, if_false, hproject]
        exact Triple.bind hstatement fun _ => hrefuse _ _ _
    · unfold sendChatStream
      rw [hquestion]
      refine ⟨1 + 1, Triple.bind hstatement fun _ => ?_⟩
      simp only [ne_eq, howner, not_false_eq_true, if_true]
      exact hrefuse _ _ _

/-- What a cancelled request leaves: the fourth point takes the cost of a draft, and from then
on the answer settles the charge. -/
def Stages (s : ℕ) (final : ℤ × List Bool) (i : ℕ) (done : Bool) (w : World) : Prop :=
  if i < 4 then Settles World.committed 3 (0, []) (-10, []) i done w
  else Settles World.committed s (-10, []) final (i - 4) done w

theorem sendChatStream_payable (huser : request.isTestUser = false)
    (hended : WellEnded request.chunks) (hpayable : request.Payable) :
    Triple request.plan (4 + (2 + consumePoints request request.chunks))
      (Standing 0 (0, []) (0, [])) (sendChatStream request)
      (fun _ => Rests (finalCharge request.chunks))
      (Stages (2 + settleIndex request request.chunks) (finalCharge request.chunks)) := by
  obtain ⟨⟨question, hquestion, howner⟩, hproject, token, hfound, hbalance⟩ := hpayable
  have hanswer := answer_triple huser hended question (some (token.balance - DRAFT_TOKEN_COST))
  generalize 2 + consumePoints request request.chunks = k,
    2 + settleIndex request request.chunks = s, finalCharge request.chunks = final at hanswer ⊢
  have hstatement : ∀ j < 2, Triple request.plan 1 (Standing 0 (0, []) (0, []))
      (statement request id) (fun _ => Standing 0 (0, []) (0, []))
      fun i => Stages s final (j + i) := by
    intro j hj
    apply (statement_quiet fun w hw => hw).mono (fun _ h => h) (fun _ _ h => h)
    intro i hi done w hw
    rw [Stages, if_pos (by omega)]
    exact Quiet.settles_before hw (by omega)
  have hprededuct : Triple request.plan 2 (Standing 0 (0, []) (0, [])) (prededuct request)
      (fun result w => result = .ok (token.balance - DRAFT_TOKEN_COST) ∧
        Standing 1 (-10, []) (0, []) w) fun i => Stages s final (2 + i) := by
    apply (prededuct_triple hfound hbalance).mono (fun _ h => h) (fun _ _ h => h)
    intro i hi done w hw
    rw [Stages, if_pos (by omega)]
    exact settles_add.mpr hw
  have hafter : Triple request.plan k (Standing 1 (-10, []) (0, []))
      (answer request question (some (token.balance - DRAFT_TOKEN_COST)))
      (fun _ => Rests final) fun i => Stages s final (4 + i) := by
    apply hanswer.mono (fun _ h => h) (fun _ _ h => h)
    intro i hi done w hw
    rw [Stages, if_neg (by omega), Nat.add_sub_cancel_left]
    exact hw
  rw [sendChatStream_eq huser hquestion howner hproject, show 4 + k = 1 + (1 + (2 + k)) by omega]
  refine Triple.bind (by simpa using hstatement 0 (by omega)) fun _ => ?_
  refine Triple.bind (hstatement 1 (by omega)) fun _ => ?_
  simp only [← Nat.add_assoc, Nat.reduceAdd]
  refine Triple.bind hprededuct fun result => ?_
  apply Triple.of_imp
  rintro rfl
  simp only [← Nat.add_assoc, Nat.reduceAdd]
  exact hafter

/-! ## Exact charges -/

theorem not_exact_draft : ¬ Exact (-10, []) := by
  change ¬ ((-10 : ℤ) = 0)
  decide

theorem ends_settlePoint :
    Ends (settlePoint request) (4 + (2 + settleIndex request request.chunks))
      (4 + (2 + consumePoints request request.chunks)) (finalCharge request.chunks) := by
  have hends : Ends (settlePoint request) _ _ _ := (ends_consume request.chunks).shift 6
  rwa [← Nat.add_assoc 4 2, ← Nat.add_assoc 4 2]

theorem settled_iff {c : ℕ} (h : settlePoint request = some c) :
    request.Settled ↔ Reached request.plan c := by
  constructor
  · rintro ⟨c', hc', hreached⟩
    obtain rfl : c = c' := Option.some.inj (h.symm.trans hc')
    exact hreached
  · exact fun hreached => ⟨c, h, hreached⟩

/-- Once the cost of a draft has been taken, the charge is exact if it has been settled, and
otherwise is that of a draft without an answer. -/
theorem exact_iff_settled {s k : ℕ} {final committed : ℤ × List Bool}
    (hends : Ends (settlePoint request) s k final)
    (hcommitted : (s < k → Reached request.plan s) ∧ committed = final ∨
      ¬ Reached request.plan s ∧ committed = (-10, [])) :
    Exact committed ↔ request.Settled := by
  rcases hends with ⟨hsome, hs, hfinal⟩ | ⟨hnone, rfl⟩
  · rw [settled_iff hsome]
    rcases hcommitted with ⟨hreached, rfl⟩ | ⟨hnot, rfl⟩
    · exact iff_of_true hfinal (hreached hs)
    · exact iff_of_false not_exact_draft hnot
  · -- Nothing settles the charge.
    have hnot : ¬ request.Settled := fun ⟨c, hc, _⟩ => by simp [hnone] at hc
    rcases hcommitted with ⟨-, rfl⟩ | ⟨-, rfl⟩
    · exact iff_of_false not_exact_draft hnot
    · exact iff_of_false not_exact_draft hnot

/-- A request cancelled at a point has taken the cost of a draft if the fourth point has taken
effect, and is settled if the point that settles its charge has. -/
theorem exact_iff_of_cancelled {s k i : ℕ} {final : ℤ × List Bool} {done : Bool} {w : World}
    (hpayable : request.Payable) (hends : Ends (settlePoint request) (4 + s) k final)
    (hbefore : ∀ j < i, request.plan j = .proceed) (hat : request.plan i = .cancel done)
    (hstages : Stages s final i done w) :
    Exact w.committed ↔ (request.Charged → request.Settled) := by
  have hreached := fun c => reached_iff_of_cancelled (c := c) hbefore hat
  by_cases hcharged : Reached request.plan 3
  · have hdraft : request.Charged := ⟨hpayable, hcharged⟩
    rw [forall_prop_of_true hdraft]
    apply exact_iff_settled hends
    by_cases hsettled : Reached request.plan (4 + s)
    · refine .inl ⟨fun _ => hsettled, ?_⟩
      rw [hreached] at hsettled
      rw [Stages, if_neg (by omega), Settles, if_pos (by grind)] at hstages
      exact hstages
    · refine .inr ⟨hsettled, ?_⟩
      rw [hreached] at hsettled hcharged
      by_cases hi : i < 4
      · rw [Stages, if_pos hi, Settles, if_pos hcharged] at hstages
        exact hstages
      · rw [Stages, if_neg hi, Settles, if_neg (by grind)] at hstages
        exact hstages
  · -- Nothing has been committed.
    have hnothing : w.committed = (0, []) := by
      rw [hreached] at hcharged
      rw [Stages, if_pos (by omega), Settles, if_neg hcharged] at hstages
      exact hstages
    rw [hnothing]
    exact iff_of_true rfl fun h => absurd h.2 hcharged

/-- Whatever the producer yields and wherever the request is cancelled, a request is charged
exactly if and only if the cost of a draft has not been taken, or it is settled. -/
theorem exactCharge_run_iff (pipeline : Pipeline) (pings : ℕ → ℕ)
    (hchunks : request.chunks = generateAiResponseStream pipeline pings)
    (huser : request.isTestUser = false) (hfail : ∀ i, request.plan i ≠ .fail) :
    ExactCharge request.run ↔ (request.Charged → request.Settled) := by
  have hended : WellEnded request.chunks := hchunks ▸ wellEnded_generateAiResponseStream _ _
  unfold ExactCharge Request.run
  by_cases hpayable : request.Payable
  · have htriple := sendChatStream_payable huser hended hpayable
    have hends : Ends (settlePoint request) _ _ _ := ends_settlePoint
    -- Either the request runs to its end, or it is cancelled at a point.
    rcases htriple.cases hfail ⟨0, .init⟩ Standing.init with
      ⟨_, w, hrun, hrests, hproceed⟩ | ⟨i, -, done, f, hrun, hstages, hbefore, hat⟩
    · simp only [Nat.zero_add] at hproceed
      have hcharged : request.Charged := ⟨hpayable, reached_of_proceed hproceed (by omega)⟩
      rw [hrun, forall_prop_of_true hcharged, hrests.committed]
      exact exact_iff_settled hends (.inl ⟨reached_of_proceed hproceed, rfl⟩)
    · simp only [Nat.zero_add] at hbefore hat
      rw [hrun]
      exact exact_iff_of_cancelled hpayable hends hbefore hat hstages
  · obtain ⟨k, htriple⟩ := sendChatStream_not_payable huser hpayable
    have hnot : ¬ request.Charged := fun h => hpayable h.1
    have hexact : Exact (0, []) := rfl
    rcases htriple.cases hfail ⟨0, .init⟩ Standing.init with
      ⟨_, w, hrun, hw, -⟩ | ⟨i, -, done, f, hrun, hw, -⟩
    · rw [hrun, hw]
      exact iff_of_true hexact fun h => absurd h hnot
    · rw [hrun, show f.world.committed = (0, []) from hw]
      exact iff_of_true hexact fun h => absurd h hnot

/-- A user with ten tokens asks about their question. -/
def firstMessage (plan : ℕ → Fate) (chunks : List Chunk) : Request where
  plan := plan
  clock _ _ := .utc 2026 1 10 9
  found _ := some ⟨10, none, true, 0, 0, 0, .utc 2026 1 10 8⟩
  question := some ⟨1, 2, 7⟩
  projectExists := true
  chunks := chunks
  userChatId := 3
  assistantChatId := 4
  userId := 7
  content := "지원 동기를 써 줘"
  experienceIds := none
  isTestUser := false

/-- An answer in one part. -/
def shortAnswer : Pipeline := ⟨["저는"], .done "저는" true⟩

/-- The request of a client that stays. -/
def answeredMessage : Request :=
  firstMessage (fun _ => .proceed) (generateAiResponseStream shortAnswer fun _ => 1)

/-- A client that stays has paid for the draft it has got. -/
theorem exactCharge_run_iff_answered :
    answeredMessage.run.committed = (-10, [true]) ∧ ExactCharge answeredMessage.run := by
  have hexact : ExactCharge answeredMessage.run ↔
      (answeredMessage.Charged → answeredMessage.Settled) :=
    exactCharge_run_iff shortAnswer (fun _ => 1) rfl rfl fun _ => Fate.noConfusion
  rw [hexact]
  exact ⟨by decide +kernel, fun _ => ⟨13, by decide, fun _ _ => rfl, .inl rfl⟩⟩

/-- The client leaves while the first part of the answer is handed to it. -/
def leaves (i : ℕ) : Fate := if i = 7 then .cancel false else .proceed

/-- The request of a client that leaves. -/
def abandonedMessage : Request :=
  firstMessage leaves (generateAiResponseStream shortAnswer fun _ => 0)

/-- A client that leaves before the answer is complete has paid for a draft it has not got. -/
theorem not_exactCharge_run :
    ¬ ∀ (request : Request) (pipeline : Pipeline) (pings : ℕ → ℕ),
      request.chunks = generateAiResponseStream pipeline pings → request.isTestUser = false →
      (∀ i, request.plan i ≠ .fail) → (∀ i ≤ 3, request.plan i = .proceed) →
      ExactCharge request.run := by
  intro h
  have hexact := h abandonedMessage shortAnswer (fun _ => 0) rfl rfl ?_ ?_
  · have hcommitted : abandonedMessage.run.committed = (-10, []) := by decide
    rw [ExactCharge, hcommitted] at hexact
    exact not_exact_draft hexact
  · intro i
    change leaves i ≠ .fail
    unfold leaves
    split <;> decide
  · intro i hi
    exact if_neg (by omega)

end Logit.Chats
