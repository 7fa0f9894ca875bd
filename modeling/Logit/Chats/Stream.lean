import Logit.Concurrency.Interruptible
import Logit.Tokens.Service

/-!
# Chat streaming

A chat request takes the cost of a draft before it asks the model, saves the user's
message, and hands on what the model produces. A background task runs the model's
pipeline and puts its chunks in a queue; the stream reads the queue and adds pings
while it waits. The last chunk says whether the answer is a draft, and a part of the
cost is given back if it is not; a chunk that reports an error, like an exception in
between, gives back all of it.

## Main definitions

* `Pipeline`, `generateAiResponseStream` — the chunks of the background task, with pings
* `World` — what a request has read, written and committed
* `Request` — a chat request, and what it meets
* `sendChatStream` — the request as a program that may be interrupted
* `Request.run` — what the request has committed when it is over
* `Steady` — a property of the world that no part of a request affects

## Main results

* `Steady.prededuct`, `Steady.answer` — what a request keeps once it has looked its rows up
* `Request.run_of_missing`, `Request.run_of_found` — what it refuses
-/

namespace Logit.Chats

open Calendar Concurrency Concurrency.Action Python Tokens

/-! ## The producer -/

/-- A chunk of the model's answer. -/
inductive Chunk
  /-- Keeps the connection open. -/
  | ping
  | content (content : String)
  | done (content : String) (isDraft : Bool)
  | error (message : String)
  deriving DecidableEq, Repr

/-- How the background task ends. -/
inductive Ending
  | done (content : String) (isDraft : Bool)
  /-- An exception, which the task turns into a chunk. -/
  | error (message : String)
  /-- The task has been cancelled. -/
  | cancelled
  deriving DecidableEq, Repr

/-- The chunk that reports an ending; a cancelled task leaves none. -/
def Ending.chunks : Ending → List Chunk
  | .done content isDraft => [.done content isDraft]
  | .error message => [.error message]
  | .cancelled => []

/-- What the background task produces: parts of the answer, and an ending. -/
structure Pipeline where
  contents : List String
  ending : Ending

/-- What the task puts in the queue before the signal that it is over. -/
def Pipeline.queue (pipeline : Pipeline) : List Chunk :=
  pipeline.contents.map .content ++ pipeline.ending.chunks

/-- The chunks the stream yields for the items of a queue, with a number of pings before
each item and before the signal that the task is over. -/
def withPings (pings : ℕ → ℕ) : ℕ → List Chunk → List Chunk
  | n, [] => List.replicate (pings n) .ping
  | n, item :: items => List.replicate (pings n) .ping ++ item :: withPings pings (n + 1) items

/-- The chunks of a pipeline, as the stream yields them. -/
def generateAiResponseStream (pipeline : Pipeline) (pings : ℕ → ℕ) : List Chunk :=
  withPings pings 0 pipeline.queue

/-! ## The request -/

inductive ChatRole
  | user
  | assistant
  deriving DecidableEq, Repr

/-- A message of a conversation. -/
structure Chat where
  id : UUID
  projectId : UUID
  questionId : UUID
  userId : UUID
  role : ChatRole
  content : String
  experienceIds : Option (List String)
  isDraft : Bool
  deriving DecidableEq, Repr

/-- A question that has not been deleted, as far as the stream reads it. -/
structure Question where
  id : UUID
  projectId : UUID
  userId : UUID
  deriving DecidableEq, Repr

/-- What the stream sends to the client. -/
inductive SseEvent
  | error (message : String)
  | chunk (chunk : Chunk)
  | done (chatId : Option UUID) (isDraft draftLimitExceeded : Bool) (tokenBalance : Option ℤ)
      (tokensUsed : Option ℤ)
  deriving DecidableEq, Repr

/-- What a request has read, written and committed. -/
structure World where
  /-- The locked reads of the token row so far. -/
  reads : ℕ
  /-- What the open transaction has recorded and added. -/
  recorded : List TokenTransaction
  added : List Chat
  transactions : List TokenTransaction
  chats : List Chat
  /-- A statement has failed and the transaction has not been rolled back. -/
  broken : Bool
  events : List SseEvent

/-- A request that has done nothing yet. -/
def World.init : World := ⟨0, [], [], [], [], false, []⟩

/-- A chat request and what it meets: the plan of its suspension points, the rows its locked
reads find, and the chunks it is given. -/
structure Request where
  plan : ℕ → Fate
  clock : ℕ → Clock
  /-- The token row each locked read finds. -/
  found : ℕ → Option UserToken
  question : Option Question
  projectExists : Bool
  chunks : List Chunk
  userChatId : UUID
  assistantChatId : UUID
  userId : UUID
  content : String
  experienceIds : Option (List String)
  isTestUser : Bool

variable (request : Request)

/-- A database statement; after a failed one, none goes through. -/
def statement (effect : World → World) : Action World Unit := do
  let w ← get
  if w.broken then raise
  else suspend request.plan (fun w => { w with broken := true, recorded := [], added := [] }) effect

/-- Commits what the open transaction has recorded and added. -/
def commit : Action World Unit :=
  statement request fun w =>
    { w with
      transactions := w.transactions ++ w.recorded, recorded := []
      chats := w.chats ++ w.added, added := [] }

/-- Hands an event to the client, and waits until it asks for more. -/
def emit (event : SseEvent) : Action World Unit := do
  modify fun w => { w with events := w.events ++ [event] }
  suspend request.plan id id

/-- A call of the token service: a locked read of the token row, an insert where there is none,
and what the function records. -/
def tokenCall {α : Type} (function : Clock → Option UserToken → Outcome α) :
    Action World (Except TokenError α) := do
  let w ← get
  statement request fun w => { w with reads := w.reads + 1 }
  -- A missing row is inserted, and the insert sent at once.
  if (request.found w.reads).isNone then statement request id
  let outcome := function (request.clock w.reads) (request.found w.reads)
  modify fun w => { w with recorded := w.recorded ++ outcome.recorded }
  return outcome.result

/-- The value of a result, or its exception. -/
def orRaise {α : Type} : Except TokenError α → Action World α
  | .ok value => pure value
  | .error _ => raise

/-- A call of the token service whose exception is not caught where it is made. -/
def tokenValue {α : Type} (function : Clock → Option UserToken → Outcome α) : Action World α := do
  orRaise (← tokenCall request function)

/-- Saves a message. -/
def createChat (question : Question) (chatId : UUID) (role : ChatRole) (content : String)
    (isDraft : Bool) : Action World Unit := do
  modify fun w => { w with
    added := w.added ++ [⟨chatId, question.projectId, question.id, question.userId, role, content,
      request.experienceIds, isDraft⟩] }
  -- The saved message is committed and read again.
  commit request
  statement request id

/-- Saves the user's message. -/
def createUserChat (question : Question) : Action World Unit :=
  createChat request question request.userChatId .user request.content false

/-- Saves the model's answer. -/
def createAssistantChat (question : Question) (content : String) (isDraft : Bool) :
    Action World Unit :=
  createChat request question request.assistantChatId .assistant content isDraft

/-- Gives back all that was taken before the answer; a failure is only logged. -/
def refundPrededuction : Action World Unit :=
  if request.isTestUser then pure ()
  else swallow do
    let _ ← tokenValue request fun clock row =>
      credit request.userId clock row DRAFT_TOKEN_COST .chatRefund (some "AI 오류 전액 환불")
    commit request

/-- What an answer costs. -/
def actualCost (isDraft : Bool) : ℤ := if isDraft then DRAFT_TOKEN_COST else CHAT_TOKEN_COST

/-- Gives back what the answer did not cost, and returns the balance to report. -/
def refundDifference (predeductedBalance : Option ℤ) (isDraft : Bool) :
    Action World (Option ℤ) :=
  if request.isTestUser then pure none
  else if 0 < DRAFT_TOKEN_COST - actualCost isDraft then do
    let balance ← tokenValue request fun clock row =>
      credit request.userId clock row (DRAFT_TOKEN_COST - actualCost isDraft) .chatRefund
        (some "채팅 비용 조정 (선차감 차액 환불)")
    return some balance
  else pure predeductedBalance

/-- Handles one chunk and returns the answer so far. -/
def handleChunk (question : Question) (predeductedBalance : Option ℤ) (fullContent : String) :
    Chunk → Action World String
  | .ping => do
    emit request (.chunk .ping)
    return fullContent
  | .content content => do
    emit request (.chunk (.content content))
    return fullContent ++ content
  | .done _ isDraft => do
    -- What is given back is committed with the answer.
    let remainingBalance ← refundDifference request predeductedBalance isDraft
    createAssistantChat request question fullContent isDraft
    emit request (.done (some request.assistantChatId) isDraft false remainingBalance
      (some (if request.isTestUser then 0 else actualCost isDraft)))
    return fullContent
  | .error message => do
    refundPrededuction request
    emit request (.chunk (.error message))
    return fullContent

/-- Waits for each chunk of the producer and handles it. -/
def consume (question : Question) (predeductedBalance : Option ℤ) :
    List Chunk → String → Action World Unit
  | [], _ => suspend request.plan id id
  | chunk :: chunks, fullContent => do
    suspend request.plan id id
    let fullContent ← handleChunk request question predeductedBalance fullContent chunk
    consume question predeductedBalance chunks fullContent

/-- The request after the cost has been taken: the user's message, and the answer. -/
def answer (question : Question) (predeductedBalance : Option ℤ) : Action World Unit := do
  createUserChat request question
  attempt (consume request question predeductedBalance request.chunks "")
    (refundPrededuction request)

/-- Takes the cost of a draft before the answer. -/
def prededuct : Action World (Except TokenError ℤ) := do
  let balance ← tokenCall request fun clock row =>
    debit request.userId clock row DRAFT_TOKEN_COST .draftUsage (some "선차감 (채팅/초안)")
  match balance with
  | .ok _ => commit request
  | .error _ => pure ()
  return balance

/-- Sends a message and streams the model's answer. -/
def sendChatStream : Action World Unit := do
  statement request id
  match request.question with
  | none => emit request (.error "Question not found")
  | some question =>
    if question.userId ≠ request.userId then
      emit request (.error "Access to this resource is forbidden.")
    else do
      statement request id
      if !request.projectExists then emit request (.error "Project not found")
      else if request.isTestUser then answer request question none
      else
        -- The cost of a draft is taken first, and what a chat did not cost is given back later.
        match ← prededuct request with
        | .ok balance => answer request question (some balance)
        | .error (.insufficientTokens current _) =>
          emit request (.done none false false (some current) none)
        | .error (.keyError _) => raise

/-- What a request leaves: its session is closed, and what it has not committed is lost. -/
def Request.run : World := (sendChatStream request ⟨0, .init⟩).2.world

/-! ## What a request keeps -/

/-- A property of the world that a request keeps whatever it does, except that it refuses. -/
structure Steady (P : World → Prop) : Prop where
  statement : ∀ effect : World → World, (∀ w, (effect w).events = w.events) →
    Keeps P (statement request effect)
  emit : ∀ event, (∀ message, event ≠ .error message) → Keeps P (emit request event)
  wait : Keeps P (suspend request.plan id id)
  record : ∀ w recorded, P w → P { w with recorded }
  add : ∀ w added, P w → P { w with added }

namespace Steady

variable {request} {P : World → Prop}

theorem commit (h : Steady request P) : Keeps P (commit request) := h.statement _ fun _ => rfl

theorem createChat (h : Steady request P) (question : Question) (chatId : UUID) (role : ChatRole)
    (content : String) (isDraft : Bool) :
    Keeps P (createChat request question chatId role content isDraft) := by
  refine Keeps.bind (Keeps.modify fun w hw => h.add w _ hw) fun _ => ?_
  exact h.commit.bind fun _ => h.statement id fun _ => rfl

theorem recorded (h : Steady request P) {α : Type} (outcome : Outcome α) :
    Keeps P (do
      modify fun w => { w with recorded := w.recorded ++ outcome.recorded }
      return outcome.result : Action World (Except TokenError α)) :=
  Keeps.bind (Keeps.modify fun w hw => h.record w _ hw) fun _ => Keeps.pure _

theorem tokenCall (h : Steady request P) {α : Type}
    (function : Clock → Option UserToken → Outcome α) : Keeps P (tokenCall request function) := by
  refine Keeps.get.bind fun w => ?_
  refine (h.statement (fun w => { w with reads := w.reads + 1 }) fun _ => rfl).bind fun _ => ?_
  dsimp only
  split_ifs
  · exact (h.statement id fun _ => rfl).bind fun _ => h.recorded _
  · exact h.recorded _

theorem tokenValue (h : Steady request P) {α : Type}
    (function : Clock → Option UserToken → Outcome α) : Keeps P (tokenValue request function) := by
  refine (h.tokenCall function).bind fun result => ?_
  cases result
  · exact Keeps.raise
  · exact Keeps.pure _

theorem refundPrededuction (h : Steady request P) : Keeps P (refundPrededuction request) := by
  unfold Chats.refundPrededuction
  split_ifs
  · exact Keeps.pure _
  · exact ((h.tokenValue _).bind fun _ => h.commit).swallow

theorem refundDifference (h : Steady request P) (balance : Option ℤ) (isDraft : Bool) :
    Keeps P (refundDifference request balance isDraft) := by
  unfold Chats.refundDifference
  split_ifs
  · exact Keeps.pure _
  · exact (h.tokenValue _).bind fun _ => Keeps.pure _
  · exact Keeps.pure _

/-- An event that is not a refusal, and the answer so far. -/
theorem emitReturn (h : Steady request P) {event : SseEvent}
    (hevent : ∀ message, event ≠ .error message) (fullContent : String) :
    Keeps P (do Chats.emit request event; return fullContent) :=
  (h.emit event hevent).bind fun _ => Keeps.pure _

theorem handleChunk (h : Steady request P) (question : Question) (balance : Option ℤ)
    (fullContent : String) (chunk : Chunk) :
    Keeps P (handleChunk request question balance fullContent chunk) := by
  cases chunk with
  | ping => exact h.emitReturn (by simp) fullContent
  | content content => exact h.emitReturn (by simp) (fullContent ++ content)
  | done content isDraft =>
    refine (h.refundDifference balance isDraft).bind fun _ => ?_
    exact (h.createChat question _ _ _ _).bind fun _ => h.emitReturn (by simp) fullContent
  | error message =>
    exact h.refundPrededuction.bind fun _ => h.emitReturn (by simp) fullContent

theorem consume (h : Steady request P) (question : Question) (balance : Option ℤ)
    (chunks : List Chunk) (fullContent : String) :
    Keeps P (consume request question balance chunks fullContent) := by
  induction chunks generalizing fullContent with
  | nil => exact h.wait
  | cons chunk chunks ih =>
    exact h.wait.bind fun _ => (h.handleChunk question balance fullContent chunk).bind ih

theorem answer (h : Steady request P) (question : Question) (balance : Option ℤ) :
    Keeps P (answer request question balance) :=
  (h.createChat question _ _ _ _).bind fun _ =>
    (h.consume question balance _ _).attempt h.refundPrededuction

theorem prededuct (h : Steady request P) : Keeps P (prededuct request) := by
  refine (h.tokenCall _).bind fun result => ?_
  cases result
  · exact Keeps.pure _
  · exact h.commit.bind fun _ => Keeps.pure _

/-- What comes after the cost of a draft has been asked for. -/
theorem answered (h : Steady request P) (question : Question) (result : Except TokenError ℤ) :
    Keeps P (match result with
      | .ok balance => Chats.answer request question (some balance)
      | .error (.insufficientTokens current _) =>
        Chats.emit request (.done none false false (some current) none)
      | .error (.keyError _) => raise) := by
  rcases result with (_ | _) | balance
  · exact h.emit _ (by simp)
  · exact Keeps.raise
  · exact h.answer question _

end Steady

/-! ## What a request refuses -/

variable {request}

/-- A request whose question is missing commits nothing, and says that it is missing. -/
theorem Request.run_of_missing (hplan : request.plan 0 = .proceed)
    (hquestion : request.question = none) :
    request.run.chats = [] ∧ request.run.transactions = [] ∧
      .error "Question not found" ∈ request.run.events := by
  have hlookup : statement request id ⟨0, World.init⟩ = (.ok (), ⟨1, World.init⟩) := by
    have hget : (get : Action World World) ⟨0, World.init⟩ =
        (.ok World.init, ⟨0, World.init⟩) := rfl
    rw [statement, bind_apply_ok hget]
    simp [World.init, suspend, hplan]
  have hrun : request.run =
      (emit request (.error "Question not found") ⟨1, .init⟩).2.world := by
    unfold Request.run sendChatStream
    rw [bind_apply_ok hlookup, hquestion]
  rw [hrun]
  refine Keeps.suspend (P := fun w => w.chats = [] ∧ w.transactions = [] ∧
    .error "Question not found" ∈ w.events) (fun _ h => h) (fun _ h => h)
    ⟨1, { World.init with events := [.error "Question not found"] }⟩ ?_
  exact ⟨rfl, rfl, List.mem_cons_self⟩

/-- The only refusal so far is that of another user's question. -/
def World.Found (w : World) : Prop :=
  ∀ message, .error message ∈ w.events → message = "Access to this resource is forbidden."

theorem keeps_found_emit {event : SseEvent}
    (hevent : ∀ message, event = .error message →
      message = "Access to this resource is forbidden.") :
    Keeps World.Found (emit request event) := by
  refine Keeps.bind (Keeps.modify fun w hw message hmem => ?_) fun _ =>
    Keeps.suspend (fun _ h => h) fun _ h => h
  rcases List.mem_append.mp hmem with hmem | hmem
  · exact hw message hmem
  · exact hevent message (List.mem_singleton.mp hmem).symm

theorem steady_found : Steady request World.Found where
  statement effect heffect := by
    refine Keeps.get.bind fun w => ?_
    split_ifs
    · exact Keeps.raise
    · refine Keeps.suspend (fun _ h => h) fun w hw => ?_
      unfold World.Found at hw ⊢
      rwa [heffect]
  emit event hevent := keeps_found_emit fun message h => absurd h (hevent message)
  wait := Keeps.suspend (fun _ h => h) fun _ h => h
  record _ _ h := h
  add _ _ h := h

/-- A request that finds its rows does not say that they are missing. -/
theorem Request.run_of_found {question : Question} (hquestion : request.question = some question)
    (hproject : request.projectExists = true) : request.run.Found := by
  have hkeeps : Keeps World.Found (sendChatStream request) := by
    unfold sendChatStream
    rw [hquestion, hproject]
    refine (steady_found.statement id fun _ => rfl).bind fun _ => ?_
    simp only [Bool.not_true, Bool.false_eq_true, if_false]
    split_ifs
    · exact keeps_found_emit fun message h => (SseEvent.error.inj h).symm
    · refine (steady_found.statement id fun _ => rfl).bind fun _ => ?_
      exact steady_found.answer question none
    · refine (steady_found.statement id fun _ => rfl).bind fun _ => ?_
      exact steady_found.prededuct.bind fun result => steady_found.answered question result
  exact hkeeps ⟨0, .init⟩ nofun

end Logit.Chats
