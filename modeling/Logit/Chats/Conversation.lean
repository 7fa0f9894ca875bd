import Logit.Chats.Charging
import Logit.Chats.History

/-!
# Conversations

In a conversation the model is given the messages of the question and the user's new message. The
new message is saved before the model is asked; the messages are then read back from the database,
the new one among them, and it is appended once more. So the model is given it twice, whatever the
messages before.

## Main definitions

* `agetMessages` — the messages of a question as they are read back
* `converse` — what the model is given once the user's message has been saved
* `SeesOnce` — the model is given the messages before, and the user's message once

## Main results

* `converse_ok` — what the model is given
* `not_seesOnce` — it is given too much, whatever the messages before
-/

namespace Logit.Chats

open Calendar Concurrency Concurrency.Action Pagination Python

/-! ## The messages of a question -/

/-- A message as the model is given it. -/
inductive BaseMessage
  | humanMessage (content : String)
  | aiMessage (content : String)
  deriving DecidableEq, Repr

/-- A stored message as the model is given it. -/
def baseMessage (chat : StoredChat) : BaseMessage :=
  match chat.role with
  | .user => .humanMessage chat.content
  | .assistant => .aiMessage chat.content

/-- An order of rows, the oldest first; rows of one instant are in any order. -/
def Chronological (rows all : List StoredChat) : Prop :=
  all.Perm rows ∧ all.Pairwise fun first second => first.createdAt ≤ second.createdAt

/-- The messages of a question among those that are stored. The order is the one the database
returns the rows of the query in. -/
def agetMessages (order : List StoredChat → List StoredChat) (chats : List StoredChat)
    (questionId : UUID) : List BaseMessage :=
  (order (chats.filter (·.questionId = questionId))).map baseMessage

/-! ## What the model is given -/

section Conversation

variable
  -- What `RunnableWithMessageHistory` makes of messages and an input.
  (withHistory : List BaseMessage → String → List BaseMessage)
  (order : List StoredChat → List StoredChat)

/-- The messages that are stored when a request is made, and those it has committed, at an
instant. -/
def storedChats (chats : List StoredChat) (now : Datetime) (w : World) : List StoredChat :=
  chats ++ w.chats.map fun chat => ⟨chat, now⟩

/-- Saves the user's message as every answer begins, and asks the model for an answer in
conversation: what the model is given. -/
def converse (chats : List StoredChat) (now : Datetime) (request : Request) (question : Question) :
    Action World (List BaseMessage) := do
  createUserChat request question
  let w ← get
  let messages := agetMessages order (storedChats chats now w) question.id
  return withHistory messages request.content

/-- The model is given the messages of the question in chronological order, and the user's message
once. -/
def SeesOnce (chats : List StoredChat) (questionId : UUID) (content : String)
    (messages : List BaseMessage) : Prop :=
  ∃ history, Chronological (chats.filter (·.questionId = questionId)) history ∧
    messages = history.map baseMessage ++ [.humanMessage content]

end Conversation

/-! ## The user's message -/

variable {request : Request} {question : Question} {f f' : Frame World}

theorem statement_ok {effect : World → World}
    (h : statement request effect f = (.ok (), f')) : f'.world = effect f.world := by
  obtain ⟨w, f₁, hget, h⟩ := bind_eq_ok.mp h
  obtain ⟨-, rfl⟩ := Prod.mk.inj hget
  split_ifs at h
  · cases h
  · exact suspend_ok h

/-- The user's message as it is saved. -/
def userChat (request : Request) (question : Question) : Chat :=
  ⟨request.userChatId, question.projectId, question.id, question.userId, .user, request.content,
    request.experienceIds, false⟩

/-- A message that has been saved is committed, after what the request has added before. -/
theorem createUserChat_ok (h : createUserChat request question f = (.ok (), f')) :
    f'.world.chats = f.world.chats ++ (f.world.added ++ [userChat request question]) := by
  obtain ⟨_, f₁, hadd, h⟩ := bind_eq_ok.mp h
  obtain ⟨_, f₂, hcommit, hrefresh⟩ := bind_eq_ok.mp h
  rw [statement_ok hrefresh, id, statement_ok hcommit, ← (Prod.mk.inj hadd).2]
  rfl

/-! ## The conversation -/

variable {withHistory : List BaseMessage → String → List BaseMessage}
  {order : List StoredChat → List StoredChat} {chats : List StoredChat} {now : Datetime}
  {messages : List BaseMessage}

/-- The model is given the messages that are stored then, the user's message among them, and the
user's message. -/
theorem converse_ok (hwith : ∀ messages input,
      withHistory messages input = messages ++ [.humanMessage input])
    (h : converse withHistory order chats now request question f = (.ok messages, f')) :
    messages = agetMessages order (storedChats chats now f.world ++
      (f.world.added ++ [userChat request question]).map fun chat => ⟨chat, now⟩) question.id ++
        [.humanMessage request.content] := by
  obtain ⟨_, f₁, hsave, h⟩ := bind_eq_ok.mp h
  have hchats := createUserChat_ok hsave
  obtain ⟨hmessages, -⟩ := Prod.mk.inj h
  rw [← Except.ok.inj hmessages, hwith, storedChats, hchats, storedChats, List.map_append,
    List.append_assoc]

/-- Whatever is stored before, the model is given more than that and the user's message once. -/
theorem not_seesOnce (hwith : ∀ messages input,
      withHistory messages input = messages ++ [.humanMessage input])
    (horder : ∀ rows, Chronological rows (order rows))
    (h : converse withHistory order chats now request question f = (.ok messages, f')) :
    ¬ SeesOnce (storedChats chats now f.world) question.id request.content messages := by
  rintro ⟨history, hhistory, hmessages⟩
  rw [converse_ok hwith h] at hmessages
  have hlength := congrArg List.length (List.append_cancel_right hmessages)
  have huser : (decide ((⟨userChat request question, now⟩ : StoredChat).questionId =
      question.id)) = true := decide_eq_true rfl
  rw [agetMessages, List.length_map, (horder _).1.length_eq, List.length_map,
    hhistory.1.length_eq, List.filter_append, List.map_append, List.map_singleton,
    List.filter_append, List.filter_singleton, huser] at hlength
  simp at hlength

/-! ### An order and a message -/

/-- The oldest first, and rows of one instant in any order. -/
def oldestFirst (rows : List StoredChat) : List StoredChat :=
  rows.insertionSort fun first second => first.createdAt ≤ second.createdAt

theorem chronological_oldestFirst (rows : List StoredChat) :
    Chronological rows (oldestFirst rows) := by
  let Earlier : StoredChat → StoredChat → Prop :=
    fun first second => first.createdAt ≤ second.createdAt
  have htotal : Std.Total Earlier := ⟨fun _ _ => le_total _ _⟩
  have htrans : IsTrans StoredChat Earlier := ⟨fun _ _ _ => le_trans⟩
  exact ⟨List.perm_insertionSort _ rows, List.pairwise_insertionSort Earlier rows⟩

/-- What LangChain makes of messages and an input. -/
def appendInput (messages : List BaseMessage) (input : String) : List BaseMessage :=
  messages ++ [.humanMessage input]

theorem appendInput_eq (messages : List BaseMessage) (input : String) :
    appendInput messages input = messages ++ [.humanMessage input] := rfl

/-- A message, as it is stored. -/
def nextMessage : StoredChat :=
  ⟨⟨3, 1, 2, 3, .user, "지원 동기를 써 줘", none, false⟩, .utc 2026 1 20 12⟩

/-- What the model is given for it, with some messages stored. -/
theorem converse_nextMessage (chats : List StoredChat) : ∃ f',
    converse appendInput oldestFirst chats (.utc 2026 1 20 12)
      (firstMessage (fun _ => .proceed) []) ⟨2, 1, 3⟩ ⟨4, .init⟩ =
    (.ok (agetMessages oldestFirst (chats ++ [nextMessage]) 2 ++
      [.humanMessage "지원 동기를 써 줘"]), f') := ⟨_, rfl⟩

theorem not_seesOnce_answered :
    ¬ SeesOnce answeredQuestion.chats 2 "지원 동기를 써 줘"
      (agetMessages oldestFirst (answeredQuestion.chats ++ [nextMessage]) 2 ++
        [.humanMessage "지원 동기를 써 줘"]) := by
  obtain ⟨f', hconverse⟩ := converse_nextMessage answeredQuestion.chats
  exact not_seesOnce appendInput_eq chronological_oldestFirst hconverse

/-- The first message of a question is given twice. -/
theorem exists_not_seesOnce : ¬ ∀ (withHistory : List BaseMessage → String → List BaseMessage)
    (order : List StoredChat → List StoredChat) (chats : List StoredChat) (now : Datetime)
    (request : Request) (question : Question) (f f' : Frame World) (messages : List BaseMessage),
    (∀ messages input, withHistory messages input = messages ++ [.humanMessage input]) →
    (∀ rows, Chronological rows (order rows)) →
    converse withHistory order chats now request question f = (.ok messages, f') →
    SeesOnce (storedChats chats now f.world) question.id request.content messages := by
  intro h
  obtain ⟨f', hconverse⟩ := converse_nextMessage []
  obtain ⟨history, hhistory, hmessages⟩ :=
    h _ _ _ _ _ _ _ _ _ appendInput_eq chronological_oldestFirst hconverse
  obtain rfl : history = [] := hhistory.1.eq_nil
  exact absurd hmessages (by decide)

end Logit.Chats
