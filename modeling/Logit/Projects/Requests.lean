import Logit.Chats.History
import Logit.Concurrency.Handler
import Logit.Experiences.Model
import Logit.Projects.QuestionSessions
import Logit.Projects.Service

/-!
# Requests about projects and their questions

The endpoints of projects, questions, chats and experience matching read and write the same
rows. Each looks its rows up with one statement and does the rest with later ones, and other
requests may commit in between; what the service does with a row it is given is one
statement here. Questions and projects are looked up in several places, each with
conditions of its own.

## Main definitions

* `Workspace` — the rows the requests read and write
* `Answer`, `NotFound` — what a request is answered with
* `Router` — a handler for each endpoint
* `Request`, `handle` — the requests, and their handlers
* `requests` — the requests as tasks over the rows
-/

namespace Logit.Projects

open Calendar Concurrency Experiences Pagination Python Tokens
open Concurrency.Handler (query commit)

/-- The rows the requests read and write. -/
structure Workspace where
  tables : Tables
  chats : List Chats.StoredChat
  transactions : List TokenTransaction

/-- A question, as far as a chat reads it. -/
def Question.forChat (question : Question) : Chats.Question :=
  ⟨question.id, question.projectId, question.userId⟩

/-- A question, as far as the history reads it. -/
def Question.forHistory (question : Question) : Chats.StoredQuestion :=
  ⟨question.forChat, question.question, question.answer⟩

/-- A project, as far as the history reads it. -/
def Project.forHistory (project : Project) : Chats.Project :=
  ⟨project.company, project.jobPosition, project.createdAt⟩

/-- The tables the history is read from. -/
def Workspace.history (w : Workspace) : Chats.ChatDatabase where
  questions id := (w.tables.questions.find? id).map Question.forHistory
  projects id := (w.tables.projects.find? id).map Project.forHistory
  chats := w.chats

/-- The question of an id, unless it has been deleted. -/
def getQuestionById (tables : Tables) (questionId : UUID) : Option Question :=
  (tables.questions.find? questionId).filter fun q => q.deletedAt = none

/-! ## Answers -/

/-- An experience, and how well it matches. -/
abbrev Match : Type := Experience × ℚ

/-- What a request is answered with. -/
inductive Answer
  | refused (error : RequestError)
  | created (project : Project) (questions : List Question)
  | project (project : Project)
  | projects (items : List ProjectListItem)
  | question (question : Question)
  | questions (questions : List Question)
  | noContent
  /-- The events of a chat. -/
  | stream (events : List Chats.SseEvent)
  | history (response : Chats.ChatHistoryResponse)
  | matched (experiences : List Match)

/-- A refusal with a status and a detail. -/
def refuse (status : ℕ) (detail : String) : Answer := .refused (.http ⟨status, detail⟩)

/-- A request is answered as not found: refused so, with an empty list, or with an event. -/
def NotFound : Answer → Prop
  | .refused (.http exception) => exception.status = 404
  | .questions questions => questions = []
  | .stream events =>
    .error "Question not found" ∈ events ∨ .error "Project not found" ∈ events
  | _ => False

/-! ## Handlers -/

/-- A statement that writes the tables of projects and questions. -/
def write {β : Type} (f : Tables → Except RequestError (β × Tables)) :
    Handler Workspace (Except RequestError β) :=
  commit fun w => (f w.tables).map fun written => (written.1, { w with tables := written.2 })

/-- The answer to a write that may have failed. -/
def reply {β : Type} (answer : β → Answer) : Except RequestError β → Answer
  | .ok b => answer b
  | .error error => .refused error

/-- A list of projects to be read, in an order the database may return it in. -/
structure ProjectListing where
  userId : UUID
  skip : ℕ
  limit : ℕ
  rows : Tables → List ProjectListItem
  reads : ∀ tables, ReadsProjects tables userId skip limit (rows tables)

/-- A list of questions to be read, in an order the database may return it in. -/
structure QuestionListing where
  projectId : UUID
  userId : UUID
  rows : Tables → List Question
  reads : ∀ tables, ReadsQuestions tables projectId userId (rows tables)

/-- A message to be sent that the router has let through, and what its stream meets. The stream
looks the question and the project up, and its first statement goes through. -/
structure Send where
  questionId : UUID
  stream : Chats.Request
  goesThrough : stream.plan 0 = .proceed
  /-- The instants at which messages are saved, by their ids. -/
  createdAt : UUID → Datetime

/-- The stream, with what it has looked up. -/
def Send.found (send : Send) (question : Option Question) (projectExists : Bool) :
    Chats.Request :=
  { send.stream with question := question.map Question.forChat, projectExists }

/-- A page of messages to be read, in an order the database may return them in. -/
structure HistoryPage where
  questionId : UUID
  userId : UUID
  cursor : Option String
  size : ℕ
  remainingChats : Option ℤ
  order : List Chats.StoredChat → List Chats.StoredChat
  newestFirst : ∀ rows, NewestFirst Chats.StoredChat.createdAt rows (order rows)

/-- A question whose experiences are to be matched, and how they are once it has been found. -/
structure Matching where
  questionId : UUID
  userId : UUID
  rank : Question → Project → Except HTTPException (List Match)

namespace Router

/-! ### Projects -/

def createProject (create : ProjectCreate) (draw : Draw) (userId : UUID) :
    Handler Workspace Answer := do
  let created ← write fun tables => Projects.createProject tables create draw userId
  return reply (fun (project, questions) => .created project questions) created

def readProjects (listing : ProjectListing) : Handler Workspace Answer := do
  let items ← query fun w => listing.rows w.tables
  return .projects items

/-- Reads a project, and answers with what is done with it. -/
def withProject (projectId userId : UUID) (touched : Datetime)
    (go : Project → Handler Workspace Answer) : Handler Workspace Answer := do
  match ← write fun tables => getProject tables projectId userId touched with
  | .error error => return .refused error
  | .ok none => return refuse 404 "Project not found."
  | .ok (some project) => go project

def readProject (projectId userId : UUID) (touched : Datetime) : Handler Workspace Answer :=
  withProject projectId userId touched fun project => return .project project

def updateProject (projectId userId : UUID) (touched : Datetime) (update : ProjectUpdate)
    (now : Datetime) : Handler Workspace Answer :=
  withProject projectId userId touched fun project => do
    let updated ← write fun tables => Projects.updateProject tables project update now
    return reply .project updated

def deleteProject (projectId userId : UUID) (touched now : Datetime) :
    Handler Workspace Answer :=
  withProject projectId userId touched fun project => do
    let deleted ← write fun tables => Projects.deleteProject tables project now
    return reply (fun _ => .noContent) deleted

/-! ### Questions -/

def createQuestion (create : QuestionCreate) (draw : Draw) (projectId userId : UUID) :
    Handler Workspace Answer := do
  let created ← write fun tables => Projects.createQuestion tables create draw projectId userId
  return reply .question created

def createQuestionsBulk (bulk : List (QuestionCreate × Draw)) (projectId userId : UUID) :
    Handler Workspace Answer := do
  let created ← write fun tables => Projects.createQuestionsBulk tables bulk projectId userId
  return reply .questions created

def readQuestions (listing : QuestionListing) : Handler Workspace Answer := do
  let questions ← query fun w => listing.rows w.tables
  return .questions questions

/-- Reads a question, and answers with what is done with it. -/
def withQuestion (questionId projectId userId : UUID)
    (go : Question → Handler Workspace Answer) : Handler Workspace Answer := do
  match ← query fun w => getQuestion w.tables questionId projectId userId with
  | none => return refuse 404 "Question not found."
  | some question => go question

def readQuestion (questionId projectId userId : UUID) : Handler Workspace Answer :=
  withQuestion questionId projectId userId fun question => return .question question

def updateQuestion (questionId projectId userId : UUID) (update : QuestionUpdate)
    (now : Datetime) : Handler Workspace Answer :=
  withQuestion questionId projectId userId fun question => do
    let updated ← write fun tables => Projects.updateQuestion tables question update now
    return reply .question updated

def toggleQuestionComplete (questionId projectId userId : UUID) (now : Datetime) :
    Handler Workspace Answer :=
  withQuestion questionId projectId userId fun question => do
    let toggled ← write fun tables => Projects.toggleQuestionComplete tables question now
    return reply .question toggled

def deleteQuestion (questionId projectId userId : UUID) (now : Datetime) :
    Handler Workspace Answer :=
  withQuestion questionId projectId userId fun question => do
    let deleted ← write fun tables => Projects.deleteQuestion tables question now
    return reply (fun _ => .noContent) deleted

/-! ### Chats and experiences -/

/-- Streams an answer; its messages and transactions are there when it is over. -/
def sendChat (send : Send) : Handler Workspace Answer := do
  let question ← query fun w => getQuestionById w.tables send.questionId
  let projectExists ← query fun w =>
    question.any fun q => (w.tables.projects.find? q.projectId).isSome
  let world := (send.found question projectExists).run
  .statement (fun w => { w with
    chats := w.chats ++ world.chats.map fun chat => ⟨chat, send.createdAt chat.id⟩
    transactions := w.transactions ++ world.transactions }) fun _ => .answer (.stream world.events)

def getChatMessages (page : HistoryPage) : Handler Workspace Answer := do
  let response ← query fun w => Chats.getChatHistoryResponse page.order w.history page.questionId
    page.userId page.cursor page.size page.remainingChats none
  match response with
  | .error .forbiddenError => return refuse 403 "Access to this resource is forbidden."
  | .ok none => return refuse 404 "Question not found"
  | .ok (some response) => return .history response

def getExperiencesByQuestion (matching : Matching) : Handler Workspace Answer := do
  match ← query fun w => (w.tables.questions.find? matching.questionId).filter fun q =>
      q.userId = matching.userId ∧ q.deletedAt = none with
  | none => return refuse 404 "Question not found"
  | some question =>
    match ← query fun w => (w.tables.projects.find? question.projectId).filter fun p =>
        p.userId = matching.userId ∧ p.deletedAt = none with
    | none => return refuse 404 "Project not found"
    | some project =>
      match matching.rank question project with
      | .error exception => return .refused (.http exception)
      | .ok experiences => return .matched experiences

end Router

/-! ## Requests -/

/-- A request, with the user who makes it and what it draws from outside. -/
inductive Request
  | createProject (create : ProjectCreate) (draw : Draw) (userId : UUID)
  | readProjects (listing : ProjectListing)
  | readProject (projectId userId : UUID) (touched : Datetime)
  | updateProject (projectId userId : UUID) (touched : Datetime) (update : ProjectUpdate)
      (now : Datetime)
  | deleteProject (projectId userId : UUID) (touched now : Datetime)
  | createQuestion (create : QuestionCreate) (draw : Draw) (projectId userId : UUID)
  | createQuestionsBulk (bulk : List (QuestionCreate × Draw)) (projectId userId : UUID)
  | readQuestions (listing : QuestionListing)
  | readQuestion (questionId projectId userId : UUID)
  | updateQuestion (questionId projectId userId : UUID) (update : QuestionUpdate) (now : Datetime)
  | toggleQuestionComplete (questionId projectId userId : UUID) (now : Datetime)
  | deleteQuestion (questionId projectId userId : UUID) (now : Datetime)
  | sendChat (send : Send)
  | getChatMessages (page : HistoryPage)
  | getExperiencesByQuestion (matching : Matching)

/-- The handler of a request. -/
def handle : Request → Handler Workspace Answer
  | .createProject create draw userId => Router.createProject create draw userId
  | .readProjects listing => Router.readProjects listing
  | .readProject projectId userId touched => Router.readProject projectId userId touched
  | .updateProject projectId userId touched update now =>
    Router.updateProject projectId userId touched update now
  | .deleteProject projectId userId touched now =>
    Router.deleteProject projectId userId touched now
  | .createQuestion create draw projectId userId =>
    Router.createQuestion create draw projectId userId
  | .createQuestionsBulk bulk projectId userId => Router.createQuestionsBulk bulk projectId userId
  | .readQuestions listing => Router.readQuestions listing
  | .readQuestion questionId projectId userId => Router.readQuestion questionId projectId userId
  | .updateQuestion questionId projectId userId update now =>
    Router.updateQuestion questionId projectId userId update now
  | .toggleQuestionComplete questionId projectId userId now =>
    Router.toggleQuestionComplete questionId projectId userId now
  | .deleteQuestion questionId projectId userId now =>
    Router.deleteQuestion questionId projectId userId now
  | .sendChat send => Router.sendChat send
  | .getChatMessages page => Router.getChatMessages page
  | .getExperiencesByQuestion matching => Router.getExperiencesByQuestion matching

/-- The requests as tasks over the rows; what is not about projects and questions may change at
any moment. -/
def requests : Program Workspace (Handler Workspace Answer) :=
  handlers (fun handler => ∃ request, handler = handle request) fun w w' => w'.tables = w.tables

/-- The request is about a question: it names it, or lists the questions of its project. -/
def Request.IsAbout (q : Question) : Request → Prop
  | .readQuestions listing => listing.projectId = q.projectId
  | .readQuestion questionId _ _ => questionId = q.id
  | .updateQuestion questionId _ _ _ _ => questionId = q.id
  | .toggleQuestionComplete questionId _ _ _ => questionId = q.id
  | .deleteQuestion questionId _ _ _ => questionId = q.id
  | .sendChat send => send.questionId = q.id
  | .getChatMessages page => page.questionId = q.id
  | .getExperiencesByQuestion matching => matching.questionId = q.id
  | _ => False

end Logit.Projects
