import Logit.Experiences.Classification
import Logit.Projects.Model
import Logit.Python.Raise

/-!
# Questions of a project

A user adds questions to a project, one or several at a time; each is given the number after
the greatest of the project's questions. A question is read by its id, its project and its
user together, and is found only while it has not been deleted. The last question of a
project is not deleted.

## Main definitions

* `getNextOrder` — the number of the next question
* `createQuestion`, `createQuestionsBulk` — add questions
* `ReadsQuestions`, `getQuestion` — the questions that are read
* `updateQuestion`, `toggleQuestionComplete`, `deleteQuestion` — change a question that has
  been read

## Main results

* `order_lt_getNextOrder` — the next number is above those of the active questions
-/

namespace Logit.Projects

open Calendar Experiences Python Store

/-- What a request raises. -/
inductive RequestError
  | http (exception : HTTPException)
  /-- The database has refused a row. -/
  | databaseError
  deriving DecidableEq, Repr

variable (tables : Tables)

/-- The questions of a project and user that have not been deleted. -/
def activeQuestions (projectId userId : UUID) : List Question :=
  tables.questions.rows.filter fun q =>
    q.projectId = projectId ∧ q.userId = userId ∧ q.deletedAt = none

/-! ## Creating questions -/

/-- The number of the next question of a project. -/
def getNextOrder (projectId userId : UUID) : ℤ :=
  ((activeQuestions tables projectId userId).map (·.order)).max?.getD 0 + 1

/-- The user has the project, and it has not been deleted. -/
def ownsProject (projectId userId : UUID) : Bool :=
  (tables.projects.find? projectId).any fun p => p.userId = userId ∧ p.deletedAt = none

/-- A question a user asks to be created. -/
structure QuestionCreate where
  question : String
  maxLength : Option ℤ
  deriving DecidableEq, Repr

/-- What a new row draws from outside. -/
structure Draw where
  id : UUID
  createdAt : Datetime
  updatedAt : Datetime
  deriving DecidableEq, Repr

/-- The row of a new question. -/
def newQuestion (projectId userId : UUID) (order : ℤ) (create : QuestionCreate) (draw : Draw) :
    Question where
  id := draw.id
  projectId := projectId
  userId := userId
  question := create.question
  maxLength := create.maxLength
  order := order
  answer := none
  isCompleted := false
  createdAt := draw.createdAt
  updatedAt := draw.updatedAt
  deletedAt := none

/-- The rows of new questions, numbered from a first number on. -/
def newQuestions (projectId userId : UUID) (first : ℤ) :
    List (QuestionCreate × Draw) → List Question
  | [] => []
  | (create, draw) :: rest =>
    newQuestion projectId userId first create draw :: newQuestions projectId userId (first + 1) rest

/-- The tables with more questions, if the database takes them. -/
def addQuestions (new : List Question) : Except RequestError Tables :=
  if new.all (·.storable) then
    match tables.insertQuestions? new with
    | some after => .ok after
    | none => .error .databaseError
  else .error .databaseError

/-- Creates a question. -/
def createQuestion (create : QuestionCreate) (draw : Draw) (projectId userId : UUID) :
    Except RequestError (Question × Tables) := do
  if !ownsProject tables projectId userId then throw (.http ⟨404, "Project not found"⟩)
  let nextOrder := getNextOrder tables projectId userId
  let created := newQuestion projectId userId nextOrder create draw
  let after ← addQuestions tables [created]
  return (created, after)

/-- Creates several questions; there is at least one in a request. -/
def createQuestionsBulk (bulk : List (QuestionCreate × Draw)) (projectId userId : UUID) :
    Except RequestError (List Question × Tables) := do
  if !ownsProject tables projectId userId then throw (.http ⟨404, "Project not found"⟩)
  let nextOrder := getNextOrder tables projectId userId
  let created := newQuestions projectId userId nextOrder bulk
  let after ← addQuestions tables created
  return (created, after)

/-! ## Reading questions -/

/-- What a request for the questions of a project may read: the active ones by their numbers. -/
def ReadsQuestions (projectId userId : UUID) (rows : List Question) : Prop :=
  rows.Perm (activeQuestions tables projectId userId) ∧
    rows.Pairwise fun earlier later => earlier.order ≤ later.order

/-- The active question of an id, a project and a user. -/
def getQuestion (questionId projectId userId : UUID) : Option Question :=
  (tables.questions.find? questionId).filter fun q =>
    q.projectId = projectId ∧ q.userId = userId ∧ q.deletedAt = none

/-! ## Changing a question -/

/-- The fields a request changes. -/
structure QuestionUpdate where
  question : Given String
  maxLength : Given ℤ
  answer : Given String
  deriving DecidableEq, Repr

/-- The tables after a question has been assigned to, if the database takes the row. -/
def saveQuestion (loaded assigned : Question) : Except RequestError Tables :=
  if assigned.storable then .ok (tables.writeQuestion loaded assigned) else .error .databaseError

/-- A question with some fields changed; its text must not be null. -/
def Question.assign (question : Question) (update : QuestionUpdate) (now : Datetime) :
    Except RequestError Question :=
  match update.question.replacing (some question.question) with
  | none => .error .databaseError
  | some text =>
    .ok { question with
      question := text
      maxLength := update.maxLength.replacing question.maxLength
      answer := update.answer.replacing question.answer
      updatedAt := now }

/-- Changes a question. -/
def updateQuestion (dbQuestion : Question) (update : QuestionUpdate) (now : Datetime) :
    Except RequestError (Question × Tables) := do
  let assigned ← dbQuestion.assign update now
  let after ← saveQuestion tables dbQuestion assigned
  return (assigned, after)

/-- A question marked as completed, or no longer. -/
def Question.toggle (question : Question) (now : Datetime) : Question :=
  { question with isCompleted := !question.isCompleted, updatedAt := now }

/-- Marks a question as completed, or no longer. -/
def toggleQuestionComplete (dbQuestion : Question) (now : Datetime) :
    Except RequestError (Question × Tables) := do
  let assigned := dbQuestion.toggle now
  let after ← saveQuestion tables dbQuestion assigned
  return (assigned, after)

/-- A question that is deleted. -/
def Question.delete (question : Question) (now : Datetime) : Question :=
  { question with deletedAt := some now }

/-- Deletes a question, but not the last one of its project. -/
def deleteQuestion (dbQuestion : Question) (now : Datetime) :
    Except RequestError (Question × Tables) := do
  let activeCount := (activeQuestions tables dbQuestion.projectId dbQuestion.userId).length
  if activeCount ≤ 1 then
    throw (.http ⟨400, "프로젝트에는 최소 1개의 문항이 있어야 합니다."⟩)
  let assigned := dbQuestion.delete now
  let after ← saveQuestion tables dbQuestion assigned
  return (assigned, after)

/-! ## Numbers -/

variable {tables} {projectId userId : UUID} {q : Question}

theorem mem_activeQuestions : q ∈ activeQuestions tables projectId userId ↔
    q ∈ tables.questions.rows ∧ q.projectId = projectId ∧ q.userId = userId ∧
      q.deletedAt = none := by
  simp [activeQuestions]

theorem ownsProject_iff : ownsProject tables projectId userId = true ↔
    ∃ p, tables.projects.find? projectId = some p ∧ p.userId = userId ∧ p.deletedAt = none := by
  simp [ownsProject, Option.any_eq_true]

/-- The next number is above those of the active questions. -/
theorem order_lt_getNextOrder (h : q ∈ activeQuestions tables projectId userId) :
    q.order < getNextOrder tables projectId userId := by
  have hmem : q.order ∈ (activeQuestions tables projectId userId).map (·.order) :=
    List.mem_map_of_mem h
  unfold getNextOrder
  cases hmax : ((activeQuestions tables projectId userId).map (·.order)).max? with
  | none =>
    rw [List.max?_eq_none_iff] at hmax
    rw [hmax] at hmem
    cases hmem
  | some greatest =>
    have hle := (List.max?_eq_some_iff.mp hmax).2 q.order hmem
    rw [Option.getD_some]
    omega

/-- What new questions have in common. -/
theorem mem_newQuestions {first : ℤ} {bulk : List (QuestionCreate × Draw)}
    (h : q ∈ newQuestions projectId userId first bulk) :
    q.projectId = projectId ∧ q.userId = userId ∧ q.deletedAt = none ∧ first ≤ q.order := by
  induction bulk generalizing first with
  | nil => cases h
  | cons item rest ih =>
    obtain ⟨create, draw⟩ := item
    rcases List.mem_cons.mp h with rfl | hrest
    · exact ⟨rfl, rfl, rfl, le_rfl⟩
    · obtain ⟨hproject, huser, hactive, hfirst⟩ := ih hrest
      exact ⟨hproject, huser, hactive, by omega⟩

/-- The numbers of new questions are those from the first one on. -/
theorem exists_order_newQuestions_iff {first number : ℤ} {bulk : List (QuestionCreate × Draw)} :
    (∃ q ∈ newQuestions projectId userId first bulk, q.order = number) ↔
      first ≤ number ∧ number < first + bulk.length := by
  induction bulk generalizing first with
  | nil =>
    simp only [newQuestions, List.not_mem_nil, false_and, exists_false, List.length_nil, false_iff]
    omega
  | cons item rest ih =>
    obtain ⟨create, draw⟩ := item
    have hown : (newQuestion projectId userId first create draw).order = first := rfl
    simp only [newQuestions, List.mem_cons, exists_eq_or_imp, ih, hown, List.length_cons]
    omega

/-- New questions have different numbers. -/
theorem pairwise_newQuestions (projectId userId : UUID) (first : ℤ)
    (bulk : List (QuestionCreate × Draw)) :
    (newQuestions projectId userId first bulk).Pairwise fun a b => a.order < b.order := by
  induction bulk generalizing first with
  | nil => exact .nil
  | cons item rest ih =>
    obtain ⟨create, draw⟩ := item
    refine .cons (fun q hq => ?_) (ih (first + 1))
    have hfirst := (mem_newQuestions hq).2.2.2
    have hown : (newQuestion projectId userId first create draw).order = first := rfl
    omega

/-! ## What is committed -/

variable {after : Tables} {loaded assigned : Question}

theorem addQuestions_eq_ok {created : List Question} (h : addQuestions tables created = .ok after) :
    tables.insertQuestions? created = some after := by
  unfold addQuestions at h
  split_ifs at h
  split at h
  · next hinsert =>
    cases h
    exact hinsert
  · cases h

theorem createQuestionsBulk_eq_ok {bulk : List (QuestionCreate × Draw)} {created : List Question}
    (h : createQuestionsBulk tables bulk projectId userId = .ok (created, after)) :
    ownsProject tables projectId userId = true ∧
      created = newQuestions projectId userId (getNextOrder tables projectId userId) bulk ∧
      addQuestions tables created = .ok after := by
  unfold createQuestionsBulk at h
  split_ifs at h with howns
  · exact (throw_eq_ok.mp h).elim
  · obtain ⟨_, hadd, h⟩ := bind_eq_ok.mp h
    rw [pure_eq_ok, Prod.mk.injEq] at h
    obtain ⟨rfl, rfl⟩ := h
    exact ⟨by simpa using howns, rfl, hadd⟩

/-- One question is created like a list of one. -/
theorem createQuestion_eq_ok {create : QuestionCreate} {draw : Draw} {created : Question}
    (h : createQuestion tables create draw projectId userId = .ok (created, after)) :
    createQuestionsBulk tables [(create, draw)] projectId userId = .ok ([created], after) := by
  unfold createQuestion at h
  unfold createQuestionsBulk
  split_ifs at h ⊢
  · exact (throw_eq_ok.mp h).elim
  · obtain ⟨_, hadd, h⟩ := bind_eq_ok.mp h
    rw [pure_eq_ok, Prod.mk.injEq] at h
    obtain ⟨rfl, rfl⟩ := h
    exact bind_eq_ok.mpr ⟨_, hadd, rfl⟩

theorem saveQuestion_eq_ok (h : saveQuestion tables loaded assigned = .ok after) :
    after = tables.writeQuestion loaded assigned := by
  unfold saveQuestion at h
  split_ifs at h
  cases h
  rfl

variable {update : QuestionUpdate} {now : Datetime}

/-- A question that is changed is not deleted. -/
theorem Question.assign_eq_ok (h : loaded.assign update now = .ok assigned) :
    assigned.deletedAt = loaded.deletedAt := by
  unfold Question.assign at h
  split at h
  · cases h
  · cases h
    rfl

theorem updateQuestion_eq_ok
    (h : updateQuestion tables loaded update now = .ok (assigned, after)) :
    loaded.assign update now = .ok assigned ∧ saveQuestion tables loaded assigned = .ok after := by
  obtain ⟨_, hassign, h⟩ := bind_eq_ok.mp h
  obtain ⟨_, hsave, h⟩ := bind_eq_ok.mp h
  rw [pure_eq_ok, Prod.mk.injEq] at h
  obtain ⟨rfl, rfl⟩ := h
  exact ⟨hassign, hsave⟩

theorem toggleQuestionComplete_eq_ok
    (h : toggleQuestionComplete tables loaded now = .ok (assigned, after)) :
    assigned = loaded.toggle now ∧ saveQuestion tables loaded assigned = .ok after := by
  obtain ⟨_, hsave, h⟩ := bind_eq_ok.mp h
  rw [pure_eq_ok, Prod.mk.injEq] at h
  obtain ⟨rfl, rfl⟩ := h
  exact ⟨rfl, hsave⟩

theorem deleteQuestion_eq_ok (h : deleteQuestion tables loaded now = .ok (assigned, after)) :
    1 < (activeQuestions tables loaded.projectId loaded.userId).length ∧
      assigned = loaded.delete now ∧ saveQuestion tables loaded assigned = .ok after := by
  unfold deleteQuestion at h
  dsimp only at h
  split_ifs at h with hlast
  · exact (throw_eq_ok.mp h).elim
  · obtain ⟨_, hsave, h⟩ := bind_eq_ok.mp h
    rw [pure_eq_ok, Prod.mk.injEq] at h
    obtain ⟨rfl, rfl⟩ := h
    exact ⟨not_le.mp hlast, rfl, hsave⟩

/-! ## What is raised -/

variable {error : RequestError}

theorem saveQuestion_eq_error (h : saveQuestion tables loaded assigned = .error error) :
    error = .databaseError := by
  unfold saveQuestion at h
  split_ifs at h
  cases h
  rfl

theorem updateQuestion_eq_error (h : updateQuestion tables loaded update now = .error error) :
    error = .databaseError := by
  rcases bind_eq_error.mp h with hassign | ⟨assigned, -, h⟩
  · unfold Question.assign at hassign
    split at hassign
    · cases hassign
      rfl
    · cases hassign
  · rcases bind_eq_error.mp h with hsave | ⟨after, -, h⟩
    · exact saveQuestion_eq_error hsave
    · cases h

theorem toggleQuestionComplete_eq_error
    (h : toggleQuestionComplete tables loaded now = .error error) : error = .databaseError := by
  rcases bind_eq_error.mp h with hsave | ⟨after, -, h⟩
  · exact saveQuestion_eq_error hsave
  · cases h

theorem deleteQuestion_eq_error (h : deleteQuestion tables loaded now = .error error) :
    error = .http ⟨400, "프로젝트에는 최소 1개의 문항이 있어야 합니다."⟩ ∨ error = .databaseError := by
  unfold deleteQuestion at h
  dsimp only at h
  split_ifs at h with hlast
  · cases h
    exact .inl rfl
  · rcases bind_eq_error.mp h with hsave | ⟨after, -, h⟩
    · exact .inr (saveQuestion_eq_error hsave)
    · cases h

end Logit.Projects
