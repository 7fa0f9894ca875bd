import Logit.Calendar.Datetime
import Logit.Python.Uuid
import Logit.Store.Table
import Logit.Users.Model

/-!
# Projects and their questions

A project stands for a job posting, and has the questions an applicant answers. Rows are
never taken out of the tables: a project or a question that is deleted has the instant of
its deletion. The tables keep primary keys apart, and a question refers to a project.

## Main definitions

* `Project`, `Question` — the rows
* `Tables` — the tables
* `Tables.insertQuestions?`, `Tables.insertProject?` — the tables with more rows
* `Tables.writeQuestion`, `Tables.writeProject` — the tables after a row has been assigned to
-/

namespace Logit.Projects

open Calendar Python Store Users

/-- A job posting a user applies to. -/
structure Project where
  id : UUID
  userId : UUID
  company : String
  jobPosition : String
  recruitNotice : String
  companyTalent : Option String
  dueDate : Option Date
  createdAt : Datetime
  updatedAt : Datetime
  deletedAt : Option Datetime
  deriving DecidableEq, Repr

/-- A question of a posting, and the answer. -/
structure Question where
  id : UUID
  projectId : UUID
  userId : UUID
  question : String
  maxLength : Option ℤ
  order : ℤ
  answer : Option String
  isCompleted : Bool
  createdAt : Datetime
  updatedAt : Datetime
  deletedAt : Option Datetime
  deriving DecidableEq, Repr

/-- A column of integers holds 32 bits. -/
def int32 (n : ℤ) : Bool := -2 ^ 31 ≤ n ∧ n < 2 ^ 31

/-- A project fits its columns. -/
def Project.storable (project : Project) : Bool :=
  project.company.length ≤ 255 && project.jobPosition.length ≤ 100

/-- A question fits its columns. -/
def Question.storable (question : Question) : Bool :=
  question.question.length ≤ 100 && int32 question.order && question.maxLength.all int32

/-- The tables of projects and questions. -/
structure Tables where
  projects : Table Project.id
  questions : Table Question.id
  /-- A question refers to a project. -/
  refers : ∀ q ∈ questions.rows, (projects.find? q.projectId).isSome = true

/-- What is left of a project that has been loaded and assigned to: the columns that have been
changed are written. -/
def writeProject (loaded assigned stored : Project) : Project :=
  { stored with
    company := flush stored.company loaded.company assigned.company
    jobPosition := flush stored.jobPosition loaded.jobPosition assigned.jobPosition
    recruitNotice := flush stored.recruitNotice loaded.recruitNotice assigned.recruitNotice
    companyTalent := flush stored.companyTalent loaded.companyTalent assigned.companyTalent
    dueDate := flush stored.dueDate loaded.dueDate assigned.dueDate
    updatedAt := flush stored.updatedAt loaded.updatedAt assigned.updatedAt
    deletedAt := flush stored.deletedAt loaded.deletedAt assigned.deletedAt }

/-- What is left of a question that has been loaded and assigned to. -/
def writeQuestion (loaded assigned stored : Question) : Question :=
  { stored with
    question := flush stored.question loaded.question assigned.question
    maxLength := flush stored.maxLength loaded.maxLength assigned.maxLength
    answer := flush stored.answer loaded.answer assigned.answer
    isCompleted := flush stored.isCompleted loaded.isCompleted assigned.isCompleted
    updatedAt := flush stored.updatedAt loaded.updatedAt assigned.updatedAt
    deletedAt := flush stored.deletedAt loaded.deletedAt assigned.deletedAt }

@[simp] theorem writeProject_id (loaded assigned stored : Project) :
    (writeProject loaded assigned stored).id = stored.id := rfl

@[simp] theorem writeQuestion_id (loaded assigned stored : Question) :
    (writeQuestion loaded assigned stored).id = stored.id := rfl

namespace Tables

/-- The tables with more questions; nothing if an id is taken or there is no project. -/
def insertQuestions? (tables : Tables) (new : List Question) : Option Tables :=
  match tables.questions.insert? new with
  | none => none
  | some questions =>
    if h : ∀ q ∈ questions.rows, (tables.projects.find? q.projectId).isSome = true then
      some { tables with questions, refers := h }
    else none

/-- The tables with one more project; nothing if its id is taken. -/
def insertProject? (tables : Tables) (project : Project) : Option Tables :=
  match tables.projects.insert? [project] with
  | none => none
  | some projects =>
    if h : ∀ q ∈ tables.questions.rows, (projects.find? q.projectId).isSome = true then
      some { tables with projects, refers := h }
    else none

/-- The tables after a question has been assigned to. -/
def writeQuestion (tables : Tables) (loaded assigned : Question) : Tables where
  projects := tables.projects
  questions := tables.questions.update loaded.id (Projects.writeQuestion loaded assigned)
    (writeQuestion_id loaded assigned)
  refers q hq := by
    rcases (Table.mem_update _).mp hq with ⟨old, hold, -, rfl⟩ | ⟨hq, -⟩
    · exact tables.refers old hold
    · exact tables.refers q hq

/-- The tables after a project has been assigned to. -/
def writeProject (tables : Tables) (loaded assigned : Project) : Tables where
  projects := tables.projects.update loaded.id (Projects.writeProject loaded assigned)
    (writeProject_id loaded assigned)
  questions := tables.questions
  refers q hq := by
    rw [Table.find?_update]
    split_ifs
    · rw [Option.isSome_map]
      exact tables.refers q hq
    · exact tables.refers q hq

variable {tables after : Tables} {new : List Question}

theorem insertQuestions?_eq_some (h : tables.insertQuestions? new = some after) :
    after.projects = tables.projects ∧ tables.questions.insert? new = some after.questions := by
  unfold insertQuestions? at h
  split at h
  · cases h
  · next questions hquestions =>
    split_ifs at h
    cases h
    exact ⟨rfl, hquestions⟩

theorem insertProject?_eq_some {project : Project}
    (h : tables.insertProject? project = some after) :
    after.questions = tables.questions ∧
      tables.projects.insert? [project] = some after.projects := by
  unfold insertProject? at h
  split at h
  · cases h
  · next projects hprojects =>
    split_ifs at h
    cases h
    exact ⟨rfl, hprojects⟩

end Tables

end Logit.Projects
