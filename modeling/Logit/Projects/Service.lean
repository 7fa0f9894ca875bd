import Logit.Projects.Questions
import Logit.Python.Raise

/-!
# Projects of a user

A project is created together with its questions, which are numbered from one on. Projects
are listed by their last activity, each with its first question; reading a single project
counts as an activity. A project that is deleted is no longer read.

## Main definitions

* `createProject` — creates a project and its questions
* `FirstQuestion`, `ReadsProjects` — the projects a user may be shown
* `getProject`, `updateProject`, `deleteProject` — a single project

## Main results

* `createProject_ok` — a new project, and its questions
-/

namespace Logit.Projects

open Calendar Experiences Python Store

variable (tables : Tables)

/-! ## Creating projects -/

/-- A project a user asks to be created. -/
structure ProjectCreate where
  company : String
  jobPosition : String
  recruitNotice : String
  companyTalent : Option String
  dueDate : Option Date
  questions : List (QuestionCreate × Draw)
  deriving DecidableEq, Repr

/-- The row of a new project. -/
def newProject (userId : UUID) (create : ProjectCreate) (draw : Draw) : Project where
  id := draw.id
  userId := userId
  company := create.company
  jobPosition := create.jobPosition
  recruitNotice := create.recruitNotice
  companyTalent := create.companyTalent
  dueDate := create.dueDate
  createdAt := draw.createdAt
  updatedAt := draw.updatedAt
  deletedAt := none

/-- The tables with one more project, if the database takes it. -/
def addProject (project : Project) : Except RequestError Tables :=
  if project.storable then
    match tables.insertProject? project with
    | some after => .ok after
    | none => .error .databaseError
  else .error .databaseError

/-- Creates a project and its questions. -/
def createProject (create : ProjectCreate) (draw : Draw) (userId : UUID) :
    Except RequestError ((Project × List Question) × Tables) := do
  let project := newProject userId create draw
  let withProject ← addProject tables project
  let questions := newQuestions project.id userId 1 create.questions
  let after ← addQuestions withProject questions
  return ((project, questions), after)

/-! ## Reading projects -/

/-- What the query for the first question of a project may choose: an active question with the
smallest number, or nothing if there is none. -/
def FirstQuestion (projectId : UUID) : Option UUID → Prop
  | none => ∀ q ∈ tables.questions.rows, q.projectId = projectId → q.deletedAt ≠ none
  | some questionId => ∃ q ∈ tables.questions.rows, q.projectId = projectId ∧ q.deletedAt = none ∧
      q.id = questionId ∧ ∀ other ∈ tables.questions.rows, other.projectId = projectId →
        other.deletedAt = none → q.order ≤ other.order

/-- A project as it is listed. -/
structure ProjectListItem where
  id : UUID
  company : String
  jobPosition : String
  dueDate : Option Date
  updatedAt : Datetime
  questionId : Option UUID
  totalQuestions : ℕ
  completedQuestions : ℕ
  deriving DecidableEq, Repr

/-- The questions of a project that have not been deleted. -/
def activeOf (projectId : UUID) : List Question :=
  tables.questions.rows.filter fun q => q.projectId = projectId ∧ q.deletedAt = none

/-- A project is listed as an item. -/
structure ListedAs (project : Project) (item : ProjectListItem) : Prop where
  id_eq : item.id = project.id
  company_eq : item.company = project.company
  jobPosition_eq : item.jobPosition = project.jobPosition
  dueDate_eq : item.dueDate = project.dueDate
  updatedAt_eq : item.updatedAt = project.updatedAt
  first : FirstQuestion tables project.id item.questionId
  total_eq : item.totalQuestions = (activeOf tables project.id).length
  completed_eq : item.completedQuestions =
    ((activeOf tables project.id).filter (·.isCompleted)).length

/-- What a request for the projects of a user may read: a part of the projects that have not
been deleted, the latest activity first. -/
def ReadsProjects (userId : UUID) (skip limit : ℕ) (items : List ProjectListItem) : Prop :=
  ∃ found : List Project, found.Perm (tables.projects.rows.filter fun p =>
      p.userId = userId ∧ p.deletedAt = none) ∧
    found.Pairwise (fun earlier later => later.updatedAt ≤ earlier.updatedAt) ∧
    List.Forall₂ (ListedAs tables) ((found.drop skip).take limit) items

/-! ## A single project -/

/-- The tables after a project has been assigned to, if the database takes the row. -/
def saveProject (loaded assigned : Project) : Except RequestError Tables :=
  if assigned.storable then .ok (tables.writeProject loaded assigned) else .error .databaseError

/-- The project of an id and a user, unless it has been deleted; reading it is an activity. -/
def getProject (projectId userId : UUID) (now : Datetime) :
    Except RequestError (Option Project × Tables) :=
  match (tables.projects.find? projectId).filter fun p =>
      p.userId = userId ∧ p.deletedAt = none with
  | none => .ok (none, tables)
  | some project => do
    let assigned := { project with updatedAt := now }
    let after ← saveProject tables project assigned
    return (some assigned, after)

/-- The fields a request changes. -/
structure ProjectUpdate where
  company : Given String
  jobPosition : Given String
  recruitNotice : Given String
  companyTalent : Given String
  dueDate : Given Date
  deriving DecidableEq, Repr

/-- A project with some fields changed; some of them must not be null. -/
def Project.assign (project : Project) (update : ProjectUpdate) (now : Datetime) :
    Except RequestError Project :=
  match update.company.replacing (some project.company),
      update.jobPosition.replacing (some project.jobPosition),
      update.recruitNotice.replacing (some project.recruitNotice) with
  | some company, some jobPosition, some recruitNotice =>
    .ok { project with
      company, jobPosition, recruitNotice
      companyTalent := update.companyTalent.replacing project.companyTalent
      dueDate := update.dueDate.replacing project.dueDate
      updatedAt := now }
  | _, _, _ => .error .databaseError

/-- Changes a project. -/
def updateProject (dbProject : Project) (update : ProjectUpdate) (now : Datetime) :
    Except RequestError (Project × Tables) := do
  let assigned ← dbProject.assign update now
  let after ← saveProject tables dbProject assigned
  return (assigned, after)

/-- Deletes a project. -/
def deleteProject (dbProject : Project) (now : Datetime) :
    Except RequestError (Project × Tables) := do
  let assigned := { dbProject with deletedAt := some now }
  let after ← saveProject tables dbProject assigned
  return (assigned, after)

/-! ## New projects -/

variable {tables} {after : Tables}

theorem mem_activeOf {projectId : UUID} {q : Question} : q ∈ activeOf tables projectId ↔
    q ∈ tables.questions.rows ∧ q.projectId = projectId ∧ q.deletedAt = none := by
  simp [activeOf]

theorem addProject_eq_ok {project : Project} (h : addProject tables project = .ok after) :
    tables.insertProject? project = some after := by
  unfold addProject at h
  split_ifs at h
  split at h
  · next hinsert =>
    cases h
    exact hinsert
  · cases h

theorem createProject_eq_ok {create : ProjectCreate} {draw : Draw} {userId : UUID}
    {project : Project} {questions : List Question}
    (h : createProject tables create draw userId = .ok ((project, questions), after)) :
    project = newProject userId create draw ∧
      questions = newQuestions project.id userId 1 create.questions ∧
      ∃ withProject, addProject tables project = .ok withProject ∧
        addQuestions withProject questions = .ok after := by
  obtain ⟨withProject, hproject, h⟩ := bind_eq_ok.mp h
  obtain ⟨_, hquestions, h⟩ := bind_eq_ok.mp h
  simp only [pure_eq_ok, Prod.mk.injEq] at h
  obtain ⟨⟨rfl, rfl⟩, rfl⟩ := h
  exact ⟨rfl, rfl, withProject, hproject, hquestions⟩

/-- A new project has a new id, and its questions come after those that are there. -/
theorem createProject_ok {create : ProjectCreate} {draw : Draw} {userId : UUID}
    {project : Project} {questions : List Question}
    (h : createProject tables create draw userId = .ok ((project, questions), after)) :
    project.userId = userId ∧ questions = newQuestions project.id userId 1 create.questions ∧
      (∀ p ∈ tables.projects.rows, p.id ≠ project.id) ∧
      after.projects.rows = tables.projects.rows ++ [project] ∧
      after.questions.rows = tables.questions.rows ++ questions := by
  obtain ⟨rfl, hnumbered, withProject, hproject, hquestions⟩ := createProject_eq_ok h
  obtain ⟨hsame, hinserted⟩ := Tables.insertProject?_eq_some (addProject_eq_ok hproject)
  obtain ⟨hprojects, hadded⟩ := Tables.insertQuestions?_eq_some (addQuestions_eq_ok hquestions)
  refine ⟨rfl, hnumbered, fun p hp => Table.key_ne_of_insert? hinserted hp List.mem_cons_self, ?_,
    ?_⟩
  · rw [hprojects]
    exact Table.insert?_eq_some hinserted
  · rw [Table.insert?_eq_some hadded, hsame]

/-! ## What is committed -/

theorem saveProject_eq_ok {loaded assigned : Project}
    (h : saveProject tables loaded assigned = .ok after) :
    after = tables.writeProject loaded assigned := by
  unfold saveProject at h
  split_ifs at h
  cases h
  rfl

/-- The user's project has been found, and its activity committed. -/
theorem getProject_eq_ok {projectId userId : UUID} {now : Datetime} {project : Project}
    (h : getProject tables projectId userId now = .ok (some project, after)) :
    ∃ loaded ∈ tables.projects.rows, loaded.id = projectId ∧ loaded.deletedAt = none ∧
      project = { loaded with updatedAt := now } ∧
      saveProject tables loaded project = .ok after := by
  unfold getProject at h
  split at h
  · cases h
  · next loaded hfound =>
    obtain ⟨_, hsave, h⟩ := bind_eq_ok.mp h
    simp only [pure_eq_ok, Prod.mk.injEq, Option.some.injEq] at h
    obtain ⟨rfl, rfl⟩ := h
    obtain ⟨hfound, hread⟩ := Option.filter_eq_some_iff.mp hfound
    obtain ⟨hmem, hid⟩ := Table.of_find?_eq_some hfound
    have hactive : loaded.userId = userId ∧ loaded.deletedAt = none := by simpa using hread
    exact ⟨loaded, hmem, hid, hactive.2, rfl, hsave⟩

/-- A project that is changed is not deleted. -/
theorem Project.assign_eq_ok {project assigned : Project} {update : ProjectUpdate}
    {now : Datetime} (h : project.assign update now = .ok assigned) :
    assigned.deletedAt = project.deletedAt := by
  unfold Project.assign at h
  split at h
  · cases h
    rfl
  · cases h

theorem updateProject_eq_ok {project assigned : Project} {update : ProjectUpdate} {now : Datetime}
    (h : updateProject tables project update now = .ok (assigned, after)) :
    project.assign update now = .ok assigned ∧ saveProject tables project assigned = .ok after := by
  obtain ⟨_, hassign, h⟩ := bind_eq_ok.mp h
  obtain ⟨_, hsave, h⟩ := bind_eq_ok.mp h
  rw [pure_eq_ok, Prod.mk.injEq] at h
  obtain ⟨rfl, rfl⟩ := h
  exact ⟨hassign, hsave⟩

theorem deleteProject_eq_ok {project assigned : Project} {now : Datetime}
    (h : deleteProject tables project now = .ok (assigned, after)) :
    assigned = { project with deletedAt := some now } ∧
      saveProject tables project assigned = .ok after := by
  obtain ⟨_, hsave, h⟩ := bind_eq_ok.mp h
  rw [pure_eq_ok, Prod.mk.injEq] at h
  obtain ⟨rfl, rfl⟩ := h
  exact ⟨rfl, hsave⟩

end Logit.Projects
