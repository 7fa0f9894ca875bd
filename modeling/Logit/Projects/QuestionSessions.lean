import Logit.Concurrency.Pool
import Logit.Projects.Questions
import Logit.Python.Raise

/-!
# Question requests at the same time

Requests about questions may be handled at the same time, each in a database session of its
own. A request reads with one statement and writes with a later one, and other requests may
commit in between: the number of a new question and the count a deletion relies on may be
out of date when they are used. What a session has not committed no other session sees, so
its writes are one step with the commit.

## Main definitions

* `QuestionTask`, `QuestionAct` — a session, and its statements
* `questionRequests` — the sessions as tasks over the tables
* `QuestionTask.Sound` — what a session has read is still true of the rows' identities

## Main results

* `runs_createQuestionsBulk`, `runs_updateQuestion`, `runs_toggleQuestionComplete`,
  `runs_deleteQuestion` — a session that runs alone does what the service does
* `sound_of_reachable` — every session is sound in every run
-/

namespace Logit.Projects

open Calendar Concurrency Python Store

/-! ## Sessions -/

/-- What a request does to a question it has read. -/
inductive QuestionChange
  | update (update : QuestionUpdate)
  | toggle
  | delete
  deriving DecidableEq, Repr

/-- Where a session stands between its statements. -/
inductive QuestionTask
  | creating (bulk : List (QuestionCreate × Draw)) (projectId userId : UUID)
  /-- The project has been found. -/
  | allowed (bulk : List (QuestionCreate × Draw)) (projectId userId : UUID)
  /-- The next number has been read, and the new rows are about to be committed. -/
  | inserting (bulk : List (QuestionCreate × Draw)) (projectId userId : UUID) (nextOrder : ℤ)
  | looking (questionId projectId userId : UUID) (change : QuestionChange) (now : Datetime)
  /-- A deletion has read its question, and is about to count. -/
  | counting (loaded : Question) (now : Datetime)
  /-- A question that has been read and assigned to is about to be committed. -/
  | writing (loaded assigned : Question)
  | ended

/-- One statement of a session, with the commit that follows its writes. -/
inductive QuestionAct : Tables → QuestionTask → Tables → QuestionTask → Prop
  | findProject {s : Tables} {bulk : List (QuestionCreate × Draw)} {projectId userId : UUID}
      (howns : ownsProject s projectId userId = true) :
      QuestionAct s (.creating bulk projectId userId) s (.allowed bulk projectId userId)
  | readOrder {s : Tables} {bulk : List (QuestionCreate × Draw)} {projectId userId : UUID} :
      QuestionAct s (.allowed bulk projectId userId) s
        (.inserting bulk projectId userId (getNextOrder s projectId userId))
  | insert {s s' : Tables} {bulk : List (QuestionCreate × Draw)} {projectId userId : UUID}
      {nextOrder : ℤ}
      (hadd : addQuestions s (newQuestions projectId userId nextOrder bulk) = .ok s') :
      QuestionAct s (.inserting bulk projectId userId nextOrder) s' .ended
  | readToUpdate {s : Tables} {questionId projectId userId : UUID} {update : QuestionUpdate}
      {now : Datetime} {loaded assigned : Question}
      (hfound : getQuestion s questionId projectId userId = some loaded)
      (hassign : loaded.assign update now = .ok assigned) :
      QuestionAct s (.looking questionId projectId userId (.update update) now) s
        (.writing loaded assigned)
  | readToToggle {s : Tables} {questionId projectId userId : UUID} {now : Datetime}
      {loaded : Question} (hfound : getQuestion s questionId projectId userId = some loaded) :
      QuestionAct s (.looking questionId projectId userId .toggle now) s
        (.writing loaded (loaded.toggle now))
  | readToDelete {s : Tables} {questionId projectId userId : UUID} {now : Datetime}
      {loaded : Question} (hfound : getQuestion s questionId projectId userId = some loaded) :
      QuestionAct s (.looking questionId projectId userId .delete now) s (.counting loaded now)
  | count {s : Tables} {loaded : Question} {now : Datetime}
      (hmore : 1 < (activeQuestions s loaded.projectId loaded.userId).length) :
      QuestionAct s (.counting loaded now) s (.writing loaded (loaded.delete now))
  | write {s s' : Tables} {loaded assigned : Question}
      (hsave : saveQuestion s loaded assigned = .ok s') :
      QuestionAct s (.writing loaded assigned) s' .ended
  /-- The request is refused, or fails, and what it has not committed is lost. -/
  | leave {s : Tables} {t : QuestionTask} : QuestionAct s t s .ended

/-- A request that has just arrived. -/
def QuestionTask.Starts : QuestionTask → Prop
  | .creating .. | .looking .. => True
  | _ => False

/-- Projects may be added and changed, but keep their ids and users. -/
def ProjectsChange (s s' : Tables) : Prop :=
  s'.questions = s.questions ∧
    ∀ p ∈ s.projects.rows, ∃ p' ∈ s'.projects.rows, p'.id = p.id ∧ p'.userId = p.userId

/-- The sessions as tasks over the tables. -/
def questionRequests : Program Tables QuestionTask where
  env := ProjectsChange
  start := QuestionTask.Starts
  act := QuestionAct

/-! ## One session alone -/

variable {s s' : Tables} {projectId userId questionId : UUID} {loaded assigned : Question}
  {now : Datetime} {t t' : QuestionTask}

theorem runs_createQuestionsBulk {bulk : List (QuestionCreate × Draw)} {created : List Question}
    (h : createQuestionsBulk s bulk projectId userId = .ok (created, s')) :
    questionRequests.Runs (s, .creating bulk projectId userId) (s', .ended) := by
  obtain ⟨howns, rfl, hadd⟩ := createQuestionsBulk_eq_ok h
  exact .step (.findProject howns) (.step .readOrder (.last (.insert hadd)))

theorem runs_createQuestion {create : QuestionCreate} {draw : Draw} {created : Question}
    (h : createQuestion s create draw projectId userId = .ok (created, s')) :
    questionRequests.Runs (s, .creating [(create, draw)] projectId userId) (s', .ended) :=
  runs_createQuestionsBulk (createQuestion_eq_ok h)

theorem runs_updateQuestion {update : QuestionUpdate}
    (hfound : getQuestion s questionId projectId userId = some loaded)
    (h : updateQuestion s loaded update now = .ok (assigned, s')) :
    questionRequests.Runs (s, .looking questionId projectId userId (.update update) now)
      (s', .ended) := by
  obtain ⟨hassign, hsave⟩ := updateQuestion_eq_ok h
  exact .step (.readToUpdate hfound hassign) (.last (.write hsave))

theorem runs_toggleQuestionComplete
    (hfound : getQuestion s questionId projectId userId = some loaded)
    (h : toggleQuestionComplete s loaded now = .ok (assigned, s')) :
    questionRequests.Runs (s, .looking questionId projectId userId .toggle now) (s', .ended) := by
  obtain ⟨rfl, hsave⟩ := toggleQuestionComplete_eq_ok h
  exact .step (.readToToggle hfound) (.last (.write hsave))

theorem runs_deleteQuestion (hfound : getQuestion s questionId projectId userId = some loaded)
    (h : deleteQuestion s loaded now = .ok (assigned, s')) :
    questionRequests.Runs (s, .looking questionId projectId userId .delete now) (s', .ended) := by
  obtain ⟨hmore, rfl, hsave⟩ := deleteQuestion_eq_ok h
  exact .step (.readToDelete hfound) (.step (.count hmore) (.last (.write hsave)))

/-! ## What sessions know -/

/-- There is a row with the id, the project and the user of a question. -/
def Known (s : Tables) (question : Question) : Prop :=
  ∃ row ∈ s.questions.rows, row.id = question.id ∧ row.projectId = question.projectId ∧
    row.userId = question.userId

/-- A project belongs to a user. -/
def Belongs (s : Tables) (projectId userId : UUID) : Prop :=
  ∃ p ∈ s.projects.rows, p.id = projectId ∧ p.userId = userId

/-- A session has read an active question that is there, or makes questions of a project and its
user. -/
def QuestionTask.Sound (s : Tables) : QuestionTask → Prop
  | .allowed _ projectId userId => Belongs s projectId userId
  | .inserting _ projectId userId _ => Belongs s projectId userId
  | .counting loaded _ => Known s loaded ∧ loaded.deletedAt = none
  | .writing loaded _ => Known s loaded ∧ loaded.deletedAt = none
  | _ => True

/-- Rows keep their identities, and none is taken out. -/
structure Extends (s s' : Tables) : Prop where
  questions : ∀ q ∈ s.questions.rows, Known s' q
  projects : ∀ p ∈ s.projects.rows, Belongs s' p.id p.userId

/-- What a session commits: nothing, new questions, or a question it has assigned to. -/
inductive QuestionAct.Effect (s : Tables) (t : QuestionTask) (s' : Tables) : Prop
  | nothing (h : s' = s)
  | inserted (bulk : List (QuestionCreate × Draw)) (projectId userId : UUID) (nextOrder : ℤ)
      (htask : t = .inserting bulk projectId userId nextOrder)
      (hprojects : s'.projects = s.projects)
      (hinsert : s.questions.insert? (newQuestions projectId userId nextOrder bulk) =
        some s'.questions)
  | wrote (loaded assigned : Question) (htask : t = .writing loaded assigned)
      (htables : s' = s.writeQuestion loaded assigned)

theorem saveQuestion_of_storable (s : Tables) (loaded : Question)
    (h : assigned.storable = true) :
    saveQuestion s loaded assigned = .ok (s.writeQuestion loaded assigned) := if_pos h

theorem QuestionAct.effect (h : QuestionAct s t s' t') : QuestionAct.Effect s t s' := by
  cases h with
  | insert hadd =>
    obtain ⟨hprojects, hinsert⟩ := Tables.insertQuestions?_eq_some (addQuestions_eq_ok hadd)
    exact .inserted _ _ _ _ rfl hprojects hinsert
  | write hsave => exact .wrote _ _ rfl (saveQuestion_eq_ok hsave)
  | findProject => exact .nothing rfl
  | readOrder => exact .nothing rfl
  | readToUpdate => exact .nothing rfl
  | readToToggle => exact .nothing rfl
  | readToDelete => exact .nothing rfl
  | count => exact .nothing rfl
  | leave => exact .nothing rfl

theorem getQuestion_eq_some (h : getQuestion s questionId projectId userId = some loaded) :
    loaded ∈ s.questions.rows ∧ loaded.id = questionId ∧ loaded.projectId = projectId ∧
      loaded.userId = userId ∧ loaded.deletedAt = none := by
  obtain ⟨hfound, hread⟩ := Option.filter_eq_some_iff.mp h
  obtain ⟨hmem, hid⟩ := Table.of_find?_eq_some hfound
  exact ⟨hmem, hid, by simpa using hread⟩

/-- The rows after a question has been assigned to. -/
theorem mem_writeQuestion {q : Question} :
    q ∈ (s.writeQuestion loaded assigned).questions.rows ↔
      (∃ old ∈ s.questions.rows, old.id = loaded.id ∧ writeQuestion loaded assigned old = q) ∨
        q ∈ s.questions.rows ∧ q.id ≠ loaded.id :=
  Table.mem_update (writeQuestion_id loaded assigned)

theorem Extends.of_effect (h : QuestionAct.Effect s t s') : Extends s s' := by
  cases h with
  | nothing h =>
    subst h
    exact ⟨fun q hq => ⟨q, hq, rfl, rfl, rfl⟩, fun p hp => ⟨p, hp, rfl, rfl⟩⟩
  | inserted bulk projectId userId nextOrder htask hprojects hinsert =>
    refine ⟨fun q hq => ⟨q, ?_, rfl, rfl, rfl⟩, fun p hp => ⟨p, hprojects ▸ hp, rfl, rfl⟩⟩
    rw [Table.insert?_eq_some hinsert]
    exact List.mem_append_left _ hq
  | wrote loaded assigned htask htables =>
    subst htables
    refine ⟨fun q hq => ?_, fun p hp => ⟨p, hp, rfl, rfl⟩⟩
    by_cases hid : q.id = loaded.id
    · exact ⟨_, mem_writeQuestion.mpr (.inl ⟨q, hq, hid, rfl⟩), rfl, rfl, rfl⟩
    · exact ⟨q, mem_writeQuestion.mpr (.inr ⟨hq, hid⟩), rfl, rfl, rfl⟩

theorem Extends.of_projectsChange (h : ProjectsChange s s') : Extends s s' := by
  obtain ⟨hquestions, hprojects⟩ := h
  exact ⟨fun q hq => ⟨q, hquestions ▸ hq, rfl, rfl, rfl⟩, hprojects⟩

theorem Extends.known (h : Extends s s') {question : Question} (hknown : Known s question) :
    Known s' question := by
  obtain ⟨row, hrow, hid, hproject, huser⟩ := hknown
  obtain ⟨row', hrow', hid', hproject', huser'⟩ := h.questions row hrow
  exact ⟨row', hrow', hid'.trans hid, hproject'.trans hproject, huser'.trans huser⟩

theorem Extends.belongs (h : Extends s s') (hbelongs : Belongs s projectId userId) :
    Belongs s' projectId userId := by
  obtain ⟨p, hp, rfl, rfl⟩ := hbelongs
  exact h.projects p hp

namespace QuestionTask.Sound

theorem mono (h : Extends s s') (hsound : t.Sound s) : t.Sound s' := by
  cases t with
  | allowed bulk projectId userId => exact h.belongs hsound
  | inserting bulk projectId userId nextOrder => exact h.belongs hsound
  | counting loaded now => exact ⟨h.known hsound.1, hsound.2⟩
  | writing loaded assigned => exact ⟨h.known hsound.1, hsound.2⟩
  | creating => trivial
  | looking => trivial
  | ended => trivial

theorem of_getQuestion (h : getQuestion s questionId projectId userId = some loaded) :
    Known s loaded ∧ loaded.deletedAt = none := by
  obtain ⟨hmem, -, -, -, hactive⟩ := getQuestion_eq_some h
  exact ⟨⟨loaded, hmem, rfl, rfl, rfl⟩, hactive⟩

theorem act (hact : QuestionAct s t s' t') (h : t.Sound s) : t'.Sound s' := by
  cases hact with
  | findProject howns =>
    obtain ⟨p, hfound, huser, -⟩ := ownsProject_iff.mp howns
    obtain ⟨hmem, hid⟩ := Table.of_find?_eq_some hfound
    exact ⟨p, hmem, hid, huser⟩
  | readOrder => exact h
  | insert => trivial
  | readToUpdate hfound => exact of_getQuestion hfound
  | readToToggle hfound => exact of_getQuestion hfound
  | readToDelete hfound => exact of_getQuestion hfound
  | count => exact h
  | write => trivial
  | leave => trivial

end QuestionTask.Sound

/-- In every run, what a session knows is so. -/
theorem sound_of_reachable {start : Tables} {p : Pool Tables QuestionTask}
    (h : Pool.Reachable questionRequests start p) : ∀ t ∈ p.tasks, t.Sound p.shared := by
  -- By induction on the run; what a session knows outlasts what the others commit.
  induction h with
  | refl => exact fun t ht => absurd ht List.not_mem_nil
  | tail _ hstep ih =>
    cases hstep with
    | env ts h => exact fun t ht => (ih t ht).mono (.of_projectsChange h)
    | @start t s ts hstart =>
      refine List.forall_mem_cons.mpr ⟨?_, ih⟩
      cases t <;> trivial
    | act before after h =>
      exact forall_mem_middle ih (fun u _ hu => hu.mono (.of_effect h.effect)) (·.act h)

end Logit.Projects
