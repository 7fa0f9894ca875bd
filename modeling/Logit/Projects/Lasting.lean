import Logit.Projects.Requests

/-!
# What lasts

Requests add rows and change them, but take none out, and none that is deleted is made active
again: a request that has found a row before its deletion writes only the columns it changes.
So what has been deleted stays deleted in every run, however requests are interleaved.

## Main definitions

* `Lasting` — rows stay in their tables, and what has been deleted stays deleted

## Main results

* `guarantees_handle` — each statement of each request is so
* `lasting_of_meanwhile` — every run is so
-/

namespace Logit.Projects

open Calendar Concurrency Experiences Python Store Users

/-! ## What lasts -/

/-- A row comes after another in its place, and has been deleted if the other had. -/
def Lasts {ρ : Type} (id : ρ → UUID) (deletedAt : ρ → Option Datetime) (r r' : ρ) : Prop :=
  id r' = id r ∧ (deletedAt r ≠ none → deletedAt r' ≠ none)

theorem Lasts.refl {ρ : Type} {id : ρ → UUID} {deletedAt : ρ → Option Datetime} (r : ρ) :
    Lasts id deletedAt r r := ⟨rfl, fun h => h⟩

theorem Lasts.trans {ρ : Type} {id : ρ → UUID} {deletedAt : ρ → Option Datetime} (r r' r'' : ρ)
    (h : Lasts id deletedAt r r') (h' : Lasts id deletedAt r' r'') : Lasts id deletedAt r r'' :=
  ⟨h'.1.trans h.1, fun hdeleted => h'.2 (h.2 hdeleted)⟩

/-- Rows stay in their tables, and what has been deleted stays deleted. -/
structure Lasting (s s' : Tables) : Prop where
  projects : s.projects.Continues (Lasts Project.id Project.deletedAt) s'.projects
  questions : s.questions.Continues (Lasts Question.id Question.deletedAt) s'.questions

/-- A project has been deleted. -/
def ProjectDeleted (s : Tables) (projectId : UUID) : Prop :=
  ∃ p ∈ s.projects.rows, p.id = projectId ∧ p.deletedAt ≠ none

/-- A question has been deleted. -/
def QuestionDeleted (s : Tables) (questionId : UUID) : Prop :=
  ∃ q ∈ s.questions.rows, q.id = questionId ∧ q.deletedAt ≠ none

variable {s s' s'' : Tables} {projectId questionId userId : UUID}

namespace Lasting

theorem refl (s : Tables) : Lasting s s := ⟨.refl Lasts.refl _, .refl Lasts.refl _⟩

theorem trans (h : Lasting s s') (h' : Lasting s' s'') : Lasting s s'' :=
  ⟨h.projects.trans Lasts.trans h'.projects, h.questions.trans Lasts.trans h'.questions⟩

theorem projectDeleted (h : Lasting s s') (hdeleted : ProjectDeleted s projectId) :
    ProjectDeleted s' projectId := by
  obtain ⟨p, hp, rfl, hp'⟩ := hdeleted
  obtain ⟨p', hmem, hid, hlasts⟩ := h.projects p hp
  exact ⟨p', hmem, hid, hlasts hp'⟩

theorem questionDeleted (h : Lasting s s') (hdeleted : QuestionDeleted s questionId) :
    QuestionDeleted s' questionId := by
  obtain ⟨q, hq, rfl, hq'⟩ := hdeleted
  obtain ⟨q', hmem, hid, hlasts⟩ := h.questions q hq
  exact ⟨q', hmem, hid, hlasts hq'⟩

/-! ### Writes -/

/-- A column that is assigned to keeps a value, unless it is assigned null in place of one. -/
theorem flush_ne_none {α : Type} [DecidableEq α] {stored loaded assigned : Option α}
    (h : assigned = loaded ∨ assigned ≠ none) (hstored : stored ≠ none) :
    flush stored loaded assigned ≠ none := by
  unfold flush
  split_ifs with hsame
  · exact hstored
  · exact h.resolve_left hsame

theorem writeProject {loaded assigned : Project}
    (h : assigned.deletedAt = loaded.deletedAt ∨ assigned.deletedAt ≠ none) :
    Lasting s (s.writeProject loaded assigned) where
  projects := .update Lasts.refl (writeProject_id loaded assigned) fun _ =>
    ⟨rfl, flush_ne_none h⟩
  questions := .refl Lasts.refl _

theorem writeQuestion {loaded assigned : Question}
    (h : assigned.deletedAt = loaded.deletedAt ∨ assigned.deletedAt ≠ none) :
    Lasting s (s.writeQuestion loaded assigned) where
  projects := .refl Lasts.refl _
  questions := .update Lasts.refl (writeQuestion_id loaded assigned) fun _ =>
    ⟨rfl, flush_ne_none h⟩

theorem addQuestions {created : List Question} (h : addQuestions s created = .ok s') :
    Lasting s s' := by
  obtain ⟨hprojects, hinsert⟩ := Tables.insertQuestions?_eq_some (addQuestions_eq_ok h)
  exact ⟨hprojects ▸ .refl Lasts.refl _, .insert? Lasts.refl hinsert⟩

theorem addProject {project : Project} (h : addProject s project = .ok s') : Lasting s s' := by
  obtain ⟨hquestions, hinsert⟩ := Tables.insertProject?_eq_some (addProject_eq_ok h)
  exact ⟨.insert? Lasts.refl hinsert, hquestions ▸ .refl Lasts.refl _⟩

theorem saveProject {loaded assigned : Project} (hsave : saveProject s loaded assigned = .ok s')
    (h : assigned.deletedAt = loaded.deletedAt ∨ assigned.deletedAt ≠ none) : Lasting s s' := by
  rw [saveProject_eq_ok hsave]
  exact .writeProject h

theorem saveQuestion {loaded assigned : Question}
    (hsave : saveQuestion s loaded assigned = .ok s')
    (h : assigned.deletedAt = loaded.deletedAt ∨ assigned.deletedAt ≠ none) : Lasting s s' := by
  rw [saveQuestion_eq_ok hsave]
  exact .writeQuestion h

/-! ### Requests -/

theorem createProject {create : ProjectCreate} {draw : Draw} {created : Project × List Question}
    (h : createProject s create draw userId = .ok (created, s')) : Lasting s s' := by
  obtain ⟨-, -, withProject, hproject, hquestions⟩ := createProject_eq_ok h
  exact (addProject hproject).trans (addQuestions hquestions)

theorem getProject {touched : Datetime} {found : Option Project}
    (h : getProject s projectId userId touched = .ok (found, s')) : Lasting s s' := by
  cases found with
  | some project =>
    obtain ⟨loaded, -, -, -, rfl, hsave⟩ := getProject_eq_ok h
    exact saveProject hsave (.inl rfl)
  | none =>
    unfold Projects.getProject at h
    split at h
    · cases h
      exact .refl s
    · obtain ⟨_, -, h⟩ := bind_eq_ok.mp h
      cases h

theorem updateProject {project updated : Project} {update : ProjectUpdate} {now : Datetime}
    (h : updateProject s project update now = .ok (updated, s')) : Lasting s s' := by
  obtain ⟨hassign, hsave⟩ := updateProject_eq_ok h
  exact saveProject hsave (.inl (Project.assign_eq_ok hassign))

theorem deleteProject {project deleted : Project} {now : Datetime}
    (h : deleteProject s project now = .ok (deleted, s')) : Lasting s s' := by
  obtain ⟨rfl, hsave⟩ := deleteProject_eq_ok h
  exact saveProject hsave (.inr (Option.some_ne_none now))

theorem createQuestionsBulk {bulk : List (QuestionCreate × Draw)} {created : List Question}
    (h : createQuestionsBulk s bulk projectId userId = .ok (created, s')) : Lasting s s' :=
  addQuestions (createQuestionsBulk_eq_ok h).2.2

theorem createQuestion {create : QuestionCreate} {draw : Draw} {created : Question}
    (h : createQuestion s create draw projectId userId = .ok (created, s')) : Lasting s s' :=
  createQuestionsBulk (createQuestion_eq_ok h)

theorem updateQuestion {question updated : Question} {update : QuestionUpdate} {now : Datetime}
    (h : updateQuestion s question update now = .ok (updated, s')) : Lasting s s' := by
  obtain ⟨hassign, hsave⟩ := updateQuestion_eq_ok h
  exact saveQuestion hsave (.inl (Question.assign_eq_ok hassign))

theorem toggleQuestionComplete {question toggled : Question} {now : Datetime}
    (h : toggleQuestionComplete s question now = .ok (toggled, s')) : Lasting s s' := by
  obtain ⟨rfl, hsave⟩ := toggleQuestionComplete_eq_ok h
  exact saveQuestion hsave (.inl rfl)

theorem deleteQuestion {question deleted : Question} {now : Datetime}
    (h : deleteQuestion s question now = .ok (deleted, s')) : Lasting s s' := by
  obtain ⟨-, rfl, hsave⟩ := deleteQuestion_eq_ok h
  exact saveQuestion hsave (.inr (Option.some_ne_none now))

end Lasting

/-! ## Runs -/

/-- What all requests guarantee. -/
def WorkspaceLasting (w w' : Workspace) : Prop := Lasting w.tables w'.tables

theorem WorkspaceLasting.refl (w : Workspace) : WorkspaceLasting w w := Lasting.refl w.tables

open Handler (Guarantees)

theorem guarantees_write {β : Type} {f : Tables → Except RequestError (β × Tables)}
    (h : ∀ s b s', f s = .ok (b, s') → Lasting s s') :
    (write f).Guarantees WorkspaceLasting := by
  refine Guarantees.commit WorkspaceLasting.refl fun w b w' hwrite => ?_
  cases hf : f w.tables with
  | error error =>
    rw [hf] at hwrite
    cases hwrite
  | ok written =>
    rw [hf] at hwrite
    cases hwrite
    exact h _ _ _ hf

/-- A write, and the answer to it. -/
theorem guarantees_reply {β : Type} {f : Tables → Except RequestError (β × Tables)}
    (answer : β → Answer) (h : ∀ s b s', f s = .ok (b, s') → Lasting s s') :
    (do let result ← write f; return reply answer result).Guarantees WorkspaceLasting :=
  (guarantees_write h).bind fun _ => Guarantees.answer _

theorem guarantees_withProject {touched : Datetime} {go : Project → Handler Workspace Answer}
    (hgo : ∀ project, (go project).Guarantees WorkspaceLasting) :
    (Router.withProject projectId userId touched go).Guarantees WorkspaceLasting := by
  refine (guarantees_write fun _ _ _ => Lasting.getProject).bind fun found => ?_
  rcases found with error | _ | project
  · exact Guarantees.answer _
  · exact Guarantees.answer _
  · exact hgo project

theorem guarantees_query {β : Type} {read : Workspace → β} {go : β → Handler Workspace Answer}
    (hgo : ∀ found, (go found).Guarantees WorkspaceLasting) :
    (Handler.query read >>= go).Guarantees WorkspaceLasting :=
  (Guarantees.query WorkspaceLasting.refl read).bind hgo

theorem guarantees_withQuestion {go : Question → Handler Workspace Answer}
    (hgo : ∀ question, (go question).Guarantees WorkspaceLasting) :
    (Router.withQuestion questionId projectId userId go).Guarantees WorkspaceLasting := by
  refine guarantees_query fun found => ?_
  cases found with
  | none => exact Guarantees.answer _
  | some question => exact hgo question

theorem guarantees_sendChat (send : Send) :
    (Router.sendChat send).Guarantees WorkspaceLasting :=
  -- The stream leaves its messages and transactions, and no table is touched.
  guarantees_query fun _ => guarantees_query fun _ w => ⟨Lasting.refl w.tables, trivial⟩

theorem guarantees_getExperiencesByQuestion (matching : Matching) :
    (Router.getExperiencesByQuestion matching).Guarantees WorkspaceLasting := by
  refine guarantees_query fun question => ?_
  cases question with
  | none => exact Guarantees.answer _
  | some question =>
    refine guarantees_query fun project => ?_
    cases project with
    | none => exact Guarantees.answer _
    | some project =>
      dsimp only
      split
      · exact Guarantees.answer _
      · exact Guarantees.answer _

theorem guarantees_getChatMessages (page : HistoryPage) :
    (Router.getChatMessages page).Guarantees WorkspaceLasting := by
  refine guarantees_query fun response => ?_
  rcases response with ⟨⟩ | _ | response
  · exact Guarantees.answer _
  · exact Guarantees.answer _
  · exact Guarantees.answer _

/-- No request takes rows out, or takes a deletion back. -/
theorem guarantees_handle (request : Request) :
    (handle request).Guarantees WorkspaceLasting := by
  cases request with
  | createProject => exact guarantees_reply _ fun _ _ _ => Lasting.createProject
  | readProjects => exact guarantees_query fun _ => Guarantees.answer _
  | readProject => exact guarantees_withProject fun _ => Guarantees.answer _
  | updateProject =>
    exact guarantees_withProject fun _ => guarantees_reply _ fun _ _ _ => Lasting.updateProject
  | deleteProject =>
    exact guarantees_withProject fun _ => guarantees_reply _ fun _ _ _ => Lasting.deleteProject
  | createQuestion => exact guarantees_reply _ fun _ _ _ => Lasting.createQuestion
  | createQuestionsBulk => exact guarantees_reply _ fun _ _ _ => Lasting.createQuestionsBulk
  | readQuestions => exact guarantees_query fun _ => Guarantees.answer _
  | readQuestion => exact guarantees_withQuestion fun _ => Guarantees.answer _
  | updateQuestion =>
    exact guarantees_withQuestion fun _ => guarantees_reply _ fun _ _ _ => Lasting.updateQuestion
  | toggleQuestionComplete =>
    exact guarantees_withQuestion fun _ =>
      guarantees_reply _ fun _ _ _ => Lasting.toggleQuestionComplete
  | deleteQuestion =>
    exact guarantees_withQuestion fun _ => guarantees_reply _ fun _ _ _ => Lasting.deleteQuestion
  | sendChat send => exact guarantees_sendChat send
  | getChatMessages page => exact guarantees_getChatMessages page
  | getExperiencesByQuestion matching => exact guarantees_getExperiencesByQuestion matching

/-- In every run, what has been deleted stays deleted. -/
theorem lasting_of_meanwhile {w w' : Workspace} (h : requests.Meanwhile w w') :
    Lasting w.tables w'.tables := by
  refine Program.Meanwhile.guaranteed (R := WorkspaceLasting) WorkspaceLasting.refl
    (fun _ _ _ => Lasting.trans) (fun w w' hsame => ?_) ?_ h
  · rw [WorkspaceLasting, hsame]
    exact .refl w.tables
  · rintro _ ⟨request, rfl⟩
    exact guarantees_handle request

end Logit.Projects
