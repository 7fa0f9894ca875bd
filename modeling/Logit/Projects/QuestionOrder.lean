import Logit.Projects.QuestionSessions
import Logit.Projects.Service

/-!
# The numbers of a project's questions

A new question is given the number after the greatest one; several new questions are given
the numbers from there on. Deleted questions do not count, so their numbers may be given
again. The greatest number is read by a statement before the commit, and nothing keeps
another request from committing questions under the same numbers in between. The active
questions of a project have different numbers as long as nobody has moved the next number
past the one a request has read when it commits new questions.

## Main definitions

* `StrictlyOrdered` — the active questions of a project have different numbers
* `Determined` — what reads the questions by their numbers has one answer
* `UpToDate` — the condition on a commit
* `NumbersFree` — what it is about

## Main results

* `determined_of_strictlyOrdered` — different numbers determine what is read
* `numbersFree_of_getNextOrder` — the numbers from the next one on are free
* `strictlyOrdered_iff_of_inserted` — a commit keeps the numbers apart just if they are free
* `strictlyOrdered_of_reachable` — while every commit is up to date, the questions of a new
  project are strictly ordered
-/

namespace Logit.Projects

open Calendar Concurrency Python Store Users

/-- The active questions of a project have different numbers. -/
def StrictlyOrdered (s : Tables) (projectId : UUID) : Prop :=
  ∀ q ∈ activeOf s projectId, ∀ q' ∈ activeOf s projectId, q.order = q'.order → q = q'

/-- A list of a project's questions can be read in one way only, and one first question can be
chosen. -/
structure Determined (s : Tables) (projectId : UUID) : Prop where
  questions : ∀ userId, ∃! rows, ReadsQuestions s projectId userId rows
  first : ∃! choice, FirstQuestion s projectId choice

/-- When a session commits new questions of the project, the next number is not past the one the
session has read. -/
def UpToDate (projectId : UUID) (p : Pool Tables QuestionTask) (t : QuestionTask) (s' : Tables) :
    Prop :=
  ∀ bulk userId nextOrder, t = .inserting bulk projectId userId nextOrder → s' ≠ p.shared →
    getNextOrder p.shared projectId userId ≤ nextOrder

/-- No active question of the project has one of so many numbers from the next one on. -/
def NumbersFree (projectId : UUID) (s : Tables) (nextOrder : ℤ) (count : ℕ) : Prop :=
  ∀ q ∈ activeOf s projectId, ¬ (nextOrder ≤ q.order ∧ q.order < nextOrder + count)

/-- A project is a user's, and so are its questions. -/
structure OwnedBy (s : Tables) (projectId userId : UUID) : Prop where
  project : Belongs s projectId userId
  questions : ∀ q ∈ s.questions.rows, q.projectId = projectId → q.userId = userId

variable {s s' start : Tables} {projectId userId : UUID} {t t' : QuestionTask}
  {loaded assigned q : Question} {bulk : List (QuestionCreate × Draw)} {nextOrder : ℤ}

/-! ## Reading by numbers -/

/-- The first question that is chosen is the only one with its number. -/
theorem firstQuestion_unique (h : StrictlyOrdered s projectId) {choice choice' : Option UUID}
    (hchoice : FirstQuestion s projectId choice) (hchoice' : FirstQuestion s projectId choice') :
    choice = choice' := by
  cases choice with
  | none =>
    cases choice' with
    | none => rfl
    | some questionId =>
      obtain ⟨q, hq, hproject, hactive, -⟩ := hchoice'
      exact absurd hactive (hchoice q hq hproject)
  | some questionId =>
    obtain ⟨q, hq, hproject, hactive, rfl, hleast⟩ := hchoice
    cases choice' with
    | none => exact absurd hactive (hchoice' q hq hproject)
    | some questionId' =>
      obtain ⟨q', hq', hproject', hactive', rfl, hleast'⟩ := hchoice'
      have hsame : q.order = q'.order :=
        le_antisymm (hleast q' hq' hproject' hactive') (hleast' q hq hproject hactive)
      rw [h q (mem_activeOf.mpr ⟨hq, hproject, hactive⟩) q'
        (mem_activeOf.mpr ⟨hq', hproject', hactive'⟩) hsame]

theorem exists_firstQuestion (h : StrictlyOrdered s projectId) :
    ∃ choice, FirstQuestion s projectId choice := by
  obtain ⟨sorted, ⟨hperm, hsorted⟩, -⟩ := existsUnique_sorted h
  cases sorted with
  | nil =>
    refine ⟨none, fun q hq hproject hactive => ?_⟩
    have hmem := hperm.mem_iff.mpr (mem_activeOf.mpr ⟨hq, hproject, hactive⟩)
    cases hmem
  | cons first rest =>
    have hfirst := mem_activeOf.mp (hperm.mem_iff.mp List.mem_cons_self)
    refine ⟨some first.id, first, hfirst.1, hfirst.2.1, hfirst.2.2, rfl, ?_⟩
    intro other hother hproject hactive
    have hmem := hperm.mem_iff.mpr (mem_activeOf.mpr ⟨hother, hproject, hactive⟩)
    rcases List.mem_cons.mp hmem with rfl | hrest
    · exact le_rfl
    · exact (List.pairwise_cons.mp hsorted).1 other hrest

/-- Different numbers determine what reads the questions by them. -/
theorem determined_of_strictlyOrdered (h : StrictlyOrdered s projectId) :
    Determined s projectId := by
  refine ⟨fun userId => ?_, ?_⟩
  · apply existsUnique_sorted
    intro q hq q' hq' hsame
    rw [mem_activeQuestions] at hq hq'
    exact h q (mem_activeOf.mpr ⟨hq.1, hq.2.1, hq.2.2.2⟩) q'
      (mem_activeOf.mpr ⟨hq'.1, hq'.2.1, hq'.2.2.2⟩) hsame
  · obtain ⟨choice, hchoice⟩ := exists_firstQuestion h
    exact ⟨choice, hchoice, fun other hother => firstQuestion_unique h hother hchoice⟩

/-! ## Commits -/

/-- The numbers from the next one on are free, if the questions of the project are its user's. -/
theorem numbersFree_of_getNextOrder (hown : OwnedBy s projectId userId)
    (hnext : getNextOrder s projectId userId ≤ nextOrder) (count : ℕ) :
    NumbersFree projectId s nextOrder count := by
  intro q hq
  obtain ⟨hmem, hproject, hactive⟩ := mem_activeOf.mp hq
  have hlt := order_lt_getNextOrder
    (mem_activeQuestions.mpr ⟨hmem, hproject, hown.questions q hmem hproject, hactive⟩)
  omega

/-- New questions with different numbers are known by them. -/
theorem eq_of_order {created : List Question}
    (hpairwise : created.Pairwise fun a b => a.order < b.order) {a b : Question}
    (ha : a ∈ created) (hb : b ∈ created) (h : a.order = b.order) : a = b := by
  have hnodup : (created.map (·.order)).Nodup :=
    List.pairwise_map.mpr (hpairwise.imp fun hlt => hlt.ne)
  exact List.inj_on_of_nodup_map hnodup ha hb h

theorem mem_activeOf_inserted
    (hrows : s'.questions.rows = s.questions.rows ++ newQuestions projectId userId nextOrder bulk) :
    q ∈ activeOf s' projectId ↔
      q ∈ activeOf s projectId ∨ q ∈ newQuestions projectId userId nextOrder bulk := by
  rw [mem_activeOf, mem_activeOf, hrows, List.mem_append]
  constructor
  · rintro ⟨hq | hq, hread⟩
    · exact .inl ⟨hq, hread⟩
    · exact .inr hq
  · rintro (⟨hq, hread⟩ | hq)
    · exact ⟨.inl hq, hread⟩
    · exact ⟨.inr hq, (mem_newQuestions hq).1, (mem_newQuestions hq).2.2.1⟩

/-- A commit of new questions keeps the numbers apart if and only if they are free. -/
theorem strictlyOrdered_iff_of_inserted (h : StrictlyOrdered s projectId)
    (hinsert : s.questions.insert? (newQuestions projectId userId nextOrder bulk) =
      some s'.questions) :
    StrictlyOrdered s' projectId ↔ NumbersFree projectId s nextOrder bulk.length := by
  have hmem {q : Question} : q ∈ activeOf s' projectId ↔
      q ∈ activeOf s projectId ∨ q ∈ newQuestions projectId userId nextOrder bulk :=
    mem_activeOf_inserted (Table.insert?_eq_some hinsert)
  constructor
  · intro hordered q hq hnumber
    obtain ⟨c, hc, hsame⟩ := exists_order_newQuestions_iff.mpr hnumber
    have heq := hordered q (hmem.mpr (.inl hq)) c (hmem.mpr (.inr hc)) hsame.symm
    exact Table.key_ne_of_insert? hinsert (mem_activeOf.mp hq).1 hc (congrArg Question.id heq)
  · intro hfree q hq q' hq' hsame
    rcases hmem.mp hq with hq | hq
    · rcases hmem.mp hq' with hq' | hq'
      · exact h q hq q' hq' hsame
      · exact absurd (exists_order_newQuestions_iff.mp ⟨q', hq', hsame.symm⟩) (hfree q hq)
    · rcases hmem.mp hq' with hq' | hq'
      · exact absurd (exists_order_newQuestions_iff.mp ⟨q, hq, hsame⟩) (hfree q' hq')
      · exact eq_of_order (pairwise_newQuestions ..) hq hq' hsame

/-- New questions of another project are none of this one. -/
theorem StrictlyOrdered.inserted_other (h : StrictlyOrdered s projectId) {other : UUID}
    (hrows : s'.questions.rows = s.questions.rows ++ newQuestions other userId nextOrder bulk)
    (hother : other ≠ projectId) : StrictlyOrdered s' projectId := by
  have hold : ∀ q ∈ activeOf s' projectId, q ∈ activeOf s projectId := by
    intro q hq
    obtain ⟨hmem, hproject, hactive⟩ := mem_activeOf.mp hq
    rw [hrows] at hmem
    rcases List.mem_append.mp hmem with hmem | hnew
    · exact mem_activeOf.mpr ⟨hmem, hproject, hactive⟩
    · exact absurd ((mem_newQuestions hnew).1.symm.trans hproject) hother
  exact fun q hq q' hq' => h q (hold q hq) q' (hold q' hq')

/-- A question that has been assigned to is active only if it was. -/
theorem active_of_writeQuestion {stored : Question} (hloaded : loaded.deletedAt = none)
    (h : (writeQuestion loaded assigned stored).deletedAt = none) : stored.deletedAt = none := by
  have hflush : flush stored.deletedAt loaded.deletedAt assigned.deletedAt = none := h
  unfold flush at hflush
  split_ifs at hflush with hsame
  · exact hflush
  · exact absurd (hflush.trans hloaded.symm) hsame

/-- An active question after a commit was active before, with its id and number. -/
theorem exists_of_mem_activeOf_writeQuestion (hloaded : loaded.deletedAt = none)
    (hq : q ∈ activeOf (s.writeQuestion loaded assigned) projectId) :
    ∃ old ∈ activeOf s projectId, old.id = q.id ∧ old.order = q.order := by
  obtain ⟨hmem, hproject, hactive⟩ := mem_activeOf.mp hq
  rcases mem_writeQuestion.mp hmem with ⟨old, hold, -, rfl⟩ | ⟨hmem, -⟩
  · exact ⟨old, mem_activeOf.mpr ⟨hold, hproject, active_of_writeQuestion hloaded hactive⟩, rfl,
      rfl⟩
  · exact ⟨q, mem_activeOf.mpr ⟨hmem, hproject, hactive⟩, rfl, rfl⟩

/-- A commit of a question that has been assigned to keeps the numbers apart. -/
theorem StrictlyOrdered.writeQuestion (h : StrictlyOrdered s projectId)
    (hloaded : loaded.deletedAt = none) :
    StrictlyOrdered (s.writeQuestion loaded assigned) projectId := by
  intro q hq q' hq' hsame
  obtain ⟨old, hold, hid, horder⟩ := exists_of_mem_activeOf_writeQuestion hloaded hq
  obtain ⟨old', hold', hid', horder'⟩ := exists_of_mem_activeOf_writeQuestion hloaded hq'
  have heq := h old hold old' hold' (horder.trans (hsame.trans horder'.symm))
  exact Table.eq_of_key (mem_activeOf.mp hq).1 (mem_activeOf.mp hq').1
    (hid.symm.trans ((congrArg Question.id heq).trans hid'))

/-! ## Runs -/

section Creation

variable {tables : Tables} {create : ProjectCreate} {draw : Draw} {project : Project}
  {questions : List Question}

/-- The questions of a new project are those it is created with. -/
theorem mem_of_createProject
    (h : createProject tables create draw userId = .ok ((project, questions), start))
    (hq : q ∈ start.questions.rows) (hproject : q.projectId = project.id) : q ∈ questions := by
  obtain ⟨-, -, hnew, -, hrows⟩ := createProject_ok h
  rw [hrows] at hq
  rcases List.mem_append.mp hq with hold | hmem
  · obtain ⟨p, hp⟩ := Option.isSome_iff_exists.mp (tables.refers q hold)
    obtain ⟨hpMem, hpId⟩ := Table.of_find?_eq_some hp
    exact absurd (hpId.trans hproject) (hnew p hpMem)
  · exact hmem

/-- The questions a project is created with are strictly ordered. -/
theorem strictlyOrdered_createProject
    (h : createProject tables create draw userId = .ok ((project, questions), start)) :
    StrictlyOrdered start project.id := by
  obtain ⟨-, rfl, -⟩ := createProject_ok h
  intro q hq q' hq' hsame
  obtain ⟨hmem, hproject, -⟩ := mem_activeOf.mp hq
  obtain ⟨hmem', hproject', -⟩ := mem_activeOf.mp hq'
  exact eq_of_order (pairwise_newQuestions ..) (mem_of_createProject h hmem hproject)
    (mem_of_createProject h hmem' hproject') hsame

theorem ownedBy_createProject
    (h : createProject tables create draw userId = .ok ((project, questions), start)) :
    OwnedBy start project.id userId := by
  obtain ⟨huser, rfl, -, hprojects, -⟩ := createProject_ok h
  refine ⟨⟨project, ?_, rfl, huser⟩, fun q hq hproject => ?_⟩
  · rw [hprojects]
    exact List.mem_append_right _ (List.mem_singleton_self project)
  · exact (mem_newQuestions (mem_of_createProject h hq hproject)).2.1

end Creation

/-- What is left of a project's rows when sessions commit: it is still its user's. -/
theorem OwnedBy.effect (h : OwnedBy s projectId userId) (hsound : t.Sound s)
    (heffect : QuestionAct.Effect s t s') : OwnedBy s' projectId userId := by
  refine ⟨(Extends.of_effect heffect).belongs h.project, fun q hq hproject => ?_⟩
  cases heffect with
  | nothing hsame => exact h.questions q (hsame ▸ hq) hproject
  | inserted bulk projectId' userId' nextOrder htask hprojects hinsert =>
    subst htask
    rw [Table.insert?_eq_some hinsert] at hq
    rcases List.mem_append.mp hq with hold | hnew
    · exact h.questions q hold hproject
    · -- The session has found the project to be its user's.
      obtain ⟨row, hrow, hid, huser⟩ := hsound
      obtain ⟨row', hrow', hid', huser'⟩ := h.project
      have hsame := (mem_newQuestions hnew).1.symm.trans hproject
      obtain rfl := Table.eq_of_key hrow hrow' (hid.trans (hsame.trans hid'.symm))
      exact (mem_newQuestions hnew).2.1.trans (huser.symm.trans huser')
  | wrote loaded assigned htask htables =>
    subst htables
    rcases mem_writeQuestion.mp hq with ⟨old, hold, -, rfl⟩ | ⟨hold, -⟩
    · exact h.questions old hold hproject
    · exact h.questions q hold hproject

theorem OwnedBy.step {p p' : Pool Tables QuestionTask} (h : OwnedBy p.shared projectId userId)
    (hsound : ∀ t ∈ p.tasks, t.Sound p.shared) (hstep : Pool.Step questionRequests p p') :
    OwnedBy p'.shared projectId userId := by
  cases hstep with
  | env ts hchange =>
    exact ⟨(Extends.of_projectsChange hchange).belongs h.project,
      fun q hq => h.questions q (hchange.1 ▸ hq)⟩
  | start => exact h
  | act before after hact =>
    exact h.effect (hsound _ (List.mem_append_right before List.mem_cons_self)) hact.effect

/-- A step whose commit is up to date keeps the questions strictly ordered. -/
theorem StrictlyOrdered.step {p p' : Pool Tables QuestionTask}
    (h : StrictlyOrdered p.shared projectId) (howned : OwnedBy p.shared projectId userId)
    (hsound : ∀ t ∈ p.tasks, t.Sound p.shared)
    (hstep : Pool.StepWhere questionRequests (UpToDate projectId) p p') :
    StrictlyOrdered p'.shared projectId := by
  cases hstep with
  | env ts hchange =>
    unfold StrictlyOrdered activeOf at h ⊢
    rw [hchange.1]
    exact h
  | start => exact h
  | @act s s' t t' before after hact hcurrent =>
    have htask := hsound t (List.mem_append_right before List.mem_cons_self)
    cases QuestionAct.effect hact with
    | nothing hsame => exact hsame ▸ h
    | inserted bulk projectId' userId' nextOrder htask' hprojects hinsert =>
      subst htask'
      by_cases hown : projectId' = projectId
      · subst hown
        obtain ⟨row, hrow, hid, rfl⟩ := htask
        obtain ⟨row', hrow', hid', rfl⟩ := howned.project
        obtain rfl := Table.eq_of_key hrow hrow' (hid.trans hid'.symm)
        by_cases hsame : s' = s
        · exact hsame ▸ h
        · have hnext := hcurrent bulk row.userId nextOrder rfl hsame
          exact (strictlyOrdered_iff_of_inserted h hinsert).mpr
            (numbersFree_of_getNextOrder howned hnext bulk.length)
      · exact h.inserted_other (Table.insert?_eq_some hinsert) hown
    | wrote loaded assigned htask htables =>
      subst htask htables
      exact h.writeQuestion htask.2

/-- From the creation of a project on, in a run whose commits are up to date, the questions of the
project are strictly ordered in every state, and what reads them by their numbers is determined;
and a session that could commit new questions now would keep them so if and only if its numbers
are free, be it up to date or not. -/
theorem strictlyOrdered_of_reachable {tables : Tables} {create : ProjectCreate} {draw : Draw}
    {project : Project} {questions : List Question} {p : Pool Tables QuestionTask}
    (hcreate : createProject tables create draw userId = .ok ((project, questions), start))
    (h : Relation.ReflTransGen (Pool.StepWhere questionRequests (UpToDate project.id))
      ⟨start, []⟩ p) :
    StrictlyOrdered p.shared project.id ∧ Determined p.shared project.id ∧
      ∀ bulk userId nextOrder s',
        addQuestions p.shared (newQuestions project.id userId nextOrder bulk) = .ok s' →
          (StrictlyOrdered s' project.id ↔
            NumbersFree project.id p.shared nextOrder bulk.length) := by
  have hordered : StrictlyOrdered p.shared project.id ∧ OwnedBy p.shared project.id userId := by
    -- By induction on the run, from the tables the project has been created in.
    induction h with
    | refl => exact ⟨strictlyOrdered_createProject hcreate, ownedBy_createProject hcreate⟩
    | tail hrun hstep ih =>
      have hsound := sound_of_reachable (Pool.Reachable.of_stepWhere hrun)
      exact ⟨ih.1.step ih.2 hsound hstep, ih.2.step hsound hstep.step⟩
  refine ⟨hordered.1, determined_of_strictlyOrdered hordered.1, ?_⟩
  intro bulk userId nextOrder s' hadd
  exact strictlyOrdered_iff_of_inserted hordered.1
    (Tables.insertQuestions?_eq_some (addQuestions_eq_ok hadd)).2

/-! ### Questions added to a new project -/

/-- Tables without projects. -/
def noProjects : Tables := ⟨.empty _, .empty _, by decide⟩

/-- What a new row draws, with some id. -/
def draw (id : UUID) : Draw := ⟨id, .utc 2026 1 10 9, .utc 2026 1 10 9⟩

/-- A question to be created. -/
def motive : QuestionCreate := ⟨"지원 동기를 작성해 주세요.", some 800⟩

/-- A project to be created with one question. -/
def posting : ProjectCreate where
  company := "카카오"
  jobPosition := "백엔드 개발자"
  recruitNotice := "2026년 상반기 신입 개발자 공개채용"
  companyTalent := none
  dueDate := none
  questions := [(motive, draw 1)]

/-- A request for one more question of the project. -/
def addition (id : UUID) : QuestionTask := .creating [(motive, draw id)] 10 7

/-- A request for one more question that has read the next number. -/
def numbered (id : UUID) (nextOrder : ℤ) : QuestionTask :=
  .inserting [(motive, draw id)] 10 7 nextOrder

/-- The tables after the project has been created. -/
def posted : Tables where
  projects := ⟨[newProject 7 posting (draw 10)], by decide⟩
  questions := ⟨newQuestions 10 7 1 posting.questions, by decide⟩
  refers := by decide

theorem createProject_posting : createProject noProjects posting (draw 10) 7 =
    .ok ((newProject 7 posting (draw 10), newQuestions 10 7 1 posting.questions), posted) := rfl

/-- A request finds the project. -/
theorem act_findProject (id : UUID) :
    QuestionAct posted (addition id) posted (.allowed [(motive, draw id)] 10 7) :=
  .findProject (by decide)

theorem act_readOrder {s : Tables} (id : UUID) {nextOrder : ℤ}
    (hnext : getNextOrder s 10 7 = nextOrder) :
    QuestionAct s (.allowed [(motive, draw id)] 10 7) s (numbered id nextOrder) := by
  have hread : QuestionAct s (.allowed [(motive, draw id)] 10 7) s _ := .readOrder
  rwa [hnext] at hread

/-- A request commits its question under the number it has read. -/
theorem act_insert {s s' : Tables} {id : UUID} {nextOrder : ℤ}
    (hadd : addQuestions s (newQuestions 10 7 nextOrder [(motive, draw id)]) = .ok s') :
    QuestionAct s (numbered id nextOrder) s' .ended :=
  .insert hadd

/-- Two requests for a question have found the project before one of them adds its question; the
other reads the next number after that. -/
theorem strictlyOrdered_of_reachable_one : ∃ p : Pool Tables QuestionTask,
    Relation.ReflTransGen (Pool.StepWhere questionRequests (UpToDate 10)) ⟨posted, []⟩ p ∧
      (activeOf p.shared 10).map (·.order) = [1, 2, 3] ∧ StrictlyOrdered p.shared 10 := by
  let Steps := Pool.StepWhere questionRequests (UpToDate 10)
  obtain ⟨one, hone⟩ : ∃ one,
      addQuestions posted (newQuestions 10 7 2 [(motive, draw 2)]) = .ok one := ⟨_, rfl⟩
  obtain ⟨two, htwo⟩ : ∃ two,
      addQuestions one (newQuestions 10 7 3 [(motive, draw 3)]) = .ok two := by
    cases hone
    exact ⟨_, rfl⟩
  have hnext : getNextOrder one 10 7 = 3 := by
    cases hone
    decide
  let second : QuestionTask := .allowed [(motive, draw 3)] 10 7
  have hstart : Steps ⟨posted, []⟩ ⟨posted, [addition 3]⟩ := .start posted [] trivial
  have hfind : Steps ⟨posted, [addition 3]⟩ ⟨posted, [second]⟩ :=
    .act [] [] (act_findProject 3) nofun
  have hagain : Steps ⟨posted, [second]⟩ ⟨posted, [addition 2, second]⟩ :=
    .start posted [second] trivial
  have hfindAgain : Steps ⟨posted, [addition 2, second]⟩
      ⟨posted, [.allowed [(motive, draw 2)] 10 7, second]⟩ :=
    .act [] [second] (act_findProject 2) nofun
  have hread : Steps ⟨posted, [.allowed [(motive, draw 2)] 10 7, second]⟩
      ⟨posted, [numbered 2 2, second]⟩ := .act [] [second] (act_readOrder 2 (by decide)) nofun
  have hinsert : Steps ⟨posted, [numbered 2 2, second]⟩ ⟨one, [.ended, second]⟩ := by
    refine .act [] [second] (act_insert hone) ?_
    rintro bulk userId nextOrder ⟨⟩ -
    decide
  have hreadAgain : Steps ⟨one, [.ended, second]⟩ ⟨one, [.ended, numbered 3 3]⟩ :=
    .act [QuestionTask.ended] [] (act_readOrder 3 hnext) nofun
  have hinsertAgain : Steps ⟨one, [.ended, numbered 3 3]⟩ ⟨two, [.ended, .ended]⟩ := by
    refine .act [QuestionTask.ended] [] (act_insert htwo) ?_
    rintro bulk userId nextOrder ⟨⟩ -
    exact hnext.le
  have hrun := (((((((Relation.ReflTransGen.single hstart).tail hfind).tail hagain).tail
    hfindAgain).tail hread).tail hinsert).tail hreadAgain).tail hinsertAgain
  refine ⟨_, hrun, ?_, (strictlyOrdered_of_reachable createProject_posting hrun).1⟩
  cases hone
  cases htwo
  decide

/-- Two questions are added at the same time, and both are given the number two. -/
theorem not_strictlyOrdered_of_reachable :
    ¬ ∀ (tables start : Tables) (create : ProjectCreate) (draw : Draw) (userId : UUID)
      (project : Project) (questions : List Question) (p : Pool Tables QuestionTask),
      createProject tables create draw userId = .ok ((project, questions), start) →
        Pool.Reachable questionRequests start p →
          StrictlyOrdered p.shared project.id ∧ Determined p.shared project.id := by
  intro hclaim
  have hruns (id : UUID) : questionRequests.Runs (posted, addition id) (posted, numbered id 2) :=
    .step (act_findProject id) (.last (act_readOrder id (by decide)))
  -- Both have read the next number before either commits.
  have hboth : Pool.Reachable questionRequests posted ⟨posted, [numbered 3 2, numbered 2 2]⟩ :=
    (hruns 3).reachable trivial ((hruns 2).reachable trivial .refl)
  obtain ⟨one, hone⟩ : ∃ one,
      addQuestions posted (newQuestions 10 7 2 [(motive, draw 2)]) = .ok one := ⟨_, rfl⟩
  obtain ⟨two, htwo⟩ : ∃ two,
      addQuestions one (newQuestions 10 7 2 [(motive, draw 3)]) = .ok two := by
    cases hone
    exact ⟨_, rfl⟩
  have hfirst : Pool.Reachable questionRequests posted ⟨one, [numbered 3 2, .ended]⟩ :=
    hboth.tail (.act [numbered 3 2] [] (act_insert hone))
  have hsecond : Pool.Reachable questionRequests posted ⟨two, [.ended, .ended]⟩ :=
    hfirst.tail (.act [] [QuestionTask.ended] (act_insert htwo))
  have hordered := (hclaim noProjects posted posting (draw 10) 7 _ _ _ createProject_posting
    hsecond).1
  cases hone
  cases htwo
  unfold StrictlyOrdered at hordered
  revert hordered
  decide

end Logit.Projects
