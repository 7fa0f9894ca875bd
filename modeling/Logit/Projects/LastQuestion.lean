import Logit.Projects.QuestionSessions
import Logit.Projects.Service

/-!
# The last question of a project

A deletion counts the active questions of the project, and refuses to delete the last one.
It commits with a later statement, and nothing keeps another deletion from committing in
between: two deletions that have each counted two questions delete both. A project keeps a
question as long as every deletion that commits finds that another one is still active.

## Main definitions

* `HasQuestion` — a project has a question that has not been deleted
* `LeavesQuestion` — the condition on a commit

## Main results

* `hasQuestion_act_iff` — a commit leaves the project a question just if it meets the condition
* `hasQuestion_of_reachable` — while every commit meets it, the project has a question
-/

namespace Logit.Projects

open Calendar Concurrency Python Store Users

/-- A project has a question that has not been deleted. -/
def HasQuestion (s : Tables) (projectId : UUID) : Prop :=
  ∃ q ∈ s.questions.rows, q.projectId = projectId ∧ q.deletedAt = none

/-- A commit leaves the project a question: unless it deletes one of its questions, or finds
that several are active, or that the one it deletes has been deleted in the meantime. -/
def LeavesQuestion (projectId : UUID) (s : Tables) (loaded assigned : Question) : Prop :=
  loaded.projectId = projectId → assigned.deletedAt ≠ none →
    1 < (activeOf s projectId).length ∨
      ∀ q ∈ s.questions.rows, q.id = loaded.id → q.deletedAt ≠ none

/-- A session that commits a question leaves the project one. -/
def Careful (projectId : UUID) (p : Pool Tables QuestionTask) (t : QuestionTask) (s' : Tables) :
    Prop :=
  ∀ loaded assigned, t = .writing loaded assigned → s' = p.shared.writeQuestion loaded assigned →
    LeavesQuestion projectId p.shared loaded assigned

variable {s s' start : Tables} {projectId : UUID} {t t' : QuestionTask}
  {loaded assigned q : Question}

/-! ## Commits -/

/-- A commit that does not delete leaves an active question active. -/
theorem writeQuestion_keeps {stored : Question} (hloaded : loaded.deletedAt = none)
    (hassigned : assigned.deletedAt = none) (hstored : stored.deletedAt = none) :
    (writeQuestion loaded assigned stored).deletedAt = none := by
  simp [writeQuestion, flush, hloaded, hassigned, hstored]

/-- A commit that deletes leaves its question deleted. -/
theorem writeQuestion_deletes (stored : Question) (hloaded : loaded.deletedAt = none)
    (hassigned : assigned.deletedAt ≠ none) :
    (writeQuestion loaded assigned stored).deletedAt ≠ none := by
  have hchanged : assigned.deletedAt ≠ loaded.deletedAt := hloaded ▸ hassigned
  change flush stored.deletedAt loaded.deletedAt assigned.deletedAt ≠ none
  rwa [flush_of_ne _ hchanged]

/-- A commit leaves the project a question if and only if it meets the condition. -/
theorem hasQuestion_writeQuestion_iff (hknown : Known s loaded)
    (hloaded : loaded.deletedAt = none) (h : HasQuestion s projectId) :
    HasQuestion (s.writeQuestion loaded assigned) projectId ↔
      LeavesQuestion projectId s loaded assigned := by
  constructor
  · rintro ⟨q, hq, hproject, hactive⟩ hown hdelete
    rcases mem_writeQuestion.mp hq with ⟨old, -, -, rfl⟩ | ⟨hq, hne⟩
    · exact absurd hactive (writeQuestion_deletes old hloaded hdelete)
    · obtain ⟨row, hrow, hrowId, hrowProject, -⟩ := hknown
      by_cases hrowActive : row.deletedAt = none
      · -- Its question is active besides the one that is left.
        left
        have hsub : [row, q] ⊆ activeOf s projectId := by
          simp [mem_activeOf, hrow, hrowProject, hown, hrowActive, hq, hproject, hactive]
        have hdifferent : row ≠ q := fun heq => hne (heq ▸ hrowId)
        exact (List.subperm_of_subset (by simpa using hdifferent) hsub).length_le
      · right
        intro other hother hid
        rwa [Table.eq_of_key hother hrow (hid.trans hrowId.symm)]
  · intro hleaves
    obtain ⟨q, hq, hproject, hactive⟩ := h
    by_cases hid : q.id = loaded.id
    · by_cases hassigned : assigned.deletedAt = none
      · exact ⟨_, mem_writeQuestion.mpr (.inl ⟨q, hq, hid, rfl⟩), hproject,
          writeQuestion_keeps hloaded hassigned hactive⟩
      · -- The question is deleted, so another one is active.
        obtain ⟨row, hrow, hrowId, hrowProject, -⟩ := hknown
        obtain rfl : row = q := Table.eq_of_key hrow hq (hrowId.trans hid.symm)
        rcases hleaves (hrowProject.symm.trans hproject) hassigned with hmore | hgone
        · obtain ⟨other, hother, hread, hne⟩ := Table.exists_key_ne hmore loaded.id
          have hread' : other.projectId = projectId ∧ other.deletedAt = none := by
            simpa using hread
          exact ⟨other, mem_writeQuestion.mpr (.inr ⟨hother, hne⟩), hread'⟩
        · exact absurd hactive (hgone row hq hid)
    · exact ⟨q, mem_writeQuestion.mpr (.inr ⟨hq, hid⟩), hproject, hactive⟩

theorem hasQuestion_inserted {created : List Question}
    (hrows : s'.questions.rows = s.questions.rows ++ created) (h : HasQuestion s projectId) :
    HasQuestion s' projectId := by
  obtain ⟨q, hq, hread⟩ := h
  refine ⟨q, ?_, hread⟩
  rw [hrows]
  exact List.mem_append_left _ hq

/-! ## Runs -/

/-- In a run whose commits leave the project a question, it has one in every state; and a
session that could commit now would leave it one if and only if it met the condition. -/
theorem hasQuestion_of_reachable {p : Pool Tables QuestionTask}
    (hstart : HasQuestion start projectId)
    (h : Relation.ReflTransGen (Pool.StepWhere questionRequests (Careful projectId))
      ⟨start, []⟩ p) :
    HasQuestion p.shared projectId ∧ ∀ loaded assigned, .writing loaded assigned ∈ p.tasks →
      (HasQuestion (p.shared.writeQuestion loaded assigned) projectId ↔
        LeavesQuestion projectId p.shared loaded assigned) := by
  have hsound := sound_of_reachable (Pool.Reachable.of_stepWhere h)
  have hquestion : HasQuestion p.shared projectId := by
    clear hsound
    -- By induction on the run; only a commit of a question can leave the project without one.
    induction h with
    | refl => exact hstart
    | @tail p p' hrun hstep ih =>
      have hsound := sound_of_reachable (Pool.Reachable.of_stepWhere hrun)
      cases hstep with
      | env ts hchange =>
        obtain ⟨q, hq, hread⟩ := ih
        exact ⟨q, hchange.1 ▸ hq, hread⟩
      | start => exact ih
      | @act s s' t t' before after hact hcareful =>
        cases QuestionAct.effect hact with
        | nothing hsame => exact hsame ▸ ih
        | inserted _ _ _ _ htask hprojects hinsert =>
          exact hasQuestion_inserted (Table.insert?_eq_some hinsert) ih
        | wrote loaded assigned htask htables =>
          subst htask htables
          obtain ⟨hknown, hloaded⟩ := hsound (.writing loaded assigned) (by simp)
          exact (hasQuestion_writeQuestion_iff hknown hloaded ih).mpr
            (hcareful loaded assigned rfl rfl)
  refine ⟨hquestion, fun loaded assigned htask => ?_⟩
  obtain ⟨hknown, hloaded⟩ := hsound (.writing loaded assigned) htask
  exact hasQuestion_writeQuestion_iff hknown hloaded hquestion

/-! ### A project with two questions -/

/-- An instant. -/
def morning : Datetime := .utc 2026 1 10 9

/-- A user's project. -/
def application : Project where
  id := 1
  userId := 7
  company := "카카오"
  jobPosition := "백엔드 개발자"
  recruitNotice := "2026년 상반기 신입 개발자 공개채용"
  companyTalent := none
  dueDate := none
  createdAt := morning
  updatedAt := morning
  deletedAt := none

/-- One of the project's questions. -/
def motivation (id : UUID) (order : ℤ) : Question :=
  newQuestion 1 7 order ⟨"지원 동기를 작성해 주세요.", some 800⟩ ⟨id, morning, morning⟩

/-- The tables with the project and two questions. -/
def twoQuestions : Tables where
  projects := ⟨[application], by decide⟩
  questions := ⟨[motivation 1 1, motivation 2 2], by decide⟩
  refers := by decide

/-- A request to delete a question of the project. -/
def deletion (id : UUID) : QuestionTask := .looking id 1 7 .delete morning

/-- A deletion that has read its question and counted two. -/
def counted (id : UUID) (order : ℤ) : QuestionTask :=
  .writing (motivation id order) ((motivation id order).delete morning)

theorem hasQuestion_twoQuestions : HasQuestion twoQuestions 1 :=
  ⟨motivation 1 1, List.mem_cons_self, rfl, rfl⟩

/-- A deletion counts two questions, whichever it is about. -/
theorem runs_counted {id : UUID} {order : ℤ}
    (hfound : getQuestion twoQuestions id 1 7 = some (motivation id order)) :
    questionRequests.Runs (twoQuestions, deletion id) (twoQuestions, counted id order) :=
  .step (.readToDelete hfound) (.last (.count (by decide : 1 < (activeQuestions _ 1 7).length)))

/-- The tables after a deletion. -/
def afterDeletion (s : Tables) (id : UUID) (order : ℤ) : Tables :=
  s.writeQuestion (motivation id order) ((motivation id order).delete morning)

theorem act_counted (s : Tables) (id : UUID) (order : ℤ)
    (hstorable : ((motivation id order).delete morning).storable = true) :
    QuestionAct s (counted id order) (afterDeletion s id order) .ended :=
  .write (saveQuestion_of_storable s _ hstorable)

/-- A deletion alone leaves the other question. -/
theorem hasQuestion_of_reachable_one :
    HasQuestion (afterDeletion twoQuestions 1 1) 1 := by
  have hstart : Pool.StepWhere questionRequests (Careful 1) ⟨twoQuestions, []⟩
      ⟨twoQuestions, [deletion 1]⟩ := .start twoQuestions [] trivial
  have hread : Pool.StepWhere questionRequests (Careful 1) ⟨twoQuestions, [deletion 1]⟩
      ⟨twoQuestions, [.counting (motivation 1 1) morning]⟩ :=
    .act [] [] (.readToDelete (by decide)) fun _ _ htask => nomatch htask
  have hcount : Pool.StepWhere questionRequests (Careful 1)
      ⟨twoQuestions, [.counting (motivation 1 1) morning]⟩ ⟨twoQuestions, [counted 1 1]⟩ :=
    .act [] [] (.count (by decide : 1 < (activeQuestions twoQuestions 1 7).length))
      fun _ _ htask => nomatch htask
  have hrun := ((Relation.ReflTransGen.single hstart).tail hread).tail hcount
  exact ((hasQuestion_of_reachable hasQuestion_twoQuestions hrun).2 _ _
    List.mem_cons_self).mpr fun _ _ => .inl (by decide)

/-- Two deletions that have both counted two questions delete both. -/
theorem not_hasQuestion_of_reachable :
    ¬ ∀ (start : Tables) (projectId : UUID) (p : Pool Tables QuestionTask),
      HasQuestion start projectId → Pool.Reachable questionRequests start p →
        HasQuestion p.shared projectId := by
  intro hclaim
  -- Both have counted before either commits.
  have hcounted : Pool.Reachable questionRequests twoQuestions ⟨twoQuestions, [counted 1 1]⟩ :=
    (runs_counted (by decide)).reachable trivial .refl
  have hboth : Pool.Reachable questionRequests twoQuestions
      ⟨twoQuestions, [counted 2 2, counted 1 1]⟩ :=
    (runs_counted (by decide)).reachable trivial hcounted
  have hfirst : Pool.Reachable questionRequests twoQuestions
      ⟨afterDeletion twoQuestions 1 1, [counted 2 2, .ended]⟩ :=
    hboth.tail (.act [counted 2 2] [] (act_counted twoQuestions 1 1 (by decide)))
  have hsecond : Pool.Reachable questionRequests twoQuestions
      ⟨afterDeletion (afterDeletion twoQuestions 1 1) 2 2, [.ended, .ended]⟩ :=
    hfirst.tail (.act [] [QuestionTask.ended] (act_counted _ 2 2 (by decide)))
  obtain ⟨q, hq, -, hactive⟩ := hclaim twoQuestions 1 _ hasQuestion_twoQuestions hsecond
  revert q
  decide

end Logit.Projects
