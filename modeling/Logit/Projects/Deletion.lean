import Logit.Projects.LastQuestion
import Logit.Projects.Lasting

/-!
# Deleted projects and questions

A deletion sets a column of one row, and every reader has to leave the row out by itself. The
deletion of a project leaves its questions as they are. Matching leaves out the questions of
a deleted project; the other readers of a question ask only whether the question itself has
been deleted, and the history does not even ask that.

## Main definitions

* `HeldBack` — a request changes nothing and is answered as not found
* `Covered` — the condition on a request about a question of a deleted project

## Main results

* `heldBack_iff_covered` — of the requests about such a question, the covered ones are held back
* `heldBack_iff_of_deleted` — so it is after a deletion, in every run
-/

namespace Logit.Projects

open Calendar Concurrency Experiences Python Store Users

/-- From now on, whatever other requests do in between, the request changes nothing and is
answered as not found. -/
def HeldBack (w : Workspace) (request : Request) : Prop :=
  (handle request).Declines requests.Meanwhile NotFound w

/-- A question is not to be found under a project and user: it has been deleted, or is not
theirs. -/
def Question.Hidden (q : Question) (projectId userId : UUID) : Prop :=
  q.deletedAt ≠ none ∨ q.projectId ≠ projectId ∨ q.userId ≠ userId

/-- The condition on a request about a question whose project has been deleted. Matching is
always covered, and the history never; a list is covered if all it would show has been deleted;
the others are if the question itself is not to be found. -/
def Covered (s : Tables) (q : Question) : Request → Prop
  | .readQuestions listing => ∀ other ∈ s.questions.rows,
      other.Hidden listing.projectId listing.userId
  | .readQuestion _ projectId userId => q.Hidden projectId userId
  | .updateQuestion _ projectId userId _ _ => q.Hidden projectId userId
  | .toggleQuestionComplete _ projectId userId _ => q.Hidden projectId userId
  | .deleteQuestion _ projectId userId _ => q.Hidden projectId userId
  | .sendChat _ => q.deletedAt ≠ none
  | .getChatMessages _ => False
  | .getExperiencesByQuestion _ => True
  -- The other requests are not about a question.
  | _ => False

variable {w : Workspace} {q : Question} {projectId userId : UUID}

/-! ## Questions -/

theorem Question.hidden_iff : q.Hidden projectId userId ↔
    ¬ (q.projectId = projectId ∧ q.userId = userId ∧ q.deletedAt = none) := by
  unfold Question.Hidden
  tauto

theorem getQuestion_eq_none_iff {s : Tables} (hq : q ∈ s.questions.rows) :
    getQuestion s q.id projectId userId = none ↔ q.Hidden projectId userId := by
  have hfound : s.questions.find? q.id = some q := Table.find?_eq_some_iff.mpr ⟨hq, rfl⟩
  rw [Question.hidden_iff, getQuestion, hfound, Option.filter_some]
  simp

/-- A question that is looked up and not found is answered so. -/
theorem declines_withQuestion_iff {go : Question → Handler Workspace Answer}
    (hq : q ∈ w.tables.questions.rows)
    (hgo : ∀ question, ¬ (go question).Declines requests.Meanwhile NotFound w) :
    (Router.withQuestion q.id projectId userId go).Declines requests.Meanwhile NotFound w ↔
      q.Hidden projectId userId := by
  rw [← getQuestion_eq_none_iff hq, Router.withQuestion, Handler.declines_query]
  cases getQuestion w.tables q.id projectId userId with
  | none => exact iff_of_true (fun _ _ => rfl) rfl
  | some question => exact iff_of_false (fun h => hgo question (h w (.refl _ w))) nofun

/-- A write whose errors are not that something is missing. -/
theorem not_declines_reply {β : Type} {f : Tables → Except RequestError (β × Tables)}
    {answer : β → Answer} (hanswer : ∀ b, ¬ NotFound (answer b))
    (herror : ∀ error, f w.tables = .error error → ¬ NotFound (.refused error)) :
    ¬ (do let result ← write f; return reply answer result : Handler Workspace Answer).Declines
      requests.Meanwhile NotFound w := by
  intro h
  have hnotFound := (Handler.declines_commit.mp h).2 w (.refl _ w)
  cases hf : f w.tables with
  | error error =>
    rw [hf] at hnotFound
    exact herror error hf hnotFound
  | ok written =>
    rw [hf] at hnotFound
    exact hanswer written.1 hnotFound

/-- A question that is looked up, to be changed in a way that does not fail for want of
something. -/
theorem declines_changeQuestion_iff
    {f : Question → Tables → Except RequestError (Question × Tables)}
    {answer : Question → Answer} (hq : q ∈ w.tables.questions.rows)
    (hanswer : ∀ changed, ¬ NotFound (answer changed))
    (herror : ∀ question error, f question w.tables = .error error →
      ¬ NotFound (.refused error)) :
    (Router.withQuestion q.id projectId userId fun question => do
      let changed ← write (f question)
      return reply answer changed).Declines requests.Meanwhile NotFound w ↔
      q.Hidden projectId userId :=
  declines_withQuestion_iff hq fun question => not_declines_reply hanswer (herror question)

theorem heldBack_readQuestions_iff (listing : QuestionListing) :
    HeldBack w (.readQuestions listing) ↔
      ∀ other ∈ w.tables.questions.rows, other.Hidden listing.projectId listing.userId := by
  have hempty : HeldBack w (.readQuestions listing) ↔ listing.rows w.tables = [] := by
    change (Handler.query _ >>= _).Declines _ _ _ ↔ _
    rw [Handler.declines_query]
    exact ⟨fun h => h w (.refl _ w), fun h _ _ => h⟩
  have hperm := (listing.reads w.tables).1
  rw [hempty, ← List.length_eq_zero_iff, hperm.length_eq, List.length_eq_zero_iff,
    List.eq_nil_iff_forall_not_mem]
  simp only [mem_activeQuestions, Question.hidden_iff, not_and]

/-! ## Chats -/

/-- A message that is sent about a question is held back just if the question itself has been
deleted. -/
theorem heldBack_sendChat_iff (hq : q ∈ w.tables.questions.rows) {send : Send}
    (hsend : send.questionId = q.id) :
    HeldBack w (.sendChat send) ↔ q.deletedAt ≠ none := by
  have hfound : w.tables.questions.find? send.questionId = some q :=
    Table.find?_eq_some_iff.mpr ⟨hq, hsend.symm⟩
  change (Router.sendChat send).Declines _ _ _ ↔ _
  rw [Router.sendChat, Handler.declines_query, getQuestionById, hfound, Option.filter_some]
  by_cases hactive : q.deletedAt = none
  · -- The project is there, and the stream says nothing about missing rows.
    refine iff_of_false (fun h => ?_) (by simp [hactive])
    have hproject : (w.tables.projects.find? q.projectId).isSome = true := w.tables.refers q hq
    have hlast := (Handler.declines_query.mp (h w (.refl _ w)) w (.refl _ w)).2 w (.refl _ w)
    simp only [hactive, decide_true, if_true, Option.any_some, hproject] at hlast
    have hevents : (send.found (some q) true).run.Found := Chats.Request.run_of_found rfl rfl
    rcases hlast with hmissing | hmissing
    · exact absurd (hevents _ hmissing) (by decide)
    · exact absurd (hevents _ hmissing) (by decide)
  · refine iff_of_true (fun w' _ => ?_) hactive
    simp only [hactive, decide_false, Bool.false_eq_true, if_false]
    rw [Handler.declines_query]
    intro w'' _
    have hplan : (send.found none false).plan 0 = .proceed := send.goesThrough
    obtain ⟨hchats, htransactions, hevent⟩ := Chats.Request.run_of_missing hplan rfl
    refine ⟨?_, fun _ _ => .inl hevent⟩
    simp only [Option.any_none, hchats, htransactions, List.map_nil, List.append_nil]

/-- The history of a question is never held back. -/
theorem not_heldBack_getChatMessages (hq : q ∈ w.tables.questions.rows) {page : HistoryPage}
    (hpage : page.questionId = q.id) : ¬ HeldBack w (.getChatMessages page) := by
  intro h
  have hfound : w.tables.questions.find? page.questionId = some q :=
    Table.find?_eq_some_iff.mpr ⟨hq, hpage.symm⟩
  obtain ⟨project, hproject⟩ := Option.isSome_iff_exists.mp (w.tables.refers q hq)
  have hanswer := Handler.declines_query.mp h w (.refl _ w)
  have hquestion : w.history.questions page.questionId = some q.forHistory := by
    simp [Workspace.history, hfound]
  have hprojects : w.history.projects q.forHistory.projectId = some project.forHistory := by
    simp [Workspace.history, Question.forHistory, Question.forChat, hproject]
  unfold Chats.getChatHistoryResponse at hanswer
  rw [hquestion] at hanswer
  simp only [hprojects] at hanswer
  split_ifs at hanswer
  · exact absurd hanswer (by decide : ¬ 403 = 404)
  · exact hanswer

/-! ## Matching -/

/-- Matching is held back once the project has been deleted. -/
theorem heldBack_getExperiencesByQuestion (hq : q ∈ w.tables.questions.rows)
    (hdeleted : ProjectDeleted w.tables q.projectId) {matching : Matching}
    (hmatching : matching.questionId = q.id) :
    HeldBack w (.getExperiencesByQuestion matching) := by
  have hfound : w.tables.questions.find? matching.questionId = some q :=
    Table.find?_eq_some_iff.mpr ⟨hq, hmatching.symm⟩
  refine Handler.declines_query.mpr fun w' hw' => ?_
  rw [hfound, Option.filter_some]
  split_ifs
  · -- The project is still deleted when it is looked up.
    obtain ⟨p, hp, hid, hgone⟩ := (lasting_of_meanwhile hw').projectDeleted hdeleted
    refine Handler.declines_query.mpr fun w'' _ => ?_
    rw [Table.find?_eq_some_iff.mpr ⟨hp, hid⟩, Option.filter_some, if_neg (by simp [hgone])]
    rfl
  · rfl

/-! ## Deletions -/

/-- Of the requests about a question whose project has been deleted, the covered ones are held
back, and no others. -/
theorem heldBack_iff_covered (hq : q ∈ w.tables.questions.rows)
    (hdeleted : ProjectDeleted w.tables q.projectId) {request : Request}
    (habout : request.IsAbout q) : HeldBack w request ↔ Covered w.tables q request := by
  cases request with
  | readQuestions listing => exact heldBack_readQuestions_iff listing
  | readQuestion =>
    obtain rfl := habout
    exact declines_withQuestion_iff hq fun _ => id
  | updateQuestion =>
    obtain rfl := habout
    refine declines_changeQuestion_iff hq (fun _ => id) fun _ error h => ?_
    rw [updateQuestion_eq_error h]
    exact id
  | toggleQuestionComplete =>
    obtain rfl := habout
    refine declines_changeQuestion_iff hq (fun _ => id) fun _ error h => ?_
    rw [toggleQuestionComplete_eq_error h]
    exact id
  | deleteQuestion =>
    obtain rfl := habout
    refine declines_changeQuestion_iff hq (fun _ => id) fun _ error h => ?_
    rcases deleteQuestion_eq_error h with rfl | rfl
    · exact (by decide : ¬ 400 = 404)
    · exact id
  | sendChat send => exact heldBack_sendChat_iff hq habout
  | getChatMessages page => exact iff_of_false (not_heldBack_getChatMessages hq habout) id
  | getExperiencesByQuestion matching =>
    exact iff_of_true (heldBack_getExperiencesByQuestion hq hdeleted habout) trivial
  | createProject => exact habout.elim
  | readProjects => exact habout.elim
  | readProject => exact habout.elim
  | updateProject => exact habout.elim
  | deleteProject => exact habout.elim
  | createQuestion => exact habout.elim
  | createQuestionsBulk => exact habout.elim

/-- A handler that answers after a write has written, or goes on with the error. -/
theorem completes_write {β : Type} {f : Tables → Except RequestError (β × Tables)}
    {go : Except RequestError β → Handler Workspace Answer} {answer : Answer} {w' : Workspace}
    (h : (write f >>= go).Completes requests.Meanwhile w answer w') :
    (∃ b s w₁, f w.tables = .ok (b, s) ∧ requests.Meanwhile { w with tables := s } w₁ ∧
        (go (.ok b)).Completes requests.Meanwhile w₁ answer w') ∨
      ∃ error w₁, (go (.error error)).Completes requests.Meanwhile w₁ answer w' := by
  obtain ⟨w₁, hw₁, h⟩ := Handler.completes_commit.mp h
  unfold Handler.written at hw₁
  dsimp only at hw₁
  cases hf : f w.tables with
  | error error =>
    rw [hf] at h
    exact .inr ⟨error, w₁, h⟩
  | ok written =>
    rw [hf] at h hw₁
    exact .inl ⟨written.1, written.2, w₁, rfl, hw₁, h⟩

/-- Once its deletion has been answered, a project has been deleted. -/
theorem projectDeleted_of_completes {w' : Workspace} {touched now : Datetime}
    (h : (handle (.deleteProject projectId userId touched now)).Completes requests.Meanwhile w
      .noContent w') : ProjectDeleted w'.tables projectId := by
  -- The answer is a success, so the project has been found and both writes have gone through.
  rcases completes_write h with ⟨_ | project, s, w₁, hget, hw₁, h⟩ | ⟨error, w₁, h⟩
  · exact absurd (Handler.completes_answer.mp h).1 nofun
  · rcases completes_write h with ⟨deleted, s', w₂, hdelete, hw₂, h⟩ | ⟨error, w₂, h⟩
    · obtain ⟨loaded, hloaded, rfl, hactive, rfl, hsave⟩ := getProject_eq_ok hget
      obtain ⟨rfl, hsave'⟩ := deleteProject_eq_ok hdelete
      have hlasting := (Lasting.saveProject hsave (.inl rfl)).trans (lasting_of_meanwhile hw₁)
      obtain ⟨p, hp, hid, -⟩ := hlasting.projects loaded hloaded
      have hdeleted : ProjectDeleted s' loaded.id := by
        rw [saveProject_eq_ok hsave']
        refine ⟨_, (Table.mem_update (writeProject_id _ _)).mpr (.inl ⟨p, hp, hid, rfl⟩), hid, ?_⟩
        have hchanged : some now ≠ loaded.deletedAt := hactive ▸ Option.some_ne_none now
        change flush p.deletedAt loaded.deletedAt (some now) ≠ none
        rw [flush_of_ne _ hchanged]
        exact Option.some_ne_none now
      obtain ⟨-, rfl⟩ := Handler.completes_answer.mp h
      exact (lasting_of_meanwhile hw₂).projectDeleted hdeleted
    · exact absurd (Handler.completes_answer.mp h).1 nofun
  · exact absurd (Handler.completes_answer.mp h).1 nofun

/-- Once its deletion has been answered, a question has been deleted. -/
theorem questionDeleted_of_completes {questionId : UUID} {w' : Workspace} {now : Datetime}
    (h : (handle (.deleteQuestion questionId projectId userId now)).Completes requests.Meanwhile w
      .noContent w') : QuestionDeleted w'.tables questionId := by
  obtain ⟨w₁, hw₁, hnext⟩ := Handler.completes_query.mp h
  cases hfound : getQuestion w.tables questionId projectId userId with
  | none =>
    rw [hfound] at hnext
    exact absurd (Handler.completes_answer.mp hnext).1 nofun
  | some loaded =>
    rw [hfound] at hnext
    obtain ⟨hloaded, rfl, -, -, hactive⟩ := getQuestion_eq_some hfound
    rcases completes_write hnext with ⟨deleted, s, w₂, hdelete, hw₂, h⟩ | ⟨error, w₂, h⟩
    · obtain ⟨-, rfl, hsave⟩ := deleteQuestion_eq_ok hdelete
      obtain ⟨q, hq, hid, -⟩ := (lasting_of_meanwhile hw₁).questions loaded hloaded
      have hdeleted : QuestionDeleted s loaded.id := by
        rw [saveQuestion_eq_ok hsave]
        exact ⟨_, mem_writeQuestion.mpr (.inl ⟨q, hq, hid, rfl⟩), hid,
          writeQuestion_deletes q hactive (Option.some_ne_none now)⟩
      obtain ⟨-, rfl⟩ := Handler.completes_answer.mp h
      exact (lasting_of_meanwhile hw₂).questionDeleted hdeleted
    · exact absurd (Handler.completes_answer.mp h).1 nofun

/-- In every run after a project has been deleted, the requests about its questions that are held
back are the covered ones; and in every run after a question has been deleted, a message sent
about it is held back, and a request for its history is not. -/
theorem heldBack_iff_of_deleted {w₀ w w' : Workspace} (hrun : requests.Meanwhile w w') :
    (∀ projectId userId touched now,
      (handle (.deleteProject projectId userId touched now)).Completes requests.Meanwhile w₀
        .noContent w → ∀ q ∈ w'.tables.questions.rows, q.projectId = projectId →
          ∀ request : Request, request.IsAbout q →
            (HeldBack w' request ↔ Covered w'.tables q request)) ∧
      ∀ questionId projectId userId now,
        (handle (.deleteQuestion questionId projectId userId now)).Completes requests.Meanwhile w₀
          .noContent w →
            (∀ send : Send, send.questionId = questionId → HeldBack w' (.sendChat send)) ∧
              ∀ page : HistoryPage, page.questionId = questionId →
                ¬ HeldBack w' (.getChatMessages page) := by
  have hlasting := lasting_of_meanwhile hrun
  constructor
  · rintro projectId userId touched now hdelete q hq rfl request habout
    have hdeleted := hlasting.projectDeleted (projectDeleted_of_completes hdelete)
    exact heldBack_iff_covered hq hdeleted habout
  · intro questionId projectId userId now hdelete
    obtain ⟨q, hq, rfl, hgone⟩ := hlasting.questionDeleted (questionDeleted_of_completes hdelete)
    exact ⟨fun send hsend => (heldBack_sendChat_iff hq hsend).mpr hgone,
      fun page hpage => not_heldBack_getChatMessages hq hpage⟩

/-! ### A project that is deleted with two questions -/

/-- A project with two questions, and nothing else. -/
def prepared : Workspace := ⟨twoQuestions, [], []⟩

/-- The request to delete the project. -/
def withdrawal : Request := .deleteProject 1 7 morning morning

/-- The rows after the deletion. -/
def withdrawn : Workspace := ((handle withdrawal).alone prepared).2

theorem completes_withdrawal :
    (handle withdrawal).Completes requests.Meanwhile prepared .noContent withdrawn :=
  Handler.completes_alone (.refl requests) (handle withdrawal) prepared

/-- A question of the deleted project is read. -/
theorem heldBack_iff_of_deleted_read : ¬ HeldBack withdrawn (.readQuestion 1 1 7) := by
  have hread := (heldBack_iff_of_deleted (.refl requests withdrawn)).1 1 7 morning morning
    completes_withdrawal (motivation 1 1) (by decide) rfl (.readQuestion 1 1 7) rfl
  rintro h
  rcases hread.mp h with hgone | hproject | huser
  · exact hgone rfl
  · exact hproject rfl
  · exact huser rfl

/-- After its project has been deleted, a question is read as before. -/
theorem not_heldBack_of_deleted :
    ¬ ∀ (w₀ w w' : Workspace) (projectId userId : UUID) (touched now : Datetime),
      (handle (.deleteProject projectId userId touched now)).Completes requests.Meanwhile w₀
        .noContent w → requests.Meanwhile w w' → ∀ q ∈ w'.tables.questions.rows,
          q.projectId = projectId → ∀ request : Request, request.IsAbout q →
            HeldBack w' request := by
  intro hclaim
  have h := hclaim prepared withdrawn withdrawn 1 7 morning morning completes_withdrawal
    (.refl requests withdrawn) (motivation 1 1) (by decide) rfl (.readQuestion 1 1 7) rfl
  have hfound : getQuestion withdrawn.tables 1 1 7 = some (motivation 1 1) := by decide
  have hanswer := Handler.declines_query.mp h withdrawn (.refl requests withdrawn)
  rw [hfound] at hanswer
  exact hanswer

end Logit.Projects
