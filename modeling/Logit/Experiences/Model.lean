import Logit.Calendar.Iso
import Logit.Python.Given
import Logit.Python.StrEnum
import Mathlib.Data.Fintype.Defs

/-!
# Experiences

An experience tells what a user did in one of three formats, each with body texts of its
own. `Experience` is the model that Pydantic checks whenever one is built; `Attributes` are
what such an object holds once it has been copied with changes, which nothing checks.

## Main definitions

* `ExperienceType`, `ExperienceCategory`, `ExperienceFormatType` — with their stored texts
* `TextField` — the body texts; `ExperienceFormatType.fields` — the ones a format has
* `Attributes`, `Experience` — the unchecked and the checked object
* `Attributes.validate` — `Experience(**attributes)`; `none` where Pydantic refuses

## Main results

* `Attributes.validate_eq_some` — validation changes nothing
* `Attributes.validate_isSome` — what it demands
-/

namespace Logit.Experiences

open Calendar Python

/-! ## Enumerations -/

inductive ExperienceType
  | partTime
  | intern
  | fullTime
  | freelance
  | volunteer
  | prize
  | groupActivity
  | research
  | military
  | other
  deriving DecidableEq, Repr

instance : StrEnum ExperienceType where
  members := [.partTime, .intern, .fullTime, .freelance, .volunteer, .prize, .groupActivity,
    .research, .military, .other]
  mem_members a := by cases a <;> decide
  value
    | .partTime => "아르바이트"
    | .intern => "인턴"
    | .fullTime => "정규직"
    | .freelance => "계약직"
    | .volunteer => "봉사 활동"
    | .prize => "수상경력"
    | .groupActivity => "동아리 활동"
    | .research => "연구 활동"
    | .military => "군복무"
    | .other => "개인 활동"
  nodup_values := by decide +kernel

inductive ExperienceCategory
  | customerValueOriented
  | technicalProficiency
  | collaborativeCommunication
  | leadershipInitiative
  | logicalAnalytics
  | creativeProblemSolving
  | flexibility
  | responsibility
  deriving DecidableEq, Repr

instance : StrEnum ExperienceCategory where
  members := [.customerValueOriented, .technicalProficiency, .collaborativeCommunication,
    .leadershipInitiative, .logicalAnalytics, .creativeProblemSolving, .flexibility,
    .responsibility]
  mem_members a := by cases a <;> decide
  value
    | .customerValueOriented => "고객 가치 지향"
    | .technicalProficiency => "기술적 전문성"
    | .collaborativeCommunication => "협력적 소통"
    | .leadershipInitiative => "주도적 실행력"
    | .logicalAnalytics => "논리적 분석력"
    | .creativeProblemSolving => "창의적 문제해결"
    | .flexibility => "유연한 적응력"
    | .responsibility => "끈기있는 책임감"
  nodup_values := by decide +kernel

inductive ExperienceFormatType
  /-- Situation, task, action and result. -/
  | star
  /-- Problem, solution and insight. -/
  | psi
  /-- One free text. -/
  | free
  deriving DecidableEq, Repr

instance : StrEnum ExperienceFormatType where
  members := [.star, .psi, .free]
  mem_members a := by cases a <;> decide
  value
    | .star => "STAR"
    | .psi => "PSI"
    | .free => "FREE"
  nodup_values := by decide +kernel

/-- The body texts of an experience, of all formats. -/
inductive TextField
  | situation
  | task
  | action
  | result
  | problem
  | solution
  | insight
  | content
  deriving DecidableEq, Repr

instance : StrEnum TextField where
  members := [.situation, .task, .action, .result, .problem, .solution, .insight, .content]
  mem_members a := by cases a <;> decide
  value
    | .situation => "situation"
    | .task => "task"
    | .action => "action"
    | .result => "result"
    | .problem => "problem"
    | .solution => "solution"
    | .insight => "insight"
    | .content => "content"
  nodup_values := by decide +kernel

instance : Fintype TextField := StrEnum.fintype TextField

namespace ExperienceFormatType

/-- The texts an experience of a format has. -/
def fields : ExperienceFormatType → List TextField
  | star => [.situation, .task, .action, .result]
  | psi => [.problem, .solution, .insight]
  | free => [.content]

/-- The texts an update to a format may not name. -/
def unsupported : ExperienceFormatType → List TextField
  | star => [.problem, .solution, .insight, .content]
  | psi => [.situation, .task, .action, .result, .content]
  | free => [.situation, .task, .action, .result, .problem, .solution, .insight]

/-- Every text belongs to a format or is refused for it. -/
theorem mem_unsupported {format : ExperienceFormatType} {field : TextField} :
    field ∈ format.unsupported ↔ field ∉ format.fields := by
  cases format <;> cases field <;> decide

end ExperienceFormatType

/-! ## The unchecked and the checked object -/

/-- The attributes an `Experience` object holds; only those that no update may change to
`None` always have a value. -/
structure Attributes where
  id : String
  userId : String
  title : Option String
  startDate : Option PyDate
  endDate : Option PyDate
  experienceType : Option ExperienceType
  formatType : Option ExperienceFormatType
  category : ExperienceCategory
  tags : String
  text : TextField → Option String
  createdAt : PyDatetime
  updatedAt : PyDatetime

/-- `Field(min_length=1, max_length=max)`. -/
def LengthBetween (max : ℕ) (text : String) : Prop := 1 ≤ text.length ∧ text.length ≤ max

instance (max : ℕ) (text : String) : Decidable (LengthBetween max text) :=
  inferInstanceAs (Decidable (_ ∧ _))

/-- An experience that Pydantic has checked. -/
structure Experience where
  id : String
  userId : String
  title : String
  startDate : PyDate
  endDate : Option PyDate
  experienceType : ExperienceType
  formatType : ExperienceFormatType
  category : ExperienceCategory
  tags : String
  text : TextField → Option String
  createdAt : PyDatetime
  updatedAt : PyDatetime
  title_length : LengthBetween 200 title
  text_length : ∀ field, ∀ value ∈ text field, 1 ≤ value.length

/-- The attributes of a checked object. -/
def Experience.attributes (e : Experience) : Attributes where
  id := e.id
  userId := e.userId
  title := some e.title
  startDate := some e.startDate
  endDate := e.endDate
  experienceType := some e.experienceType
  formatType := some e.formatType
  category := e.category
  tags := e.tags
  text := e.text
  createdAt := e.createdAt
  updatedAt := e.updatedAt

namespace Attributes

/-- `Experience(**attributes)`. -/
def validate (a : Attributes) : Option Experience :=
  match a.title, a.startDate, a.experienceType, a.formatType with
  | some title, some startDate, some experienceType, some formatType =>
    if h : LengthBetween 200 title ∧ ∀ field, ∀ value ∈ a.text field, 1 ≤ value.length then
      some { a with title, startDate, experienceType, formatType, title_length := h.1,
                    text_length := h.2 }
    else none
  | _, _, _, _ => none

/-- Validation builds an object with the attributes it was given. -/
theorem validate_eq_some {a : Attributes} {e : Experience} :
    a.validate = some e ↔ e.attributes = a := by
  constructor
  · intro h
    unfold validate at h
    split at h
    case h_1 title startDate experienceType formatType htitle hstart htype hformat =>
      split at h
      · cases h
        cases a
        simp_all [Experience.attributes]
      · cases h
    case h_2 => cases h
  · rintro rfl
    exact dif_pos ⟨e.title_length, e.text_length⟩

/-- What validation demands of attributes. -/
theorem validate_isSome {a : Attributes} :
    a.validate.isSome = true ↔
      (a.title.isSome = true ∧ a.startDate.isSome = true ∧ a.experienceType.isSome = true ∧
        a.formatType.isSome = true) ∧
      (∀ title ∈ a.title, LengthBetween 200 title) ∧
      ∀ field, ∀ value ∈ a.text field, 1 ≤ value.length := by
  constructor
  · intro h
    obtain ⟨e, he⟩ := Option.isSome_iff_exists.mp h
    rw [← validate_eq_some.mp he]
    refine ⟨⟨rfl, rfl, rfl, rfl⟩, ?_, e.text_length⟩
    intro title htitle
    cases htitle
    exact e.title_length
  · rintro ⟨⟨htitle, hstart, htype, hformat⟩, hlength, htexts⟩
    obtain ⟨title, htitle⟩ := Option.isSome_iff_exists.mp htitle
    obtain ⟨startDate, hstart⟩ := Option.isSome_iff_exists.mp hstart
    obtain ⟨experienceType, htype⟩ := Option.isSome_iff_exists.mp htype
    obtain ⟨formatType, hformat⟩ := Option.isSome_iff_exists.mp hformat
    rw [validate, htitle, hstart, htype, hformat]
    simp only
    rw [dif_pos ⟨hlength title htitle, htexts⟩]
    rfl

end Attributes

end Logit.Experiences
