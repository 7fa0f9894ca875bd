import Logit.Experiences.Model
import Logit.Python.Text

/-!
# Requests about experiences

The bodies of the requests that create and update an experience. A body that has passed
validation is a subtype of its fields. In an update a field may be left out or explicitly null.

## Main definitions

* `CreateFields`, `UpdateFields` — the fields of a body, once Pydantic has read their types
* `ExperienceCreate`, `ExperienceUpdate` — bodies that have passed validation
* `ExperienceCreate.ofBody?`, `ExperienceUpdate.ofBody?` — validation
* `Attributes.modelCopy` — a copy with the changes of an update, unchecked
-/

namespace Logit.Experiences

open Calendar Python

/-- A blank text counts as none. -/
def emptyStrToNone (v : String) : Option String := if strip v = "" then none else some v

/-- The same of a field of an update, where none is an explicit null. -/
def emptyStrToNull : Given String → Given String
  | .value v => .ofOption (emptyStrToNone v)
  | field => field

/-- Python's truth value of an optional text. -/
def truthy (v : Option String) : Bool := v.any (· ≠ "")

/-- The longest text a body may have. -/
def TextField.maxLength : TextField → ℕ
  | content => 10000
  | _ => 5000

/-! ## Creating -/

structure CreateFields where
  title : String
  startDate : PyDate
  endDate : Option PyDate
  experienceType : ExperienceType
  formatType : ExperienceFormatType
  text : TextField → Option String

/-- What the fields of `ExperienceCreate` and its `validate_format_fields` demand. -/
def CreateFields.Valid (c : CreateFields) : Prop :=
  LengthBetween 200 c.title ∧
    (∀ field, ∀ value ∈ c.text field, LengthBetween field.maxLength value) ∧
    (∀ endDate ∈ c.endDate, ¬ endDate < c.startDate) ∧
    ∀ field ∈ c.formatType.fields, truthy (c.text field) = true

instance (c : CreateFields) : Decidable c.Valid :=
  inferInstanceAs (Decidable (_ ∧ _ ∧ _ ∧ _))

/-- The body of a request that creates an experience, validated. -/
def ExperienceCreate : Type := {c : CreateFields // c.Valid}

/-- Validation; `none` is answered with 422. -/
def ExperienceCreate.ofBody? (body : CreateFields) : Option ExperienceCreate :=
  let c := { body with text := fun field => (body.text field).bind emptyStrToNone }
  if h : c.Valid then some ⟨c, h⟩ else none

/-- A body that passes validation keeps all but its blank texts. -/
theorem ExperienceCreate.eq_of_ofBody? {body : CreateFields} {create : ExperienceCreate}
    (h : ofBody? body = some create) :
    create.1 = { body with text := fun field => (body.text field).bind emptyStrToNone } := by
  obtain ⟨_, hvalid⟩ := Option.dite_none_right_eq_some.mp h
  exact congrArg Subtype.val (Option.some.inj hvalid).symm

/-! ## Updating -/

structure UpdateFields where
  title : Given String
  startDate : Given PyDate
  endDate : Given PyDate
  experienceType : Given ExperienceType
  formatType : Given ExperienceFormatType
  text : TextField → Given String

/-- What the fields of `ExperienceUpdate` and its `validate_date_range` demand. -/
def UpdateFields.Valid (u : UpdateFields) : Prop :=
  (∀ title ∈ u.title.get, LengthBetween 200 title) ∧
    (∀ field, ∀ value ∈ (u.text field).get, LengthBetween field.maxLength value) ∧
    ∀ startDate ∈ u.startDate.get, ∀ endDate ∈ u.endDate.get, ¬ endDate < startDate

instance (u : UpdateFields) : Decidable u.Valid :=
  inferInstanceAs (Decidable (_ ∧ _ ∧ _))

/-- The body of a request that updates an experience, validated. -/
def ExperienceUpdate : Type := {u : UpdateFields // u.Valid}

/-- Validation; `none` is answered with 422. -/
def ExperienceUpdate.ofBody? (body : UpdateFields) : Option ExperienceUpdate :=
  let u := { body with text := fun field => emptyStrToNull (body.text field) }
  if h : u.Valid then some ⟨u, h⟩ else none

/-- A body that passes validation keeps all but its blank texts, which are null. -/
theorem ExperienceUpdate.eq_of_ofBody? {body : UpdateFields} {update : ExperienceUpdate}
    (h : ofBody? body = some update) :
    update.1 = { body with text := fun field => emptyStrToNull (body.text field) } := by
  obtain ⟨_, hvalid⟩ := Option.dite_none_right_eq_some.mp h
  exact congrArg Subtype.val (Option.some.inj hvalid).symm

/-- `existing.model_copy(update=...)`. -/
def Attributes.modelCopy (a : Attributes) (u : UpdateFields) : Attributes :=
  { a with
    title := u.title.replacing a.title
    startDate := u.startDate.replacing a.startDate
    endDate := u.endDate.replacing a.endDate
    experienceType := u.experienceType.replacing a.experienceType
    formatType := u.formatType.replacing a.formatType
    text := fun field => (u.text field).replacing (a.text field) }

end Logit.Experiences
