import Logit.Experiences.Model

/-!
# Stored experiences

An experience is stored as a JSON object with one field for each attribute. Every read
builds an `Experience` from such an object, so it checks what it reads; no write checks
what it writes. An object written whole keeps its nulls; one written over another removes
the fields it gives as null, and a format that is missing is read as STAR.

## Main definitions

* `Key`, `Payload` — the fields of a stored object
* `Attributes.modelDump` — the object attributes are written as
* `Attributes.withoutNulls` — what it leaves where it is written over another object
* `Payload.filled` — an object, with its missing fields as they are read
* `Experience.ofPayload?` — `Experience(**payload)`; `none` where Pydantic refuses

## Main results

* `Experience.ofPayload?_modelDump`, `Experience.ofPayload?_withoutNulls` — reading what was
  written validates the attributes
-/

namespace Logit.Experiences

open Calendar Python

/-- The fields of a stored experience. -/
inductive Key
  | id
  | userId
  | title
  | startDate
  | endDate
  | experienceType
  | formatType
  | category
  | tags
  | text (field : TextField)
  | createdAt
  | updatedAt
  deriving DecidableEq, Repr

/-- A stored object; every value it may have is a text. -/
def Payload : Type := Key → Given String

/-- `model_dump(mode="json")`. -/
def Attributes.modelDump (a : Attributes) : Payload
  | .id => .value a.id
  | .userId => .value a.userId
  | .title => .ofOption a.title
  | .startDate => .ofOption (a.startDate.map isoDate)
  | .endDate => .ofOption (a.endDate.map isoDate)
  | .experienceType => .ofOption (a.experienceType.map StrEnum.value)
  | .formatType => .ofOption (a.formatType.map StrEnum.value)
  | .category => .value (StrEnum.value a.category)
  | .tags => .value a.tags
  | .text field => .ofOption (a.text field)
  | .createdAt => .value (isoDatetime a.createdAt)
  | .updatedAt => .value (isoDatetime a.updatedAt)

/-- A dump without the fields that are null. -/
def Attributes.withoutNulls (a : Attributes) : Payload :=
  fun key => Given.merge .unset (a.modelDump key)

/-- Attributes where STAR stands for no format. -/
def Attributes.defaulted (a : Attributes) : Attributes :=
  { a with formatType := some (a.formatType.getD .star) }

/-- A format that is missing is read as STAR, any other missing field as `None`. -/
def Payload.filled (p : Payload) : Payload
  | .formatType => (p .formatType).withDefault (StrEnum.value ExperienceFormatType.star)
  | key => (p key).setdefault

/-- What the default factories make: a new id and the time. -/
structure Fresh where
  id : String
  now : PyDatetime

/-- The attributes a stored object has. A required field that is missing reads as `None`
here, which validation refuses. -/
def Payload.attributes (fresh : Fresh) (p : Payload) : Option Attributes := do
  let id ← ((p .id).withDefault fresh.id).required some
  let userId ← (p .userId).required some
  let title ← (p .title).optional some
  let startDate ← (p .startDate).optional readDate
  let endDate ← (p .endDate).optional readDate
  let experienceType ← (p .experienceType).optional StrEnum.ofValue?
  let formatType ← ((p .formatType).withDefault
    (StrEnum.value ExperienceFormatType.star)).optional StrEnum.ofValue?
  let category ← (p .category).required StrEnum.ofValue?
  let tags ← (p .tags).required some
  let createdAt ← ((p .createdAt).withDefault (isoDatetime fresh.now)).required readDatetime
  let updatedAt ← ((p .updatedAt).withDefault (isoDatetime fresh.now)).required readDatetime
  let text (field : TextField) := (p (.text field)).get
  return { id, userId, title, startDate, endDate, experienceType, formatType, category, tags, text,
           createdAt, updatedAt }

/-- `Experience(**payload)`. -/
def Experience.ofPayload? (fresh : Fresh) (p : Payload) : Option Experience :=
  (p.attributes fresh).bind Attributes.validate

/-- The format and the texts are read from the fields of these names. -/
theorem Payload.told_of_attributes {fresh : Fresh} {p : Payload} {a : Attributes}
    (h : p.attributes fresh = some a) :
    ((p .formatType).withDefault (StrEnum.value ExperienceFormatType.star)).optional
        StrEnum.ofValue? = some a.formatType ∧
      a.text = fun field => (p (.text field)).get := by
  simp only [Payload.attributes, Option.bind_eq_bind, Option.bind_eq_some_iff, Option.pure_def,
    Option.some.injEq] at h
  obtain ⟨_, -, _, -, _, -, _, -, _, -, _, -, formatType, hformat, _, -, _, -, _, -, _, -, rfl⟩ := h
  exact ⟨hformat, rfl⟩

/-- What attributes are written as has these attributes. -/
theorem Payload.attributes_modelDump (fresh : Fresh) (a : Attributes) :
    Payload.attributes fresh a.modelDump = some a := by
  simp [Payload.attributes, Attributes.modelDump, Given.optional_ofOption readDate_isoDate,
    Given.optional_ofOption StrEnum.ofValue?_value]

/-- Reading what was written validates the attributes written. -/
theorem Experience.ofPayload?_modelDump (fresh : Fresh) (a : Attributes) :
    Experience.ofPayload? fresh a.modelDump = a.validate := by
  rw [Experience.ofPayload?, Payload.attributes_modelDump, Option.bind_some]

/-- An experience is read from what its attributes are written as. -/
theorem Experience.ofPayload?_attributes (fresh : Fresh) (e : Experience) :
    Experience.ofPayload? fresh e.attributes.modelDump = some e := by
  rw [Experience.ofPayload?_modelDump]
  exact Attributes.validate_eq_some.mpr rfl

/-! ## Objects written over others -/

/-- Nothing is left of the old object, as a dump names all fields. -/
theorem Payload.merge_modelDump (old : Payload) (a : Attributes) :
    (fun key => (old key).merge (a.modelDump key)) = a.withoutNulls := by
  funext key
  cases key <;> simp [Attributes.withoutNulls, Attributes.modelDump]

/-- What is left has the attributes written, and the format STAR if they have none. -/
theorem Payload.attributes_withoutNulls (fresh : Fresh) (a : Attributes) :
    Payload.attributes fresh a.withoutNulls = some a.defaulted := by
  have hformat : (a.formatType.map StrEnum.value).getD (StrEnum.value ExperienceFormatType.star) =
      StrEnum.value (a.formatType.getD .star) := by
    cases a.formatType <;> rfl
  simp [Payload.attributes, Attributes.withoutNulls, Attributes.modelDump, Attributes.defaulted,
    Given.optional_ofSome readDate_isoDate, Given.optional_ofSome StrEnum.ofValue?_value,
    hformat]

theorem Experience.ofPayload?_withoutNulls (fresh : Fresh) (a : Attributes) :
    Experience.ofPayload? fresh a.withoutNulls = a.defaulted.validate := by
  rw [Experience.ofPayload?, Payload.attributes_withoutNulls, Option.bind_some]

/-- A dump names all fields. -/
theorem Attributes.filled_modelDump (a : Attributes) : a.modelDump.filled = a.modelDump := by
  funext key
  cases key <;> simp [Payload.filled, Attributes.modelDump]

theorem Attributes.filled_withoutNulls (a : Attributes) :
    a.withoutNulls.filled = a.defaulted.modelDump := by
  funext key
  cases key with
  | formatType =>
    simp only [Payload.filled, Attributes.withoutNulls, Attributes.modelDump, Attributes.defaulted]
    cases a.formatType <;> rfl
  | _ => simp [Payload.filled, Attributes.withoutNulls, Attributes.modelDump, Attributes.defaulted]

end Logit.Experiences
