import Logit.Experiences.Classification
import Logit.Experiences.Payload
import Logit.Experiences.Schemas
import Logit.Python.Raise
import Logit.Python.Uuid
import Mathlib.Data.List.Sort

/-!
# Creating, reading, updating and deleting experiences

The functions of the experience service over the collection Qdrant keeps. Each call gets
its surroundings as an `Env`: the clock, a new id, OpenAI, and whether Qdrant answers.

## Main definitions

* `Point`, `Collection` — what Qdrant stores, with its operations
* `createExperience`, `getExperience`, `listExperiences`, `updateExperience`,
  `deleteExperience`
* `Write`, `prepareUpdate` — what an update does after it has read

## Main results

* `createExperience_ok`, `updateExperience_ok` — what a call that returns has written
* `updateExperience_eq` — an update reads, and then writes what it has prepared
-/

namespace Logit.Experiences

open Calendar Python

variable {V : Type}

/-! ## The collection -/

/-- A stored vector and its payload. -/
structure Point (V : Type) where
  id : UUID
  vector : V
  payload : Payload

abbrev Collection (V : Type) := List (Point V)

namespace Collection

def retrieve (db : Collection V) (id : UUID) : Option (Point V) := db.find? (·.id = id)

/-- Stores a point in place of the one with its id. -/
def upsert (db : Collection V) (point : Point V) : Collection V :=
  db.filter (·.id ≠ point.id) ++ [point]

/-- Overwrites the fields given of a point's payload, and removes those given as null. -/
def setPayload (db : Collection V) (id : UUID) (payload : Payload) : Collection V :=
  db.map fun point =>
    if point.id = id then
      { point with payload := fun key => (point.payload key).merge (payload key) }
    else point

def delete (db : Collection V) (id : UUID) : Collection V := db.filter (·.id ≠ id)

/-- The points of a user. -/
def ofUser (db : Collection V) (userId : UUID) : Collection V :=
  db.filter fun point => (point.payload .userId).get = some userId.str

/-- The latest first; points without a time come last. -/
def newestFirst (db : Collection V) : Collection V :=
  let createdAt (point : Point V) : ℤ :=
    (((point.payload .createdAt).get.bind readDatetime).map fun t => t.1.ticks).getD 0
  db.insertionSort fun p q => createdAt q ≤ createdAt p

end Collection

/-! ## Surroundings of a call -/

/-- The exceptions of Qdrant's client that are told apart. -/
inductive QdrantError
  | unexpectedResponse
  | other
  deriving DecidableEq, Repr

inductive QdrantCall
  | retrieve
  | count
  | scroll
  | upsert
  | setPayload
  | delete
  deriving DecidableEq, Repr

structure Env (V : Type) where
  now : PyDatetime
  /-- What `uuid4` returns. -/
  newId : UUID
  services : Services V
  /-- The exception a call of Qdrant raises, if it does. -/
  outage : QdrantCall → Option QdrantError

def Env.fresh (env : Env V) : Fresh := ⟨env.newId.str, env.now⟩

/-- The ways a call fails. -/
inductive ServiceError
  | http (exception : HTTPException)
  /-- Pydantic refuses to build an object. -/
  | validationError
  /-- `None` is compared with a date. -/
  | typeError
  deriving DecidableEq, Repr

/-- Raises what the service answers when Qdrant does not do what it is asked. -/
def Env.reach (env : Env V) (call : QdrantCall) (failed doing : String) :
    Except ServiceError Unit :=
  match env.outage call with
  | none => .ok ()
  | some .unexpectedResponse =>
    .error (.http ⟨503, "Failed to " ++ failed ++ " vector database. Please try again later."⟩)
  | some .other => .error (.http ⟨500, "Internal server error while " ++ doing ++ "."⟩)

/-- `Experience(**attributes)`, where a refusal is raised. -/
def buildExperience (a : Attributes) : Except ServiceError Experience :=
  match a.validate with
  | some e => .ok e
  | none => .error .validationError

def embed (env : Env V) (a : Attributes) : Except ServiceError V :=
  (generateEmbedding env.services (combineTextForEmbedding a)).mapError .http

/-! ## Reading -/

/-- `[Experience(**point.payload) for point in points]`. -/
def experiencesOf (fresh : Fresh) (points : List (Point V)) : Option (List Experience) :=
  points.mapM fun point => Experience.ofPayload? fresh point.payload

def getExperience (env : Env V) (db : Collection V) (experienceId userId : UUID) :
    Except ServiceError Experience := do
  env.reach .retrieve "retrieve experience from" "retrieving experience"
  match db.retrieve experienceId with
  | none => throw (.http ⟨404, "Experience not found"⟩)
  | some point =>
    if (point.payload .userId).get ≠ some userId.str then
      throw (.http ⟨404, "Experience not found"⟩)
    match Experience.ofPayload? env.fresh point.payload with
    | some experience => return experience
    | none => throw .validationError

/-- A page of a user's experiences, and how many there are. -/
def listExperiences (env : Env V) (db : Collection V) (userId : UUID) (limit offset : ℕ) :
    Except ServiceError (List Experience × ℕ) := do
  env.reach .count "list experiences from" "listing experiences"
  let total := (db.ofUser userId).length
  -- A page beyond the last one is not fetched.
  if total ≤ offset then return ([], total)
  env.reach .scroll "list experiences from" "listing experiences"
  let points := (db.ofUser userId).newestFirst.take (min (limit + offset) total)
  match experiencesOf env.fresh points with
  | some experiences => return ((experiences.drop offset).take limit, total)
  -- A payload that cannot be read ends in the handler of all other exceptions.
  | none => throw (.http ⟨500, "Internal server error while listing experiences."⟩)

/-! ## Creating -/

def createExperience (env : Env V) (db : Collection V) (userId : UUID)
    (create : ExperienceCreate) : Except ServiceError (Experience × Collection V) := do
  let attributes (found : Classification) : Attributes :=
    { id := env.newId.str, userId := userId.str, title := create.1.title,
      startDate := create.1.startDate, endDate := create.1.endDate,
      experienceType := create.1.experienceType, formatType := create.1.formatType,
      category := found.category, tags := found.tags, text := create.1.text,
      createdAt := env.now, updatedAt := env.now }
  -- A first object is built only to ask for tags.
  let temp ← buildExperience (attributes ⟨"", .creativeProblemSolving⟩)
  let experience ←
    buildExperience (attributes (generateTagsAndCategory env.services temp.attributes))
  let embedding ← embed env experience.attributes
  env.reach .upsert "store experience in" "storing experience"
  return (experience, db.upsert ⟨env.newId, embedding, experience.attributes.modelDump⟩)

/-! ## Updating -/

/-- The order in which the message names the fields is up to Python's sets. -/
def unsupportedDetail (format : ExperienceFormatType) (invalid : List TextField) : String :=
  StrEnum.value format ++ " format does not support fields: " ++
    ", ".intercalate (invalid.map StrEnum.value) ++ ". Only " ++
    ", ".intercalate (format.fields.map StrEnum.value) ++
    match format with
    | .free => " is allowed."
    | _ => " are allowed."

def changeDetail (format : ExperienceFormatType) : String :=
  StrEnum.value format ++ " 형식으로 변경하려면 " ++
    ", ".intercalate (format.fields.map StrEnum.value) ++
    match format with
    | .free => " 필드가 필요합니다."
    | _ => " 필드가 모두 필요합니다."

/-- The format an experience has after an update. -/
def effectiveFormatType (existing : ExperienceFormatType) (update : UpdateFields) :
    ExperienceFormatType :=
  update.formatType.get.getD existing

/-- Refuses texts of other formats, and a change of format without all texts of the new one. -/
def checkFields (existing : ExperienceFormatType) (update : UpdateFields) :
    Except ServiceError Unit :=
  let effective := effectiveFormatType existing update
  let invalid := effective.unsupported.filter fun field => (update.text field).isSet
  -- Naming a text is enough, even to set it to null.
  if invalid ≠ [] then .error (.http ⟨400, unsupportedDetail effective invalid⟩)
  else if effective = existing then .ok ()
  else if effective.fields.all fun field => truthy (update.text field).get then .ok ()
  else .error (.http ⟨400, changeDetail effective⟩)

/-- The changes to make: those asked for and, where the format changes, the old texts
cleared. -/
def updateData (existing : ExperienceFormatType) (update : UpdateFields) : UpdateFields :=
  if effectiveFormatType existing update = existing then update
  else
    { update with text := fun field =>
        if field ∈ existing.fields then (update.text field).setdefault else update.text field }

/-- The range of dates after an update, which catches partial updates. -/
def checkDates (a : Attributes) : Except ServiceError Unit :=
  match a.endDate, a.startDate with
  | none, _ => .ok ()
  -- Python compares `None` with a date.
  | some _, none => .error .typeError
  | some endDate, some startDate =>
    if endDate < startDate then
      .error (.http ⟨400, "start_date must be before or equal to end_date"⟩)
    else .ok ()

/-- Whether the texts the experience is found by may have changed. -/
def contentChanged (effective : ExperienceFormatType) (data : UpdateFields) : Bool :=
  data.title.isSet || effective.fields.any (fun field => (data.text field).isSet) ||
    data.formatType.get.isSome

def updateExperience (env : Env V) (db : Collection V) (experienceId userId : UUID)
    (update : ExperienceUpdate) : Except ServiceError (Attributes × Collection V) := do
  let existing ← getExperience env db experienceId userId
  checkFields existing.formatType update.1
  let data := updateData existing.formatType update.1
  let updated := { existing.attributes.modelCopy data with updatedAt := env.now }
  checkDates updated
  if contentChanged (effectiveFormatType existing.formatType update.1) data then
    -- Classifying never raises, so the handler around it in the source is never entered.
    let found := generateTagsAndCategory env.services updated
    let updated := { updated with tags := found.tags, category := found.category }
    let embedding ← embed env updated
    env.reach .upsert "update experience in" "updating experience"
    return (updated, db.upsert ⟨experienceId, embedding, updated.modelDump⟩)
  else
    env.reach .setPayload "update experience in" "updating experience"
    return (updated, db.setPayload experienceId updated.modelDump)

/-! ## Deleting -/

def deleteExperience (env : Env V) (db : Collection V) (experienceId userId : UUID) :
    Except ServiceError (Collection V) := do
  let _ ← getExperience env db experienceId userId
  env.reach .delete "delete experience from" "deleting experience"
  return db.delete experienceId

/-! ## Reading and writing apart -/

/-- What a request asks Qdrant to write. -/
inductive Write (V : Type)
  | upsert (point : Point V)
  | setPayload (id : UUID) (payload : Payload)
  | delete (id : UUID)

def Write.apply (db : Collection V) : Write V → Collection V
  | upsert point => db.upsert point
  | setPayload id payload => db.setPayload id payload
  | delete id => db.delete id

/-- What an update does with the experience it has read, up to its write. -/
def prepareUpdate (env : Env V) (experienceId : UUID) (existing : Experience)
    (update : ExperienceUpdate) : Except ServiceError (Attributes × Write V) := do
  checkFields existing.formatType update.1
  let data := updateData existing.formatType update.1
  let updated := { existing.attributes.modelCopy data with updatedAt := env.now }
  checkDates updated
  if contentChanged (effectiveFormatType existing.formatType update.1) data then
    let found := generateTagsAndCategory env.services updated
    let updated := { updated with tags := found.tags, category := found.category }
    let embedding ← embed env updated
    env.reach .upsert "update experience in" "updating experience"
    return (updated, .upsert ⟨experienceId, embedding, updated.modelDump⟩)
  else
    env.reach .setPayload "update experience in" "updating experience"
    return (updated, .setPayload experienceId updated.modelDump)

/-! ## What a call that returns has done -/

variable {env : Env V} {db db' : Collection V} {experienceId userId : UUID}

theorem getExperience_ok {e : Experience} (h : getExperience env db experienceId userId = .ok e) :
    ∃ point, db.retrieve experienceId = some point ∧
      Experience.ofPayload? env.fresh point.payload = some e := by
  obtain ⟨_, -, h⟩ := bind_eq_ok.mp h
  split at h
  · exact (throw_eq_ok.mp h).elim
  · next point hpoint =>
    simp only at h
    split_ifs at h
    · obtain ⟨_, hthrow, -⟩ := bind_eq_ok.mp h
      exact (throw_eq_ok.mp hthrow).elim
    · split at h
      · next read hread =>
        rw [pure_eq_ok] at h
        exact ⟨point, hpoint, h ▸ hread⟩
      · exact (throw_eq_ok.mp h).elim

theorem buildExperience_ok {a : Attributes} {e : Experience} :
    buildExperience a = .ok e ↔ e.attributes = a := by
  rw [← Attributes.validate_eq_some, buildExperience]
  cases a.validate <;> simp

theorem embed_eq_ok {a : Attributes} {vector : V} :
    embed env a = .ok vector ↔ env.services.embed (combineTextForEmbedding a) = .ok vector := by
  rw [embed, generateEmbedding]
  cases env.services.embed (combineTextForEmbedding a) <;> simp [Except.mapError]

/-- A creation stores an experience with the format and the texts it was given. -/
theorem createExperience_ok {create : ExperienceCreate} {e : Experience}
    (h : createExperience env db userId create = .ok (e, db')) :
    (e.formatType = create.1.formatType ∧ e.text = create.1.text) ∧
      ∃ vector, db' = db.upsert ⟨env.newId, vector, e.attributes.modelDump⟩ := by
  obtain ⟨temp, -, h⟩ := bind_eq_ok.mp h
  obtain ⟨experience, hbuilt, h⟩ := bind_eq_ok.mp h
  obtain ⟨vector, -, h⟩ := bind_eq_ok.mp h
  obtain ⟨_, -, h⟩ := bind_eq_ok.mp h
  rw [pure_eq_ok, Prod.mk.injEq] at h
  obtain ⟨rfl, rfl⟩ := h
  have hattributes := buildExperience_ok.mp hbuilt
  refine ⟨⟨?_, ?_⟩, vector, rfl⟩
  · exact Option.some.inj (congrArg Attributes.formatType hattributes)
  · exact congrArg Attributes.text hattributes

/-- The fields an update may name are the texts of the format it leads to, and one that changes
the format gives all of them. -/
theorem checkFields_ok {existing : ExperienceFormatType} {update : UpdateFields} :
    checkFields existing update = .ok () ↔
      (∀ field ∉ (effectiveFormatType existing update).fields, update.text field = .unset) ∧
        (effectiveFormatType existing update = existing ∨
          ∀ field ∈ (effectiveFormatType existing update).fields,
            truthy (update.text field).get = true) := by
  have hunset (field : TextField) :
      (update.text field).isSet = false ↔ update.text field = .unset := by
    cases update.text field <;> simp [Given.isSet]
  simp only [← ExperienceFormatType.mem_unsupported, ← hunset]
  unfold checkFields
  simp only [ne_eq, List.filter_eq_nil_iff, Bool.not_eq_true]
  split_ifs with hvalid hsame hall
  · exact ⟨fun _ => ⟨hvalid, .inl hsame⟩, fun _ => rfl⟩
  · exact ⟨fun _ => ⟨hvalid, .inr (List.all_eq_true.mp hall)⟩, fun _ => rfl⟩
  · rw [List.all_eq_true] at hall
    simp only [hsame, hall, or_self, and_false]
  · simp only [hvalid, false_and]

/-- Clearing texts gives none of them a value. -/
theorem text_updateData {existing : ExperienceFormatType} {update : UpdateFields}
    {field : TextField} {value : String}
    (h : value ∈ ((updateData existing update).text field).get) :
    value ∈ (update.text field).get := by
  unfold updateData at h
  split_ifs at h
  · exact h
  · simp only at h
    split_ifs at h
    · rwa [Given.get_setdefault] at h
    · exact h

/-- Clearing texts leaves the other changes alone. -/
theorem updateData_eq (existing : ExperienceFormatType) (update : UpdateFields) :
    { updateData existing update with text := update.text } = update := by
  unfold updateData
  split_ifs <;> rfl

/-- Neither the title nor a text is named. -/
def UpdateFields.KeepsContent (u : UpdateFields) : Prop :=
  u.title = .unset ∧ ∀ field, u.text field = .unset

instance (u : UpdateFields) : Decidable u.KeepsContent :=
  inferInstanceAs (Decidable (_ ∧ ∀ _ : TextField, _))

/-- Of the updates that are not refused, those that give no format and name neither the title nor
a text leave the content alone. -/
theorem contentChanged_eq_false {existing : ExperienceFormatType} {u : UpdateFields}
    (hchecked : checkFields existing u = .ok ()) :
    contentChanged (effectiveFormatType existing u) (updateData existing u) = false ↔
      u.formatType.get = none ∧ u.KeepsContent := by
  have hunset {α : Type} (g : Given α) : g.isSet = false ↔ g = .unset := by
    cases g <;> simp [Given.isSet]
  have hformat : (updateData existing u).formatType = u.formatType := by
    unfold updateData
    split_ifs <;> rfl
  have htitle : (updateData existing u).title = u.title := by
    unfold updateData
    split_ifs <;> rfl
  simp only [contentChanged, hformat, htitle, Bool.or_eq_false_iff, hunset,
    List.any_eq_false, Bool.not_eq_true, Option.isSome_eq_false_iff, Option.isNone_iff_eq_none]
  have hsame (hnone : u.formatType.get = none) : effectiveFormatType existing u = existing := by
    rw [effectiveFormatType, hnone, Option.getD_none]
  constructor
  · rintro ⟨⟨htitle, htexts⟩, hnone⟩
    refine ⟨hnone, htitle, fun field => ?_⟩
    by_cases hfield : field ∈ (effectiveFormatType existing u).fields
    · have htext := htexts field hfield
      rwa [updateData, if_pos (hsame hnone)] at htext
    · exact (checkFields_ok.mp hchecked).1 field hfield
  · rintro ⟨hnone, htitle, htexts⟩
    rw [updateData, if_pos (hsame hnone)]
    exact ⟨⟨htitle, fun field _ => htexts field⟩, hnone⟩

/-- An update writes a copy of what it has read with the changes asked for, and new tags and a
new category if it asked for them; the vector is written with the payload or not at all. -/
theorem updateExperience_ok {update : ExperienceUpdate} {a : Attributes}
    (h : updateExperience env db experienceId userId update = .ok (a, db')) :
    ∃ existing, getExperience env db experienceId userId = .ok existing ∧
      checkFields existing.formatType update.1 = .ok () ∧
      (∃ tags category, a =
        { existing.attributes.modelCopy (updateData existing.formatType update.1) with
          updatedAt := env.now, tags, category }) ∧
      ((∃ vector, db' = db.upsert ⟨experienceId, vector, a.modelDump⟩) ∨
        db' = db.setPayload experienceId a.modelDump) := by
  obtain ⟨existing, hexisting, h⟩ := bind_eq_ok.mp h
  obtain ⟨_, hchecked, h⟩ := bind_eq_ok.mp h
  obtain ⟨_, -, h⟩ := bind_eq_ok.mp h
  refine ⟨existing, hexisting, hchecked, ?_⟩
  split_ifs at h
  · obtain ⟨vector, -, h⟩ := bind_eq_ok.mp h
    obtain ⟨_, -, h⟩ := bind_eq_ok.mp h
    rw [pure_eq_ok, Prod.mk.injEq] at h
    obtain ⟨rfl, rfl⟩ := h
    exact ⟨⟨_, _, rfl⟩, .inl ⟨vector, rfl⟩⟩
  · obtain ⟨_, -, h⟩ := bind_eq_ok.mp h
    rw [pure_eq_ok, Prod.mk.injEq] at h
    obtain ⟨rfl, rfl⟩ := h
    exact ⟨⟨_, _, rfl⟩, .inr rfl⟩

/-- An update reads, prepares what it writes without Qdrant, and writes it. -/
theorem updateExperience_eq (update : ExperienceUpdate) :
    updateExperience env db experienceId userId update = do
      let existing ← getExperience env db experienceId userId
      let (updated, write) ← prepareUpdate env experienceId existing update
      return (updated, write.apply db) := by
  simp only [updateExperience, prepareUpdate, bind_assoc]
  refine bind_congr fun existing => bind_congr fun _ => bind_congr fun _ => ?_
  split_ifs <;> simp only [bind_assoc] <;> rfl

/-- The attributes an update prepares from what it has read. -/
def updatedAttributes (env : Env V) (existing : Experience) (update : UpdateFields) : Attributes :=
  { existing.attributes.modelCopy (updateData existing.formatType update) with
    updatedAt := env.now }

/-- An update that leaves the content alone keeps the title and the texts, and takes at most the
format away. -/
theorem updatedAttributes_of_keepsContent (env : Env V) (existing : Experience) {u : UpdateFields}
    (h : u.formatType.get = none ∧ u.KeepsContent) :
    (updatedAttributes env existing u).title = some existing.title ∧
      (updatedAttributes env existing u).text = existing.text ∧
      (updatedAttributes env existing u).formatType =
        if u.formatType = .null then none else some existing.formatType := by
  obtain ⟨hnone, htitle, htexts⟩ := h
  have heffective : effectiveFormatType existing.formatType u = existing.formatType := by
    rw [effectiveFormatType, hnone, Option.getD_none]
  have hdata : updateData existing.formatType u = u := by
    rw [updateData, if_pos heffective]
  simp only [updatedAttributes, hdata, Attributes.modelCopy, htitle, htexts]
  refine ⟨rfl, rfl, ?_⟩
  cases hformat : u.formatType with
  | unset => rfl
  | null => rfl
  | value format =>
    rw [hformat] at hnone
    cases hnone

theorem checkFields_of_prepareUpdate {existing : Experience} {update : ExperienceUpdate}
    {a : Attributes} {write : Write V}
    (h : prepareUpdate env experienceId existing update = .ok (a, write)) :
    checkFields existing.formatType update.1 = .ok () := by
  obtain ⟨_, hchecked, -⟩ := bind_eq_ok.mp h
  exact hchecked

/-- A changed content is written with the vector of the new text, anything else without. -/
theorem prepareUpdate_ok {existing : Experience} {update : ExperienceUpdate} {a : Attributes}
    {write : Write V}
    (h : prepareUpdate env experienceId existing update = .ok (a, write)) :
    (contentChanged (effectiveFormatType existing.formatType update.1)
        (updateData existing.formatType update.1) = true ∧
      (∃ tags category,
        a = { updatedAttributes env existing update.1 with tags, category }) ∧
      ∃ vector, env.services.embed (combineTextForEmbedding a) = .ok vector ∧
        write = .upsert ⟨experienceId, vector, a.modelDump⟩) ∨
    (contentChanged (effectiveFormatType existing.formatType update.1)
        (updateData existing.formatType update.1) = false ∧
      a = updatedAttributes env existing update.1 ∧
      write = .setPayload experienceId a.modelDump) := by
  obtain ⟨_, -, h⟩ := bind_eq_ok.mp h
  obtain ⟨_, -, h⟩ := bind_eq_ok.mp h
  split_ifs at h with hchanged
  · obtain ⟨vector, hvector, h⟩ := bind_eq_ok.mp h
    obtain ⟨_, -, h⟩ := bind_eq_ok.mp h
    rw [pure_eq_ok, Prod.mk.injEq] at h
    obtain ⟨rfl, rfl⟩ := h
    exact .inl ⟨hchanged, ⟨_, _, rfl⟩, vector, embed_eq_ok.mp hvector, rfl⟩
  · obtain ⟨_, -, h⟩ := bind_eq_ok.mp h
    rw [pure_eq_ok, Prod.mk.injEq] at h
    obtain ⟨rfl, rfl⟩ := h
    exact .inr ⟨Bool.eq_false_iff.mpr hchanged, rfl, rfl⟩

end Logit.Experiences
