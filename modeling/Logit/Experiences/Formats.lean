import Logit.Experiences.ReadBack

/-!
# Experiences keep to their format

An experience should tell all texts of its format and none of the others. A creation checks
that the texts of its format are there but stores whatever texts it is given; an update
refuses the texts of other formats but lets one of its own be blank or null, and the format
be null, which is stored as null if the content changes and read as STAR otherwise. So after a
run of accepted requests everything stored keeps to its format exactly when none of them did
so, but for a null format alone where it was STAR.

## Main definitions

* `Body` — what an experience tells: the texts of a format and no others
* `Formatted` — a payload that tells a body
* `CreateFields.KeepsFormat`, `UpdateFields.KeepsFormat` — bodies of requests that name no
  text of another format, and that take no text and no format away

## Main results

* `exists_tells_modelCopy` — what an update does to what an experience tells
* `formatted_iff_keepsFormat` — what a run does
-/

namespace Logit.Experiences

open Calendar Python

variable {V : Type}

/-! ## What an experience tells -/

/-- All texts of a format, and none of the others. -/
structure Body where
  format : ExperienceFormatType
  text : TextField → Option String
  own : ∀ field ∈ format.fields, truthy (text field) = true
  others : ∀ field ∉ format.fields, text field = none

/-- The attributes of an experience that tells a body. -/
def Attributes.Tells (a : Attributes) (body : Body) : Prop :=
  a.formatType = some body.format ∧ a.text = body.text

/-- All fields of the format have a text, and the fields of the others have none. -/
def Formatted (payload : Payload) : Prop :=
  ∃ format : ExperienceFormatType,
    (payload.filled .formatType).get = some (StrEnum.value format) ∧
      (∀ field ∈ format.fields, truthy (payload (.text field)).get = true) ∧
      ∀ field ∉ format.fields, (payload (.text field)).get = none

/-- An object is stored with what it tells. -/
theorem formatted_modelDump {a : Attributes} : Formatted a.modelDump ↔ ∃ body, a.Tells body := by
  simp only [Formatted, Attributes.filled_modelDump, Attributes.modelDump, Given.get_ofOption,
    Option.map_eq_some_iff]
  constructor
  · rintro ⟨format, ⟨stored, hstored, hvalue⟩, hown, hothers⟩
    obtain rfl := StrEnum.value_injective hvalue
    exact ⟨⟨stored, a.text, hown, hothers⟩, hstored, rfl⟩
  · rintro ⟨body, hformat, htext⟩
    exact ⟨body.format, ⟨_, hformat, rfl⟩, htext ▸ body.own, htext ▸ body.others⟩

/-- Over another object, one without a format is stored as STAR. -/
theorem formatted_withoutNulls {a : Attributes} :
    Formatted a.withoutNulls ↔ ∃ body, a.defaulted.Tells body := by
  have htext (field : TextField) :
      (a.withoutNulls (.text field)).get = (a.defaulted.modelDump (.text field)).get := by
    simp [Attributes.withoutNulls, Attributes.modelDump, Attributes.defaulted]
  simp only [← formatted_modelDump, Formatted, Attributes.filled_withoutNulls,
    Attributes.filled_modelDump, htext]

/-- Reading what is stored gives what it tells. -/
theorem exists_tells_of_ofPayload? {fresh : Fresh} {payload : Payload} {e : Experience}
    (hread : Experience.ofPayload? fresh payload = some e) (h : Formatted payload) :
    ∃ body, e.attributes.Tells body := by
  obtain ⟨format, hformat, hown, hothers⟩ := h
  obtain ⟨a, ha, hvalid⟩ := Option.bind_eq_some_iff.mp hread
  obtain ⟨hread, htext⟩ := Payload.told_of_attributes ha
  rw [Attributes.validate_eq_some.mp hvalid]
  refine ⟨⟨format, a.text, htext ▸ hown, htext ▸ hothers⟩, ?_, rfl⟩
  rw [Payload.filled] at hformat
  rw [Given.eq_value_of_get hformat, Given.optional, StrEnum.ofValue?_value] at hread
  exact (Option.some.inj hread).symm

/-! ## Bodies that keep the format -/

/-- No text of another format is given; blank ones count as none. -/
def CreateFields.KeepsFormat (c : CreateFields) : Prop :=
  ∀ field, field ∉ c.formatType.fields → (c.text field).bind emptyStrToNone = none

/-- No text is set to null, blank ones included, and the format only where it is STAR and the
content stays. -/
def UpdateFields.KeepsFormat (existing : Experience) (u : UpdateFields) : Prop :=
  (u.formatType = .null → existing.formatType = .star ∧ u.KeepsContent) ∧
    ∀ field, emptyStrToNull (u.text field) ≠ .null

instance (c : CreateFields) : Decidable c.KeepsFormat :=
  inferInstanceAs (Decidable (∀ _ : TextField, _ → _))

/-- A request that keeps the format of what it finds. -/
def Call.KeepsFormat (db : Collection V) : Call V → Prop
  | create _ _ body => body.KeepsFormat
  | update env experienceId userId body =>
    ∀ existing, getExperience env db experienceId userId = .ok existing →
      body.KeepsFormat existing

/-! ## What one request does -/

/-- A text is of one format only. -/
theorem ExperienceFormatType.eq_of_mem_fields {format other : ExperienceFormatType}
    {field : TextField} (h : field ∈ format.fields) (hother : field ∈ other.fields) :
    format = other := by
  revert h hother
  cases format <;> cases other <;> cases field <;> decide

/-- The texts tell the format. -/
theorem Body.format_eq_of_text_eq {body other : Body} (h : body.text = other.text) :
    body.format = other.format := by
  obtain ⟨field, hfield⟩ : ∃ field, field ∈ body.format.fields := by
    cases body.format <;> simp [ExperienceFormatType.fields]
  have hown := body.own field hfield
  by_cases hother : field ∈ other.format.fields
  · exact ExperienceFormatType.eq_of_mem_fields hfield hother
  · rw [h, other.others field hother] at hown
    cases hown

/-- A text that is there stays just when it is not set to null. -/
theorem truthy_replacing {old : Option String} {g : Given String}
    (hold : g = .unset → truthy old = true) (hvalue : ∀ value ∈ g.get, 1 ≤ value.length) :
    truthy (g.replacing old) = true ↔ g ≠ .null := by
  cases g with
  | unset => simp [Given.replacing, hold rfl]
  | null => simp [Given.replacing, truthy]
  | value text =>
    have hlength := hvalue text rfl
    have hne : text ≠ "" := by
      rintro rfl
      exact absurd hlength (by decide)
    simp [Given.replacing, truthy, hne]

/-- The texts of the new format are changed as asked for. -/
theorem text_updateData_of_mem {existing : ExperienceFormatType} {update : UpdateFields}
    {field : TextField} (h : field ∈ (effectiveFormatType existing update).fields) :
    (updateData existing update).text field = update.text field := by
  unfold updateData
  split_ifs with hsame
  · rfl
  · have hother : field ∉ existing.fields := fun hfield =>
      hsame (ExperienceFormatType.eq_of_mem_fields h hfield)
    exact if_neg hother

theorem text_modelCopy (existing : Experience) (u : UpdateFields) (field : TextField) :
    (existing.attributes.modelCopy u).text field =
      (u.text field).replacing (existing.text field) := rfl

/-- The other texts go, whether they were there or not. -/
theorem text_modelCopy_of_not_mem {existing : Experience} {told : Body} {update : UpdateFields}
    (htold : existing.attributes.Tells told) {field : TextField}
    (h : field ∉ (effectiveFormatType existing.formatType update).fields)
    (hunset : update.text field = .unset) :
    (existing.attributes.modelCopy (updateData existing.formatType update)).text field = none := by
  have hformat : existing.formatType = told.format := Option.some.inj htold.1
  have htext : existing.text = told.text := htold.2
  rw [text_modelCopy, htext, updateData]
  by_cases hfield : field ∈ existing.formatType.fields
  · -- A text of the old format is cleared with it.
    have hchanged : effectiveFormatType existing.formatType update ≠ existing.formatType :=
      fun hsame => h (hsame.symm ▸ hfield)
    rw [if_neg hchanged]
    simp only
    rw [if_pos hfield, hunset]
    rfl
  · have hnone := told.others field (hformat ▸ hfield)
    split_ifs <;> simp [hfield, hunset, hnone, Given.replacing]

/-- Unless the format is set to null, it is the one that the texts are checked for. -/
theorem formatType_modelCopy {existing : Experience} {update : UpdateFields}
    {format : ExperienceFormatType} :
    (existing.attributes.modelCopy (updateData existing.formatType update)).formatType =
        some format ↔
      update.formatType ≠ .null ∧ effectiveFormatType existing.formatType update = format := by
  have hdata : (updateData existing.formatType update).formatType = update.formatType := by
    unfold updateData
    split_ifs <;> rfl
  simp only [Attributes.modelCopy, hdata, effectiveFormatType, Experience.attributes]
  cases update.formatType <;> simp [Given.replacing, Given.get]

/-- A creation tells a body just when it is given no text of another format. -/
theorem exists_tells_create {create : ExperienceCreate} {e : Experience}
    (hformat : e.formatType = create.1.formatType) (htext : e.text = create.1.text) :
    (∃ body, e.attributes.Tells body) ↔
      ∀ field ∉ create.1.formatType.fields, create.1.text field = none := by
  constructor
  · rintro ⟨body, hbody, hbodyText⟩ field hfield
    have hsame : e.formatType = body.format := Option.some.inj hbody
    rw [← hformat, hsame] at hfield
    rw [← htext, show e.text = body.text from hbodyText]
    exact body.others field hfield
  · intro hothers
    obtain ⟨-, -, -, hown⟩ := create.2
    exact ⟨⟨_, _, hown, hothers⟩, congrArg some hformat, htext⟩

/-- A text of the new format is there just when it is not set to null. -/
theorem truthy_text_modelCopy {existing : Experience} {told : Body} {update : UpdateFields}
    (htold : existing.attributes.Tells told)
    (hchecked : checkFields existing.formatType update = .ok ())
    (hvalues : ∀ field, ∀ value ∈ (update.text field).get, 1 ≤ value.length) {field : TextField}
    (h : field ∈ (effectiveFormatType existing.formatType update).fields) :
    truthy ((existing.attributes.modelCopy
      (updateData existing.formatType update)).text field) = true ↔
        update.text field ≠ .null := by
  have hformat : existing.formatType = told.format := Option.some.inj htold.1
  have htext : existing.text = told.text := htold.2
  rw [text_modelCopy, htext, text_updateData_of_mem h]
  refine truthy_replacing (fun hnone => ?_) (hvalues field)
  obtain ⟨-, hsame | hall⟩ := checkFields_ok.mp hchecked
  · rw [hsame, hformat] at h
    exact told.own field h
  · -- A change of format gives all texts of the new one.
    have hgiven := hall field h
    rw [hnone] at hgiven
    cases hgiven

/-- An update that is not refused leaves an experience that tells a body just when it sets
neither the format nor a text to null. -/
theorem exists_tells_modelCopy {existing : Experience} {told : Body} {update : UpdateFields}
    (htold : existing.attributes.Tells told)
    (hchecked : checkFields existing.formatType update = .ok ())
    (hvalues : ∀ field, ∀ value ∈ (update.text field).get, 1 ≤ value.length) :
    (∃ body, (existing.attributes.modelCopy (updateData existing.formatType update)).Tells body) ↔
      update.formatType ≠ .null ∧ ∀ field, update.text field ≠ .null := by
  obtain ⟨hunset, -⟩ := checkFields_ok.mp hchecked
  have hown (field : TextField)
      (hfield : field ∈ (effectiveFormatType existing.formatType update).fields) :=
    truthy_text_modelCopy htold hchecked hvalues hfield
  constructor
  · rintro ⟨body, hbody, hbodyText⟩
    obtain ⟨hnull, heffective⟩ := formatType_modelCopy.mp hbody
    refine ⟨hnull, fun field => ?_⟩
    by_cases hfield : field ∈ (effectiveFormatType existing.formatType update).fields
    · rw [← hown field hfield, hbodyText]
      rw [heffective] at hfield
      exact body.own field hfield
    · -- The texts of other formats are not even named.
      rw [hunset field hfield]
      simp
  · rintro ⟨hnull, hnulls⟩
    exact ⟨⟨_, _, fun field hfield => (hown field hfield).mpr (hnulls field), fun field hfield =>
      text_modelCopy_of_not_mem htold hfield (hunset field hfield)⟩,
      formatType_modelCopy.mpr ⟨hnull, rfl⟩, rfl⟩

/-! ## Runs -/

variable {db after : Collection V} {a : Attributes}

/-- An update that leaves the content alone tells the same texts, and keeps the format unless it
sets another one than STAR to null. -/
theorem exists_tells_defaulted {env : Env V} {existing : Experience} {told : Body}
    {u : UpdateFields} (htold : existing.attributes.Tells told)
    (hcontent : u.formatType.get = none ∧ u.KeepsContent) :
    (∃ body, (updatedAttributes env existing u).defaulted.Tells body) ↔
      (u.formatType = .null → existing.formatType = .star) := by
  obtain ⟨htoldFormat, htoldText⟩ := htold
  obtain ⟨-, htext, hformat⟩ := updatedAttributes_of_keepsContent env existing hcontent
  have hsame : existing.formatType = told.format := Option.some.inj htoldFormat
  have hkept : (∃ body, (updatedAttributes env existing u).defaulted.Tells body) ↔
      (updatedAttributes env existing u).defaulted.formatType = some told.format := by
    constructor
    · rintro ⟨body, hbodyFormat, hbodyText⟩
      have htexts : body.text = told.text := hbodyText.symm.trans (htext.trans htoldText)
      rw [hbodyFormat, Body.format_eq_of_text_eq htexts]
    · intro hgiven
      exact ⟨told, hgiven, htext.trans htoldText⟩
  rw [hkept, Attributes.defaulted, hformat, hsame]
  split_ifs with hnull
  · simp [hnull, eq_comm]
  · simp [hnull]

/-- A body keeps the format of the experience that is read. -/
theorem Call.keepsFormat_update {env : Env V} {experienceId userId : UUID} {body : UpdateFields}
    {existing : Experience} {checked : ExperienceUpdate}
    (hexisting : getExperience env db experienceId userId = .ok existing)
    (hbody : ExperienceUpdate.ofBody? body = some checked) :
    (update env experienceId userId body).KeepsFormat db ↔
      (checked.1.formatType = .null → existing.formatType = .star ∧ checked.1.KeepsContent) ∧
        ∀ field, checked.1.text field ≠ .null := by
  have hread : (update env experienceId userId body).KeepsFormat db ↔
      body.KeepsFormat existing := by
    refine ⟨fun hkeeps => hkeeps existing hexisting, fun hkeeps other hother => ?_⟩
    rwa [← Except.ok.inj (hexisting.symm.trans hother)]
  have hcontent := UpdateFields.keepsContent_ofBody? hbody
  rw [hread, UpdateFields.KeepsFormat, ← hcontent, ExperienceUpdate.eq_of_ofBody? hbody]

/-- Where all payloads keep to their formats, an accepted request keeps them so just when its
body keeps the format. -/
theorem Call.formatted_iff {call : Call V} (h : call.perform db = some (a, after))
    (hdb : ∀ point ∈ db, Formatted point.payload) :
    (∀ point ∈ after, Formatted point.payload) ↔ call.KeepsFormat db := by
  cases call with
  | create env userId body =>
    obtain ⟨create, e, hbody, hcreated, rfl⟩ := create_ok h
    obtain ⟨⟨hformat, htext⟩, vector, rfl⟩ := createExperience_ok hcreated
    rw [(writes_upsert db _).forall_iff hdb, formatted_modelDump,
      exists_tells_create hformat htext, ExperienceCreate.eq_of_ofBody? hbody]
    exact Iff.rfl
  | update env experienceId userId body =>
    obtain ⟨update, existing, write, hbody, hexisting, hprepared, rfl⟩ := update_writes h
    obtain ⟨point, hpoint, hread⟩ := getExperience_ok hexisting
    obtain ⟨told, htold⟩ :=
      exists_tells_of_ofPayload? hread (hdb point (List.mem_of_find?_eq_some hpoint))
    rw [keepsFormat_update hexisting hbody]
    rcases writes_prepareUpdate hexisting hprepared with
      ⟨hchanged, ⟨tags, category, rfl⟩, hwrites⟩ | ⟨hcontent, rfl, hwrites⟩
    · obtain ⟨-, htexts, -⟩ := update.2
      have htells := exists_tells_modelCopy htold (checkFields_of_prepareUpdate hprepared)
        fun field value hvalue => (htexts field value hvalue).1
      rw [hwrites.forall_iff hdb, formatted_modelDump,
        ← UpdateFields.formatType_ne_null_iff hchanged And.right]
      exact htells
    · rw [hwrites.forall_iff hdb, formatted_withoutNulls, exists_tells_defaulted htold hcontent]
      have htexts (field : TextField) : update.1.text field ≠ .null := by
        rw [hcontent.2.2 field]
        simp
      simp only [hcontent.2, htexts, and_true, ne_eq, not_false_eq_true, implies_true]

/-- Over a run of accepted requests, everything stored has all texts of its format and none of
the others all the time just when no creation gives a text of another format and no update sets
a text to null, nor the format unless it finds STAR and leaves the content alone. -/
theorem formatted_iff_keepsFormat {calls : List (Call V)} {reached : List (Collection V)}
    (h : run [] calls = some reached) :
    (∀ db ∈ reached, ∀ point ∈ db, Formatted point.payload) ↔
      ∀ step ∈ reached.zip calls, step.2.KeepsFormat step.1 :=
  forall_run_iff (K := Call.KeepsFormat) Call.formatted_iff
    (fun _ hpoint => absurd hpoint List.not_mem_nil) h

/-! ## A note told again -/

/-- A body that gives texts, and perhaps a format. -/
def rewritten (format : Given ExperienceFormatType) (text : TextField → Given String) :
    UpdateFields :=
  { retitled .unset with formatType := format, text }

/-- A user writes a note and tells it again as a problem, its solution and an insight. -/
def retold : List (Call (List ℤ)) :=
  [.create calm 7 note, .update calm 1 7 (rewritten (.value .psi) fun
    | .problem => .value "일손이 부족했다"
    | .solution => .value "이웃을 모았다"
    | .insight => .value "함께하면 된다"
    | _ => .unset)]

/-- A user writes a note and sets its only text to a blank. -/
def blanked : List (Call (List ℤ)) :=
  [.create calm 7 note, .update calm 1 7 (rewritten .unset fun field =>
    if field = .content then .value " " else .unset)]

/-- A user writes a note that has a problem too. -/
def strayed : List (Call (List ℤ)) :=
  [.create calm 7 { note with text := fun field =>
    if field = .content ∨ field = .problem then some "일손이 부족했다" else none }]

/-- The note told again has the texts of its new format only. -/
theorem formatted_iff_keepsFormat_retold : ∃ reached, run [] retold = some reached ∧
    ∀ db ∈ reached, ∀ point ∈ db, Formatted point.payload := by
  obtain ⟨reached, hrun⟩ := Option.isSome_iff_exists.mp
    (show (run [] retold).isSome = true by decide +kernel)
  refine ⟨reached, hrun, (formatted_iff_keepsFormat hrun).mpr fun step hstep => ?_⟩
  have hcall := (List.of_mem_zip hstep).2
  simp only [retold, List.mem_cons, List.not_mem_nil, or_false] at hcall
  rcases hcall with h | h <;> rw [h]
  · exact (by decide +kernel : note.KeepsFormat)
  · intro existing _
    refine ⟨fun hnull => ?_, by decide +kernel⟩
    cases hnull

/-- Where a request of an accepted run does not keep the format, what it stores does not. -/
theorem not_formatted_of_mem {calls : List (Call V)} {call : Call V}
    (hrun : (run [] calls).isSome = true) (hcall : call ∈ calls)
    (hkeeps : ∀ {db after : Collection V} {a : Attributes}, call.perform db = some (a, after) →
      ¬ call.KeepsFormat db) :
    ∃ reached, run [] calls = some reached ∧
      ¬ ∀ db ∈ reached, ∀ point ∈ db, Formatted point.payload := by
  obtain ⟨reached, hreached⟩ := Option.isSome_iff_exists.mp hrun
  refine ⟨reached, hreached, fun hformatted => ?_⟩
  have hall := (forall_run_iff (K := Call.KeepsFormat) Call.formatted_iff
    (fun _ hpoint => absurd hpoint List.not_mem_nil) hreached).mp hformatted
  obtain ⟨db, hmem, a, after, hperform⟩ := exists_perform_of_mem hreached hcall
  exact hkeeps hperform (hall _ hmem)

/-- Both runs are accepted; the first leaves a note without its text, and the second one with
the text of another format. -/
theorem not_formatted :
    (∃ reached, run [] blanked = some reached ∧
      ¬ ∀ db ∈ reached, ∀ point ∈ db, Formatted point.payload) ∧
    ∃ reached, run [] strayed = some reached ∧
      ¬ ∀ db ∈ reached, ∀ point ∈ db, Formatted point.payload := by
  constructor
  · refine not_formatted_of_mem (by decide +kernel)
      (List.mem_cons_of_mem _ (List.mem_singleton_self _)) fun hperform hkeeps => ?_
    obtain ⟨update, existing, write, -, hexisting, -⟩ := Call.update_writes hperform
    exact (hkeeps existing hexisting).2 .content (by decide +kernel)
  · refine not_formatted_of_mem (by decide +kernel) (List.mem_singleton_self _)
      fun _ hkeeps => ?_
    exact absurd (hkeeps .problem (by decide)) (by decide +kernel)

end Logit.Experiences
