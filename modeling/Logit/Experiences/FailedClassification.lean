import Logit.Experiences.Edits

/-!
# Failed classifications

An update of the content asks OpenAI for tags and a category, and is meant to keep the old ones
where that fails. But the function that asks handles every failure itself, with a default, so an
update never learns of one: the default replaces what was stored.

## Main definitions

* `ClassificationFails` — OpenAI does not answer an update, or without content
* `TagsKept` — tags and category are stored as they were
* `StoresDefault` — the default is stored

## Main results

* `default_of_fails` — what a failure leaves
* `tagsKept_iff` — tags and category are kept if and only if they were the default
-/

namespace Logit.Experiences

open Calendar Python

variable {V : Type} {env : Env V} {db db' : Collection V} {experienceId userId : UUID}
  {existing : Experience} {update : ExperienceUpdate} {a : Attributes}

/-- An update changes what the experience is classified by. -/
def ChangesContent (existing : Experience) (update : ExperienceUpdate) : Prop :=
  contentChanged (effectiveFormatType existing.formatType update.1)
    (updateData existing.formatType update.1) = true

/-- The call about the tags and the category raises, or its answer has no content. -/
def ClassificationFails (env : Env V) (existing : Experience) (update : ExperienceUpdate) : Prop :=
  env.services.complete (classificationPrompt (updatedAttributes env existing update.1)) = none

/-- Tags and category are stored after an update as they were before. -/
def TagsKept (db db' : Collection V) (id : UUID) : Prop :=
  ∃ before after, db.retrieve id = some before ∧ db'.retrieve id = some after ∧
    after.payload .tags = before.payload .tags ∧
    after.payload .category = before.payload .category

/-- The default tags and category are stored. -/
def StoresDefault (db : Collection V) (id : UUID) : Prop :=
  ∃ point, db.retrieve id = some point ∧
    point.payload .tags = .value defaultClassification.tags ∧
    point.payload .category = .value (StrEnum.value defaultClassification.category)

/-- A changed content is written with the tags and the category that were asked for. -/
theorem classification_of_prepareUpdate {write : Write V}
    (hchanged : ChangesContent existing update)
    (h : prepareUpdate env experienceId existing update = .ok (a, write)) :
    (⟨a.tags, a.category⟩ : Classification) =
      generateTagsAndCategory env.services (updatedAttributes env existing update.1) := by
  obtain ⟨_, -, h⟩ := bind_eq_ok.mp h
  obtain ⟨_, -, h⟩ := bind_eq_ok.mp h
  split_ifs at h with hcontent
  · obtain ⟨vector, -, h⟩ := bind_eq_ok.mp h
    obtain ⟨_, -, h⟩ := bind_eq_ok.mp h
    rw [pure_eq_ok, Prod.mk.injEq] at h
    obtain ⟨rfl, -⟩ := h
    rfl
  · exact absurd hchanged hcontent

/-- An update of the content whose classification fails stores the default. -/
theorem default_of_fails
    (hexisting : getExperience env db experienceId userId = .ok existing)
    (hchanged : ChangesContent existing update) (hfails : ClassificationFails env existing update)
    (h : updateExperience env db experienceId userId update = .ok (a, db')) :
    StoresDefault db' experienceId := by
  rw [updateExperience_eq] at h
  obtain ⟨read, hread, h⟩ := bind_eq_ok.mp h
  obtain rfl := Except.ok.inj (hexisting.symm.trans hread)
  obtain ⟨⟨updated, write⟩, hprepared, h⟩ := bind_eq_ok.mp h
  obtain ⟨-, rfl⟩ := Prod.mk.inj (pure_eq_ok.mp h)
  obtain ⟨point, hpoint, -⟩ := getExperience_ok hexisting
  obtain ⟨after, hafter, hpayload⟩ := payload_of_prepareUpdate hprepared hpoint
  have hfound := classification_of_prepareUpdate hchanged hprepared
  rw [generateTagsAndCategory, show env.services.complete _ = none from hfails] at hfound
  refine ⟨after, hafter, hpayload _ _ ?_, hpayload _ _ ?_⟩
  · exact congrArg (fun found => Given.value found.tags) hfound
  · exact congrArg (fun found => Given.value (StrEnum.value found.category)) hfound

/-- An update of the content whose classification fails keeps tags and category if and only if
they were the default. -/
theorem tagsKept_iff
    (hexisting : getExperience env db experienceId userId = .ok existing)
    (hchanged : ChangesContent existing update) (hfails : ClassificationFails env existing update)
    (h : updateExperience env db experienceId userId update = .ok (a, db')) :
    TagsKept db db' experienceId ↔ StoresDefault db experienceId := by
  obtain ⟨after, hafter, htags, hcategory⟩ := default_of_fails hexisting hchanged hfails h
  obtain ⟨before, hbefore, -⟩ := getExperience_ok hexisting
  constructor
  · rintro ⟨before', after', hbefore', hafter', hsameTags, hsameCategory⟩
    obtain rfl := Option.some.inj (hafter.symm.trans hafter')
    exact ⟨before', hbefore', hsameTags ▸ htags, hsameCategory ▸ hcategory⟩
  · rintro ⟨before', hbefore', hdefaultTags, hdefaultCategory⟩
    exact ⟨before', after, hbefore', hafter, htags.trans hdefaultTags.symm,
      hcategory.trans hdefaultCategory.symm⟩

/-! ### A new title -/

/-- What is stored of an experience with some tags and a category. -/
def storedNote (found : Classification) : Collection (List ℤ) :=
  [⟨1, [1], Attributes.modelDump
    { id := UUID.str 1, userId := UUID.str 7, title := some "봉사",
      startDate := some (PyDatetime.utc 2025 6 1 0).date, endDate := none,
      experienceType := some .volunteer, formatType := some .free, category := found.category,
      tags := found.tags,
      text := fun field => if field = .content then some "이웃을 도왔다" else none,
      createdAt := .utc 2026 1 1 9,
      updatedAt := .utc 2026 1 1 9 }⟩]

/-- A new title that is accepted while OpenAI gives no tags. -/
theorem exists_retitled {found : Classification}
    (h : ((Call.update calm 1 7 (retitled (.value "나눔"))).perform (storedNote found)).isSome =
      true) :
    ∃ update existing a db', getExperience calm (storedNote found) 1 7 = .ok existing ∧
      ChangesContent existing update ∧ ClassificationFails calm existing update ∧
      updateExperience calm (storedNote found) 1 7 update = .ok (a, db') := by
  obtain ⟨⟨a, db'⟩, hperform⟩ := Option.isSome_iff_exists.mp h
  obtain ⟨update, hupdate, hok⟩ := Call.update_ok hperform
  obtain ⟨existing, hexisting, -⟩ := updateExperience_ok hok
  have htitle : (updateData existing.formatType update.1).title = .value "나눔" := by
    have hsame := congrArg UpdateFields.title (updateData_eq existing.formatType update.1)
    exact hsame.trans (congrArg UpdateFields.title (ExperienceUpdate.eq_of_ofBody? hupdate))
  refine ⟨update, existing, a, db', hexisting, ?_, rfl, hok⟩
  rw [ChangesContent, contentChanged, htitle]
  rfl

theorem tagsKept_iff_default : ∃ db', TagsKept (storedNote defaultClassification) db' 1 := by
  obtain ⟨update, existing, a, db', hexisting, hchanged, hfails, hok⟩ :=
    exists_retitled (show ((Call.update calm 1 7 (retitled (.value "나눔"))).perform
      (storedNote defaultClassification)).isSome = true by decide +kernel)
  exact ⟨db', (tagsKept_iff hexisting hchanged hfails hok).mpr ⟨_, rfl, rfl, rfl⟩⟩

/-- The tag of an experience about programming is replaced. -/
theorem not_tagsKept : ¬ ∀ (env : Env (List ℤ)) (db db' : Collection (List ℤ))
    (experienceId userId : UUID) (existing : Experience) (update : ExperienceUpdate)
    (a : Attributes), getExperience env db experienceId userId = .ok existing →
    ChangesContent existing update → ClassificationFails env existing update →
    updateExperience env db experienceId userId update = .ok (a, db') →
    TagsKept db db' experienceId := by
  intro h
  obtain ⟨update, existing, a, db', hexisting, hchanged, hfails, hok⟩ :=
    exists_retitled (show ((Call.update calm 1 7 (retitled (.value "나눔"))).perform
      (storedNote ⟨"백엔드", .technicalProficiency⟩)).isSome = true by decide +kernel)
  obtain ⟨before, after, hbefore, hafter, htags, -⟩ :=
    h _ _ _ _ _ _ _ _ hexisting hchanged hfails hok
  obtain ⟨after', hafter', hdefault, -⟩ := default_of_fails hexisting hchanged hfails hok
  obtain rfl := Option.some.inj (hafter'.symm.trans hafter)
  obtain rfl := Option.some.inj hbefore
  have hreplaced : Given.value "백엔드" = Given.value "문제해결" := htags.symm.trans hdefault
  exact absurd (Given.value.inj hreplaced) (by decide)

end Logit.Experiences
