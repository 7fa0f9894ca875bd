import Logit.Experiences.Service

/-!
# Reading stored experiences back

An update stores a copy of what it has read, changed by a body in which every field may be
null, and nothing checks the copy. The model that reads it takes no null for the title, the
start date, the type or the format; only a format that is missing is read as STAR, and it is
missing where a null is written with the payload alone. So after a run of accepted requests
everything stored can be read exactly when none of them set one of the first three to null,
nor the format together with a new title or a text; until then every list, every search and
every report of the user works, and from then on none does.

## Main definitions

* `Call`, `run` — requests, and the collections a run of accepted requests goes through
* `ReadsBack` — a payload that is accepted with the values stored
* `Served` — a collection all reads of which work
* `UpdateFields.KeepsRequired` — a body that stores no null for a required field

## Main results

* `Call.readsBack_iff` — what one accepted request does to what is stored
* `served_iff_keepsRequired` — what a run does
-/

namespace Logit.Experiences

open Calendar Python

variable {V : Type}

/-! ## Requests -/

inductive Call (V : Type)
  | create (env : Env V) (userId : UUID) (body : CreateFields)
  | update (env : Env V) (experienceId userId : UUID) (body : UpdateFields)

/-- The attributes a request returns, and the collection it leaves; `none` if its body does
not pass validation or the service refuses it. -/
def Call.perform (db : Collection V) : Call V → Option (Attributes × Collection V)
  | create env userId body => do
    let create ← ExperienceCreate.ofBody? body
    let (experience, db) ← (createExperience env db userId create).toOption
    return (experience.attributes, db)
  | update env experienceId userId body => do
    let update ← ExperienceUpdate.ofBody? body
    (updateExperience env db experienceId userId update).toOption

/-- The collections a run goes through, if every request of it is accepted. -/
def run (db : Collection V) : List (Call V) → Option (List (Collection V))
  | [] => some [db]
  | call :: calls => do
    let (_, after) ← call.perform db
    let reached ← run after calls
    return db :: reached

/-- No title, start date or type is set to null, and a format only if the content stays. -/
def UpdateFields.KeepsRequired (u : UpdateFields) : Prop :=
  u.title ≠ .null ∧ u.startDate ≠ .null ∧ u.experienceType ≠ .null ∧
    (u.formatType = .null → u.KeepsContent)

instance (u : UpdateFields) : Decidable u.KeepsRequired :=
  inferInstanceAs (Decidable (_ ∧ _ ∧ _ ∧ (_ → _)))

def Call.KeepsRequired : Call V → Prop
  | create _ _ _ => True
  | update _ _ _ body => body.KeepsRequired

/-! ## Reads that work -/

/-- Reading a payload is accepted, and gives the values that are stored and the defaults of the
fields that are not. -/
def ReadsBack (payload : Payload) : Prop :=
  ∃ e : Experience, (∀ fresh, Experience.ofPayload? fresh payload = some e) ∧
    e.attributes.modelDump = payload.filled

/-- Every payload reads back, and so do the functions that read. The last of them stands for
those that turn what Qdrant finds into experiences: searching, matching a question and the
reports. -/
structure Served (db : Collection V) : Prop where
  readsBack : ∀ point ∈ db, ReadsBack point.payload
  get : ∀ (env : Env V) experienceId userId point, env.outage .retrieve = none →
    db.retrieve experienceId = some point → (point.payload .userId).get = some userId.str →
    ∃ e, getExperience env db experienceId userId = .ok e
  list : ∀ (env : Env V) userId limit offset, (∀ call, env.outage call = none) →
    ∃ page, listExperiences env db userId limit offset = .ok page
  found : ∀ fresh (points : List (Point V)), points ⊆ db →
    ∃ experiences, experiencesOf fresh points = some experiences

instance : Nonempty Fresh := ⟨⟨"", ⟨Datetime.utc 1 1 1 0, by decide⟩⟩⟩

/-- What attributes are written as reads back just when they are valid. -/
theorem readsBack_modelDump {a : Attributes} :
    ReadsBack a.modelDump ↔ a.validate.isSome = true := by
  constructor
  · rintro ⟨e, hread, -⟩
    obtain ⟨fresh⟩ : Nonempty Fresh := inferInstance
    rw [← Experience.ofPayload?_modelDump fresh, hread fresh]
    rfl
  · intro h
    obtain ⟨e, he⟩ := Option.isSome_iff_exists.mp h
    refine ⟨e, fun fresh => ?_, ?_⟩
    · rw [Experience.ofPayload?_modelDump, he]
    · rw [Attributes.validate_eq_some.mp he, Attributes.filled_modelDump]

/-- What they leave over another object does so even without a format. -/
theorem readsBack_withoutNulls {a : Attributes} :
    ReadsBack a.withoutNulls ↔ a.defaulted.validate.isSome = true := by
  constructor
  · rintro ⟨e, hread, -⟩
    obtain ⟨fresh⟩ : Nonempty Fresh := inferInstance
    rw [← Experience.ofPayload?_withoutNulls fresh, hread fresh]
    rfl
  · intro h
    obtain ⟨e, he⟩ := Option.isSome_iff_exists.mp h
    refine ⟨e, fun fresh => ?_, ?_⟩
    · rw [Experience.ofPayload?_withoutNulls, he]
    · rw [Attributes.validate_eq_some.mp he, Attributes.filled_withoutNulls]

theorem experiencesOf_of_readsBack (fresh : Fresh) {points : List (Point V)}
    (h : ∀ point ∈ points, ReadsBack point.payload) :
    ∃ experiences, experiencesOf fresh points = some experiences := by
  induction points with
  | nil => exact ⟨[], rfl⟩
  | cons point points ih =>
    obtain ⟨e, hread, -⟩ := h point List.mem_cons_self
    obtain ⟨rest, hrest⟩ := ih fun p hp => h p (List.mem_cons_of_mem _ hp)
    refine ⟨e :: rest, ?_⟩
    rw [experiencesOf] at hrest ⊢
    simp [List.mapM_cons, hread fresh, hrest]

/-- A page is made of points of the collection. -/
theorem newestFirst_take_subset (db : Collection V) (userId : UUID) (count : ℕ) :
    (db.ofUser userId).newestFirst.take count ⊆ db := by
  intro point hpoint
  have hsorted := List.mem_of_mem_take hpoint
  have huser := (List.perm_insertionSort _ _).mem_iff.mp hsorted
  exact List.mem_of_mem_filter huser

/-- Where every payload reads back, all reads work. -/
theorem served_iff {db : Collection V} : Served db ↔ ∀ point ∈ db, ReadsBack point.payload := by
  refine ⟨Served.readsBack, fun h => ⟨h, ?_, ?_, fun fresh points hpoints =>
    experiencesOf_of_readsBack fresh fun point hpoint => h point (hpoints hpoint)⟩⟩
  · intro env experienceId userId point houtage hpoint huser
    obtain ⟨e, hread, -⟩ := h point (List.mem_of_find?_eq_some hpoint)
    refine ⟨e, ?_⟩
    simp only [getExperience, Env.reach, houtage, hpoint, huser, hread, ne_eq, not_true_eq_false,
      if_false]
    rfl
  · intro env userId limit offset houtage
    by_cases hbeyond : (db.ofUser userId).length ≤ offset
    · refine ⟨([], (db.ofUser userId).length), ?_⟩
      simp only [listExperiences, Env.reach, houtage, hbeyond]
      rfl
    · obtain ⟨experiences, hread⟩ := experiencesOf_of_readsBack env.fresh
        fun point hpoint => h point (newestFirst_take_subset db userId
          (min (limit + offset) (db.ofUser userId).length) hpoint)
      refine ⟨((experiences.drop offset).take limit, (db.ofUser userId).length), ?_⟩
      simp only [listExperiences, Env.reach, houtage, hbeyond, hread]
      rfl

/-! ## What one request writes -/

/-- One payload has been written, and all others are as they were. -/
structure Writes (db after : Collection V) (payload : Payload) : Prop where
  old : ∀ point ∈ after, point ∈ db ∨ point.payload = payload
  new : ∃ point ∈ after, point.payload = payload

variable {db after : Collection V} {a : Attributes}

theorem writes_upsert (db : Collection V) (point : Point V) :
    Writes db (db.upsert point) point.payload where
  old q hq := by
    rcases List.mem_append.mp hq with hold | hnew
    · exact .inl (List.mem_of_mem_filter hold)
    · exact .inr (List.mem_singleton.mp hnew ▸ rfl)
  new := ⟨point, List.mem_append_right _ (List.mem_singleton_self point), rfl⟩

theorem writes_setPayload {id : UUID} {point : Point V} (h : db.retrieve id = some point)
    (a : Attributes) : Writes db (db.setPayload id a.modelDump) a.withoutNulls where
  old q hq := by
    obtain ⟨p, hp, rfl⟩ := List.mem_map.mp hq
    split_ifs with hid
    · exact .inr (p.payload.merge_modelDump a)
    · exact .inl hp
  new := by
    have hid : point.id = id := by simpa using List.find?_some h
    refine ⟨_, List.mem_map_of_mem (List.mem_of_find?_eq_some h), ?_⟩
    rw [if_pos hid]
    exact point.payload.merge_modelDump a

theorem Call.create_ok {env : Env V} {userId : UUID} {body : CreateFields}
    (h : (create env userId body).perform db = some (a, after)) :
    ∃ create e, ExperienceCreate.ofBody? body = some create ∧
      createExperience env db userId create = .ok (e, after) ∧ e.attributes = a := by
  simp only [perform, Option.bind_eq_bind, Option.bind_eq_some_iff, Option.pure_def,
    Option.some.injEq, Prod.mk.injEq] at h
  obtain ⟨create, hcreate, ⟨e, db'⟩, hcreated, rfl, rfl⟩ := h
  refine ⟨create, e, hcreate, ?_, rfl⟩
  cases hresult : createExperience env db userId create with
  | error err =>
    rw [hresult] at hcreated
    cases hcreated
  | ok result =>
    rw [hresult] at hcreated
    cases hcreated
    rfl

theorem Call.update_ok {env : Env V} {experienceId userId : UUID} {body : UpdateFields}
    (h : (update env experienceId userId body).perform db = some (a, after)) :
    ∃ update, ExperienceUpdate.ofBody? body = some update ∧
      updateExperience env db experienceId userId update = .ok (a, after) := by
  simp only [perform, Option.bind_eq_bind, Option.bind_eq_some_iff] at h
  obtain ⟨update, hupdate, hupdated⟩ := h
  refine ⟨update, hupdate, ?_⟩
  cases hresult : updateExperience env db experienceId userId update with
  | error err =>
    rw [hresult] at hupdated
    cases hupdated
  | ok result =>
    rw [hresult] at hupdated
    cases hupdated
    rfl

/-- What an accepted update has read and written. -/
theorem Call.update_writes {env : Env V} {experienceId userId : UUID} {body : UpdateFields}
    (h : (update env experienceId userId body).perform db = some (a, after)) :
    ∃ update existing write, ExperienceUpdate.ofBody? body = some update ∧
      getExperience env db experienceId userId = .ok existing ∧
      prepareUpdate env experienceId existing update = .ok (a, write) ∧
      after = write.apply db := by
  obtain ⟨update, hbody, hupdated⟩ := update_ok h
  rw [updateExperience_eq] at hupdated
  obtain ⟨existing, hexisting, hupdated⟩ := bind_eq_ok.mp hupdated
  obtain ⟨⟨b, write⟩, hprepared, hupdated⟩ := bind_eq_ok.mp hupdated
  rw [pure_eq_ok, Prod.mk.injEq] at hupdated
  obtain ⟨rfl, rfl⟩ := hupdated
  exact ⟨update, existing, write, hbody, hexisting, hprepared, rfl⟩

/-- What an update stores: all attributes if the content has changed, and otherwise those that
are not null. -/
theorem writes_prepareUpdate {env : Env V} {experienceId userId : UUID} {existing : Experience}
    {update : ExperienceUpdate} {write : Write V}
    (hexisting : getExperience env db experienceId userId = .ok existing)
    (h : prepareUpdate env experienceId existing update = .ok (a, write)) :
    ((update.1.formatType.get ≠ none ∨ ¬ update.1.KeepsContent) ∧
      (∃ tags category, a = { updatedAttributes env existing update.1 with tags, category }) ∧
      Writes db (write.apply db) a.modelDump) ∨
    ((update.1.formatType.get = none ∧ update.1.KeepsContent) ∧
      a = updatedAttributes env existing update.1 ∧
      Writes db (write.apply db) a.withoutNulls) := by
  have hcontent := contentChanged_eq_false (checkFields_of_prepareUpdate h)
  rcases prepareUpdate_ok h with ⟨hchanged, ha, vector, -, rfl⟩ | ⟨hunchanged, ha, rfl⟩
  · refine .inl ⟨?_, ha, writes_upsert db _⟩
    rw [← not_and_or, ← hcontent, hchanged]
    decide
  · obtain ⟨point, hpoint, -⟩ := getExperience_ok hexisting
    exact .inr ⟨hcontent.mp hunchanged, ha, writes_setPayload hpoint a⟩

/-- A copy of a checked object is valid just when no required field is without a value: values
that are given have been checked with the body, and the others with the object. -/
theorem validate_modelCopy_isSome (existing : Experience) (update : ExperienceUpdate)
    (a : Attributes)
    (ha : ∃ updatedAt tags category formatType, a =
      { existing.attributes.modelCopy (updateData existing.formatType update.1) with
        updatedAt, tags, category, formatType }) :
    a.validate.isSome = true ↔ update.1.title ≠ .null ∧ update.1.startDate ≠ .null ∧
      update.1.experienceType ≠ .null ∧ a.formatType.isSome = true := by
  obtain ⟨updatedAt, tags, category, formatType, rfl⟩ := ha
  obtain ⟨hlength, htexts, -⟩ := update.2
  have hdata := updateData_eq existing.formatType update.1
  rw [Attributes.validate_isSome]
  constructor
  · rintro ⟨⟨htitle, hstart, htype, hformat⟩, -⟩
    rw [← hdata]
    exact ⟨(Given.replacing_isSome rfl _).mp htitle, (Given.replacing_isSome rfl _).mp hstart,
      (Given.replacing_isSome rfl _).mp htype, hformat⟩
  · intro hkeeps
    rw [← hdata] at hkeeps hlength
    obtain ⟨htitle, hstart, htype, hformat⟩ := hkeeps
    refine ⟨⟨(Given.replacing_isSome rfl _).mpr htitle, (Given.replacing_isSome rfl _).mpr hstart,
      (Given.replacing_isSome rfl _).mpr htype, hformat⟩, ?_, ?_⟩
    · apply Given.replacing_of_forall
      · intro title htitle
        cases htitle
        exact existing.title_length
      · intro title htitle
        exact hlength title (by simp [htitle, Given.get])
    · intro field
      apply Given.replacing_of_forall
      · exact existing.text_length field
      · intro value hvalue
        have hgiven : value ∈ ((updateData existing.formatType update.1).text field).get := by
          simp [hvalue, Given.get]
        exact (htexts field value (text_updateData hgiven)).1

/-- A format is left out of the copy just when it is set to null. -/
theorem formatType_modelCopy_isSome (existing : Experience) (u : UpdateFields) :
    (existing.attributes.modelCopy (updateData existing.formatType u)).formatType.isSome = true ↔
      u.formatType ≠ .null := by
  have hformat : (updateData existing.formatType u).formatType = u.formatType := by
    conv_rhs => rw [← updateData_eq existing.formatType u]
  rw [← hformat]
  exact Given.replacing_isSome (by rfl) _

/-- Blank texts, which count as null, are named all the same. -/
theorem UpdateFields.keepsContent_ofBody? {body : UpdateFields} {update : ExperienceUpdate}
    (h : ExperienceUpdate.ofBody? body = some update) :
    update.1.KeepsContent ↔ body.KeepsContent := by
  rw [ExperienceUpdate.eq_of_ofBody? h]
  refine and_congr_right fun _ => forall_congr' fun field => ?_
  simp only
  cases body.text field with
  | unset => exact Iff.rfl
  | null => exact Iff.rfl
  | value text =>
    rw [emptyStrToNull]
    cases emptyStrToNone text <;> simp [Given.ofOption]

/-! ## Runs -/

/-- What all payloads have, they still have just when the one written has it. -/
theorem Writes.forall_iff {payload : Payload} {P : Payload → Prop}
    (h : Writes db after payload) (hdb : ∀ point ∈ db, P point.payload) :
    (∀ point ∈ after, P point.payload) ↔ P payload := by
  constructor
  · intro hafter
    obtain ⟨point, hpoint, hpayload⟩ := h.new
    exact hpayload ▸ hafter point hpoint
  · intro hnew point hpoint
    rcases h.old point hpoint with hold | hpayload
    · exact hdb point hold
    · exact hpayload ▸ hnew

/-- With a new content a format is set to null just when that breaks what it asks of the content. -/
theorem UpdateFields.formatType_ne_null_iff {u : UpdateFields} {P : Prop}
    (h : u.formatType.get ≠ none ∨ ¬ u.KeepsContent) (hP : P → u.KeepsContent) :
    u.formatType ≠ .null ↔ (u.formatType = .null → P) := by
  refine ⟨fun hne hnull => absurd hnull hne, fun hkeeps hnull => ?_⟩
  rcases h with hgiven | hnamed
  · exact hgiven (by rw [hnull]; rfl)
  · exact hnamed (hP (hkeeps hnull))

theorem UpdateFields.keepsRequired_ofBody? {body : UpdateFields} {update : ExperienceUpdate}
    (h : ExperienceUpdate.ofBody? body = some update) :
    update.1.KeepsRequired ↔ body.KeepsRequired := by
  have hcontent := keepsContent_ofBody? h
  rw [KeepsRequired, hcontent, ExperienceUpdate.eq_of_ofBody? h]
  exact Iff.rfl

/-- Where all payloads read back, an accepted request keeps them so just when it stores no null
for a required field. -/
theorem Call.readsBack_iff {call : Call V} (h : call.perform db = some (a, after))
    (hdb : ∀ point ∈ db, ReadsBack point.payload) :
    (∀ point ∈ after, ReadsBack point.payload) ↔ call.KeepsRequired := by
  cases call with
  | create env userId body =>
    obtain ⟨create, e, -, hcreated, rfl⟩ := create_ok h
    obtain ⟨-, vector, rfl⟩ := createExperience_ok hcreated
    rw [(writes_upsert db _).forall_iff hdb, readsBack_modelDump]
    exact ⟨fun _ => trivial, fun _ => by rw [Attributes.validate_eq_some.mpr rfl]; rfl⟩
  | update env experienceId userId body =>
    obtain ⟨update, existing, write, hbody, hexisting, hprepared, rfl⟩ := update_writes h
    rw [KeepsRequired, ← UpdateFields.keepsRequired_ofBody? hbody]
    rcases writes_prepareUpdate hexisting hprepared with
      ⟨hchanged, ⟨tags, category, ha⟩, hwrites⟩ | ⟨⟨-, hkeeps⟩, ha, hwrites⟩
    · have hvalid := validate_modelCopy_isSome existing update a ⟨_, tags, category, _, ha⟩
      have hformat : a.formatType.isSome = true ↔ update.1.formatType ≠ .null := by
        rw [ha]
        exact formatType_modelCopy_isSome existing update.1
      rw [hwrites.forall_iff hdb, readsBack_modelDump, hvalid, hformat,
        UpdateFields.formatType_ne_null_iff hchanged fun hkeeps => hkeeps]
      exact Iff.rfl
    · -- Without a new content, a format set to null is missing, and read as STAR.
      have hvalid := validate_modelCopy_isSome existing update a.defaulted
        ⟨env.now, existing.tags, existing.category, a.defaulted.formatType, by rw [ha]; rfl⟩
      have hformat : a.defaulted.formatType.isSome = true := rfl
      rw [hwrites.forall_iff hdb, readsBack_withoutNulls, hvalid, UpdateFields.KeepsRequired]
      simp only [hformat, hkeeps, implies_true]

theorem run_cons {call : Call V} {calls : List (Call V)} {reached : List (Collection V)}
    (h : run db (call :: calls) = some reached) :
    ∃ a after rest, call.perform db = some (a, after) ∧ run after calls = some rest ∧
      reached = db :: rest := by
  simp only [run, Option.bind_eq_bind, Option.bind_eq_some_iff, Option.pure_def,
    Option.some.injEq] at h
  obtain ⟨⟨a, after⟩, hperform, rest, hrest, rfl⟩ := h
  exact ⟨a, after, rest, hperform, hrest, rfl⟩

/-- The first collection of a run is the one it starts from. -/
theorem mem_of_run {calls : List (Call V)} {reached : List (Collection V)}
    (h : run db calls = some reached) : db ∈ reached := by
  cases calls with
  | nil =>
    cases h
    exact List.mem_singleton_self db
  | cons call calls =>
    obtain ⟨_, _, rest, -, -, rfl⟩ := run_cons h
    exact List.mem_cons_self

/-- What a request keeps just when it is of some kind where it comes, a run keeps just when all
its requests are. By induction on them: after one that is not, the next collection has a payload
without it. -/
theorem forall_run_iff {P : Payload → Prop} {K : Collection V → Call V → Prop}
    (hstep : ∀ {db after : Collection V} {a : Attributes} {call : Call V},
      call.perform db = some (a, after) → (∀ point ∈ db, P point.payload) →
        ((∀ point ∈ after, P point.payload) ↔ K db call))
    {calls : List (Call V)} {reached : List (Collection V)}
    (hdb : ∀ point ∈ db, P point.payload) (h : run db calls = some reached) :
    (∀ db ∈ reached, ∀ point ∈ db, P point.payload) ↔
      ∀ step ∈ reached.zip calls, K step.1 step.2 := by
  induction calls generalizing db reached with
  | nil =>
    cases h
    simp only [List.zip_nil_right, List.mem_singleton, forall_eq]
    exact ⟨fun _ step hstep => absurd hstep List.not_mem_nil, fun _ => hdb⟩
  | cons call calls ih =>
    obtain ⟨a, after, rest, hperform, hrest, rfl⟩ := run_cons h
    simp only [List.zip_cons_cons, List.forall_mem_cons]
    constructor
    · rintro ⟨-, hreached⟩
      have hafter := hreached after (mem_of_run hrest)
      exact ⟨(hstep hperform hdb).mp hafter, (ih hafter hrest).mp hreached⟩
    · rintro ⟨hcall, hcalls⟩
      exact ⟨hdb, (ih ((hstep hperform hdb).mpr hcall) hrest).mpr hcalls⟩

/-- Each request of a run comes to one of its collections. -/
theorem forall_zip_run_iff {K : Call V → Prop} {calls : List (Call V)}
    {reached : List (Collection V)} (h : run db calls = some reached) :
    (∀ step ∈ reached.zip calls, K step.2) ↔ ∀ call ∈ calls, K call := by
  induction calls generalizing db reached with
  | nil => simp
  | cons call calls ih =>
    obtain ⟨_, after, rest, -, hrest, rfl⟩ := run_cons h
    simp only [List.zip_cons_cons, List.forall_mem_cons, ih hrest]

/-- From a collection all payloads of which read back. -/
theorem served_run_iff {calls : List (Call V)} {reached : List (Collection V)}
    (hdb : ∀ point ∈ db, ReadsBack point.payload) (h : run db calls = some reached) :
    (∀ db ∈ reached, Served db) ↔ ∀ call ∈ calls, call.KeepsRequired := by
  simp only [served_iff]
  exact (forall_run_iff (K := fun _ call => call.KeepsRequired) Call.readsBack_iff hdb h).trans
    (forall_zip_run_iff h)

/-- Over a run of accepted requests, everything stored can be read all the time just when no
update sets the title, the start date or the type to null, nor the format together with a new
title or a text. -/
theorem served_iff_keepsRequired {calls : List (Call V)} {reached : List (Collection V)}
    (h : run [] calls = some reached) :
    (∀ db ∈ reached, Served db) ↔ ∀ call ∈ calls, call.KeepsRequired :=
  served_run_iff (fun _ hpoint => absurd hpoint List.not_mem_nil) h

/-- Each request of a run has been accepted where it comes. -/
theorem exists_perform_of_mem {calls : List (Call V)} {reached : List (Collection V)}
    (h : run db calls = some reached) {call : Call V} (hcall : call ∈ calls) :
    ∃ db, (db, call) ∈ reached.zip calls ∧ ∃ a after, call.perform db = some (a, after) := by
  induction calls generalizing db reached with
  | nil => exact absurd hcall List.not_mem_nil
  | cons first calls ih =>
    obtain ⟨a, after, rest, hperform, hrest, rfl⟩ := run_cons h
    rw [List.zip_cons_cons]
    rcases List.mem_cons.mp hcall with rfl | hlater
    · exact ⟨db, List.mem_cons_self, a, after, hperform⟩
    · obtain ⟨db', hmem, hperformed⟩ := ih hrest hlater
      exact ⟨db', List.mem_cons_of_mem _ hmem, hperformed⟩

/-! ## An edited title -/

/-- Qdrant and the embedding work; OpenAI gives no tags. -/
def calm : Env (List ℤ) where
  now := .utc 2026 1 10 9
  newId := 1
  services := { complete := fun _ => none, embed := fun _ => .ok [1] }
  outage := fun _ => none

/-- An experience in the free format. -/
def note : CreateFields where
  title := "봉사"
  startDate := (PyDatetime.utc 2025 6 1 0).date
  endDate := none
  experienceType := .volunteer
  formatType := .free
  text := fun field => if field = .content then some "이웃을 도왔다" else none

/-- A body that gives nothing but a title. -/
def retitled (title : Given String) : UpdateFields where
  title := title
  startDate := .unset
  endDate := .unset
  experienceType := .unset
  formatType := .unset
  text := fun _ => .unset

/-- A user writes an experience and changes its title. -/
def edited (title : Given String) : List (Call (List ℤ)) :=
  [.create calm 7 note, .update calm 1 7 (retitled title)]

/-- A user writes an experience, changes its title, and sets its format to null. -/
def emptied : List (Call (List ℤ)) :=
  edited (.value "나눔") ++
    [.update calm 1 7 { retitled .unset with formatType := .null }]

/-- The last request takes the format away, and the note is read as one in STAR. -/
theorem served_iff_keepsRequired_emptied : ∃ reached, run [] emptied = some reached ∧
    ∀ db ∈ reached, Served db := by
  obtain ⟨reached, hrun⟩ := Option.isSome_iff_exists.mp
    (show (run [] emptied).isSome = true by decide +kernel)
  refine ⟨reached, hrun, (served_iff_keepsRequired hrun).mpr fun call hcall => ?_⟩
  simp only [emptied, edited, List.cons_append, List.nil_append, List.mem_cons, List.not_mem_nil,
    or_false] at hcall
  rcases hcall with rfl | rfl | rfl
  · trivial
  · exact (by decide : (retitled (.value "나눔")).KeepsRequired)
  · exact (by decide : UpdateFields.KeepsRequired { retitled .unset with formatType := .null })

/-- The request that sets the title to null is accepted, and what it stores cannot be read. -/
theorem not_served : ∃ reached, run [] (edited .null) = some reached ∧
    ¬ ∀ db ∈ reached, Served db := by
  obtain ⟨reached, hrun⟩ := Option.isSome_iff_exists.mp
    (show (run [] (edited .null)).isSome = true by decide +kernel)
  refine ⟨reached, hrun, fun hserved => ?_⟩
  have hkeeps := (served_run_iff (fun _ hpoint => absurd hpoint List.not_mem_nil) hrun).mp hserved
  have hnull := hkeeps (.update calm 1 7 (retitled .null)) (by simp [edited])
  exact hnull.1 rfl

end Logit.Experiences
