import Logit.Experiences.ReadBack

/-!
# The vector of an experience

An experience is searched by a vector of its title and of the texts of its format. A
creation embeds what it stores; an update embeds anew if it names the title, a text of the
format or a new format, and keeps the vector otherwise. It overlooks a format that is set to
null: such an experience is read as one in STAR, but keeps the vector of the texts it had. So
over a run of accepted requests all vectors stay those of what is stored as long as no update
does that to an experience of another format with texts, unless it embeds for another reason.

## Main definitions

* `Point.Agrees` — a vector that is the one of the stored text
* `Collection.Keyed` — points with different ids
* `UpdateFields.KeepsText` — updates that embed whenever they change the text

## Main results

* `combineTextForEmbedding_updatedAttributes` — when an update without a new vector leaves
  the text alone
* `agrees_of_run` — what a run does
-/

namespace Logit.Experiences

open Calendar Python

variable {V : Type} {embedding : String → V} {env : Env V} {db after : Collection V}
  {a : Attributes}

/-- The vector is the one of the text that is stored. -/
def Point.Agrees (embedding : String → V) (point : Point V) : Prop :=
  ∃ a : Attributes, (∀ fresh, point.payload.attributes fresh = some a) ∧
    point.vector = embedding (combineTextForEmbedding a)

/-- What attributes are written as agrees with the vector of their text only. -/
theorem agrees_modelDump {id : UUID} {vector : V} :
    (⟨id, vector, a.modelDump⟩ : Point V).Agrees embedding ↔
      vector = embedding (combineTextForEmbedding a) := by
  constructor
  · rintro ⟨b, hread, hvector⟩
    obtain ⟨fresh⟩ : Nonempty Fresh := inferInstance
    have hsame : some a = some b := (Payload.attributes_modelDump fresh a).symm.trans (hread fresh)
    obtain rfl := Option.some.inj hsame
    exact hvector
  · intro hvector
    exact ⟨a, fun fresh => Payload.attributes_modelDump fresh a, hvector⟩

/-- What they leave over another object agrees with that of the text told in STAR, if they have
no format. -/
theorem agrees_withoutNulls {id : UUID} {vector : V} :
    (⟨id, vector, a.withoutNulls⟩ : Point V).Agrees embedding ↔
      vector = embedding (combineTextForEmbedding a.defaulted) := by
  constructor
  · rintro ⟨b, hread, hvector⟩
    obtain ⟨fresh⟩ : Nonempty Fresh := inferInstance
    have hsame : some a.defaulted = some b :=
      (Payload.attributes_withoutNulls fresh a).symm.trans (hread fresh)
    obtain rfl := Option.some.inj hsame
    exact hvector
  · intro hvector
    exact ⟨a.defaulted, fun fresh => Payload.attributes_withoutNulls fresh a, hvector⟩

/-- What is read from a payload is what its vector is compared with. -/
theorem Point.Agrees.vector_eq {point : Point V} {fresh : Fresh} {e : Experience}
    (h : point.Agrees embedding) (hread : Experience.ofPayload? fresh point.payload = some e) :
    point.vector = embedding (combineTextForEmbedding e.attributes) := by
  obtain ⟨a, ha, hvector⟩ := h
  obtain ⟨b, hb, hvalid⟩ := Option.bind_eq_some_iff.mp hread
  have hsame : some a = some b := (ha fresh).symm.trans hb
  obtain rfl := Option.some.inj hsame
  rw [Attributes.validate_eq_some.mp hvalid]
  exact hvector

/-! ## Points with different ids -/

/-- No two points have the same id. -/
def Collection.Keyed (db : Collection V) : Prop := (db.map (·.id)).Nodup

namespace Collection

theorem keyed_nil : Keyed ([] : Collection V) := List.nodup_nil

theorem Keyed.eq_of_retrieve {id : UUID} {point p : Point V} (h : db.Keyed)
    (hpoint : db.retrieve id = some point) (hp : p ∈ db) (hid : p.id = id) : p = point := by
  have hfound : point.id = id := by simpa using List.find?_some hpoint
  exact List.inj_on_of_nodup_map h hp (List.mem_of_find?_eq_some hpoint) (hid.trans hfound.symm)

theorem Keyed.upsert (h : db.Keyed) (point : Point V) : (db.upsert point).Keyed := by
  unfold Keyed Collection.upsert
  rw [List.map_append]
  refine List.Nodup.append (h.sublist (List.filter_sublist.map _)) (List.nodup_singleton _) ?_
  intro id hold hnew
  obtain ⟨p, hp, rfl⟩ := List.mem_map.mp hold
  have hne : p.id ≠ point.id := by simpa using (List.mem_filter.mp hp).2
  exact hne (List.mem_singleton.mp hnew)

theorem Keyed.setPayload (h : db.Keyed) (id : UUID) (payload : Payload) :
    (db.setPayload id payload).Keyed := by
  have hids : (db.setPayload id payload).map (·.id) = db.map (·.id) := by
    rw [Collection.setPayload, List.map_map]
    refine List.map_congr_left fun p _ => ?_
    simp only [Function.comp_apply]
    split_ifs <;> rfl
  unfold Keyed
  rw [hids]
  exact h

theorem Keyed.delete (h : db.Keyed) (id : UUID) : (db.delete id).Keyed :=
  h.sublist (List.filter_sublist.map _)

end Collection

/-! ## The text an update leaves -/

/-- No text of the format is there, and none of STAR. -/
def Experience.Untold (e : Experience) : Prop :=
  ∀ field ∈ e.formatType.fields ++ ExperienceFormatType.star.fields, truthy (e.text field) = false

/-- An update that sets the format to null embeds anew for another reason, or finds STAR, or no
texts that were embedded or would be. -/
def UpdateFields.KeepsText (existing : Experience) (u : UpdateFields) : Prop :=
  u.formatType = .null → u.KeepsContent → existing.formatType = .star ∨ existing.Untold

/-- The lines of the texts that are there. -/
def Attributes.lines (a : Attributes) (fields : List TextField) : List String :=
  fields.filterMap fun field =>
    ((a.text field).filter (· ≠ "")).map fun value => field.label ++ ": " ++ value

theorem combineTextForEmbedding_eq (a : Attributes) :
    combineTextForEmbedding a =
      "\n".intercalate (("제목: " ++ pyStr a.title) :: a.lines a.formatFields) := rfl

theorem lines_eq_nil {fields : List TextField} :
    a.lines fields = [] ↔ ∀ field ∈ fields, truthy (a.text field) = false := by
  simp only [Attributes.lines, List.filterMap_eq_nil_iff, Option.map_eq_none_iff,
    Option.filter_eq_none_iff, truthy]
  refine forall₂_congr fun field _ => ?_
  cases a.text field <;> simp

/-- A line starts with the label of its text. -/
theorem head?_of_mem_lines {fields : List TextField} {line : String} (h : line ∈ a.lines fields) :
    ∃ field ∈ fields, line.toList.head? = field.label.toList.head? := by
  obtain ⟨field, hfield, hline⟩ := List.mem_filterMap.mp h
  obtain ⟨value, -, rfl⟩ := Option.map_eq_some_iff.mp hline
  refine ⟨field, hfield, ?_⟩
  rw [String.toList_append, String.toList_append, List.append_assoc]
  cases field <;> rfl

/-- The labels of STAR begin like none of another format. -/
theorem head?_label_ne {format : ExperienceFormatType} (h : format ≠ .star) :
    ∀ field ∈ ExperienceFormatType.star.fields, ∀ other ∈ format.fields,
      field.label.toList.head? ≠ other.label.toList.head? := by
  cases format with
  | star => exact absurd rfl h
  | psi => decide +kernel
  | free => decide +kernel

theorem head?_intercalate {line : String} (lines : List String) (h : line ≠ "") :
    ("\n".intercalate (line :: lines)).toList.head? = line.toList.head? := by
  have hne : line.toList ≠ [] := by simpa using h
  cases lines with
  | nil => rw [String.intercalate_singleton]
  | cons next rest =>
    rw [String.intercalate_cons_cons, String.toList_append, String.toList_append, List.append_assoc,
      List.head?_append_of_ne_nil _ hne]

/-- Lines are seen in the text. -/
theorem intercalate_ne {title line : String} {lines : List String} :
    "\n".intercalate (title :: line :: lines) ≠ "\n".intercalate [title] := by
  intro h
  have hlength := congrArg String.length h
  rw [String.intercalate_cons_cons, String.intercalate_singleton] at hlength
  simp only [String.length_append] at hlength
  have hnewline : "\n".length = 1 := rfl
  omega

/-- Texts of lines that begin differently are the same only if there are no lines. -/
theorem intercalate_cons_eq {title : String} {lines other : List String}
    (hlines : ∀ line ∈ lines, line ≠ "") (hother : ∀ line ∈ other, line ≠ "")
    (hne : ∀ line ∈ lines, ∀ line' ∈ other, line.toList.head? ≠ line'.toList.head?) :
    "\n".intercalate (title :: lines) = "\n".intercalate (title :: other) ↔
      lines = [] ∧ other = [] := by
  constructor
  · intro h
    cases lines with
    | nil =>
      cases other with
      | nil => exact ⟨rfl, rfl⟩
      | cons line' other => exact absurd h.symm intercalate_ne
    | cons line lines =>
      cases other with
      | nil => exact absurd h intercalate_ne
      | cons line' other =>
        rw [String.intercalate_cons_cons, String.intercalate_cons_cons] at h
        have hrest := congrArg String.toList h
        simp only [String.toList_append] at hrest
        have hheads := congrArg List.head? (List.append_cancel_left hrest)
        rw [head?_intercalate _ (hlines line List.mem_cons_self),
          head?_intercalate _ (hother line' List.mem_cons_self)] at hheads
        exact absurd hheads (hne line List.mem_cons_self line' List.mem_cons_self)
  · rintro ⟨rfl, rfl⟩
    rfl

/-- Told in STAR, an experience of another format has the same text just when none of its texts
is in either. -/
theorem intercalate_lines_eq_iff {title : String} {format : ExperienceFormatType}
    (h : format ≠ .star) :
    "\n".intercalate (title :: a.lines ExperienceFormatType.star.fields) =
        "\n".intercalate (title :: a.lines format.fields) ↔
      ∀ field ∈ format.fields ++ ExperienceFormatType.star.fields,
        truthy (a.text field) = false := by
  have hne {fields : List TextField} : ∀ line ∈ a.lines fields, line ≠ "" := by
    intro line hline
    obtain ⟨field, -, hhead⟩ := head?_of_mem_lines hline
    rintro rfl
    cases field <;> exact absurd hhead (by decide)
  rw [intercalate_cons_eq hne hne, lines_eq_nil, lines_eq_nil, and_comm, List.forall_mem_append]
  intro line hline line' hline'
  obtain ⟨field, hfield, hhead⟩ := head?_of_mem_lines hline
  obtain ⟨other, hother, hhead'⟩ := head?_of_mem_lines hline'
  rw [hhead, hhead']
  exact head?_label_ne h field hfield other hother

/-- Without a new content the text is the same just when the format is not set to null, or is
STAR, or no text of it or of STAR is there. -/
theorem combineTextForEmbedding_updatedAttributes (env : Env V) (existing : Experience)
    {u : UpdateFields} (h : u.formatType.get = none ∧ u.KeepsContent) :
    combineTextForEmbedding (updatedAttributes env existing u).defaulted =
        combineTextForEmbedding existing.attributes ↔ u.KeepsText existing := by
  obtain ⟨htitle, htext, hformat⟩ := updatedAttributes_of_keepsContent env existing h
  have hkeeps : u.KeepsText existing ↔
      (u.formatType = .null → existing.formatType = .star ∨ existing.Untold) :=
    forall_congr' fun _ => ⟨fun hkept => hkept h.2, fun hkept _ => hkept⟩
  have hlines (fields : List TextField) :
      (updatedAttributes env existing u).defaulted.lines fields =
        existing.attributes.lines fields := by
    simp only [Attributes.lines, Attributes.defaulted, htext]
    rfl
  have hfields : (updatedAttributes env existing u).defaulted.formatFields =
      if u.formatType = .null then ExperienceFormatType.star.fields
      else existing.formatType.fields := by
    simp only [Attributes.formatFields, Attributes.defaulted, hformat]
    split_ifs <;> rfl
  have htitles : (updatedAttributes env existing u).defaulted.title = some existing.title := htitle
  rw [hkeeps, combineTextForEmbedding_eq, combineTextForEmbedding_eq, hlines, hfields, htitles]
  change "\n".intercalate (("제목: " ++ existing.title) :: _) =
    "\n".intercalate (("제목: " ++ existing.title) ::
      existing.attributes.lines existing.formatType.fields) ↔ _
  by_cases hnull : u.formatType = .null
  · simp only [hnull, if_true, forall_const]
    by_cases hstar : existing.formatType = .star
    · simp only [hstar, true_or]
    · simp only [hstar, false_or]
      exact intercalate_lines_eq_iff hstar
  · simp only [hnull, if_false, false_imp_iff]

/-! ## What one write does -/

/-- The embeddings that OpenAI gives are those of a function of the text. -/
def Env.EmbedsBy (embedding : String → V) (env : Env V) : Prop :=
  ∀ text vector, env.services.embed text = .ok vector → vector = embedding text

theorem forall_agrees_upsert {id : UUID} {vector : V}
    (hvector : vector = embedding (combineTextForEmbedding a))
    (hdb : ∀ point ∈ db, point.Agrees embedding) :
    ∀ point ∈ db.upsert ⟨id, vector, a.modelDump⟩, point.Agrees embedding := by
  intro point hpoint
  rcases List.mem_append.mp hpoint with hold | hnew
  · exact hdb point (List.mem_of_mem_filter hold)
  · rw [List.mem_singleton.mp hnew]
    exact agrees_modelDump.mpr hvector

/-- A payload written alone agrees just when its text has the vector that is there. -/
theorem forall_agrees_setPayload {id : UUID} {point : Point V} (hkeyed : db.Keyed)
    (hpoint : db.retrieve id = some point) (hdb : ∀ p ∈ db, p.Agrees embedding) :
    (∀ p ∈ db.setPayload id a.modelDump, p.Agrees embedding) ↔
      point.vector = embedding (combineTextForEmbedding a.defaulted) := by
  have hid : point.id = id := by simpa using List.find?_some hpoint
  have hwritten (p : Point V) :
      (⟨p.id, p.vector, fun key => (p.payload key).merge (a.modelDump key)⟩ : Point V) =
        ⟨p.id, p.vector, a.withoutNulls⟩ := by
    rw [Payload.merge_modelDump]
  constructor
  · intro hafter
    have hmem := List.mem_map_of_mem (f := fun p : Point V =>
      if p.id = id then
        { p with payload := fun key => (p.payload key).merge (a.modelDump key) }
      else p) (List.mem_of_find?_eq_some hpoint)
    rw [if_pos hid] at hmem
    have hagrees := hafter _ hmem
    rw [hwritten] at hagrees
    exact agrees_withoutNulls.mp hagrees
  · intro hvector q hq
    obtain ⟨p, hp, rfl⟩ := List.mem_map.mp hq
    split_ifs with hsame
    · -- Only the point that was read has the id.
      obtain rfl := hkeyed.eq_of_retrieve hpoint hp hsame
      rw [hwritten]
      exact agrees_withoutNulls.mpr hvector
    · exact hdb p hp

section Update

variable {experienceId : UUID} {point : Point V} {fresh : Fresh} {existing : Experience}
  {update : ExperienceUpdate} {write : Write V}

/-- What an update writes agrees just when it keeps the text, where different texts have
different vectors; for other embeddings it agrees at least then. -/
theorem forall_agrees_apply (hkeyed : db.Keyed) (hpoint : db.retrieve experienceId = some point)
    (hread : Experience.ofPayload? fresh point.payload = some existing)
    (hprepared : prepareUpdate env experienceId existing update = .ok (a, write))
    (hembeds : env.EmbedsBy embedding) (hdb : ∀ p ∈ db, p.Agrees embedding) :
    (update.1.KeepsText existing → ∀ p ∈ write.apply db, p.Agrees embedding) ∧
      (Function.Injective embedding → (∀ p ∈ write.apply db, p.Agrees embedding) →
        update.1.KeepsText existing) := by
  have hvector := (hdb point (List.mem_of_find?_eq_some hpoint)).vector_eq hread
  have hcontent := contentChanged_eq_false (checkFields_of_prepareUpdate hprepared)
  rcases prepareUpdate_ok hprepared with ⟨hchanged, -, vector, hembed, rfl⟩ |
    ⟨hunchanged, rfl, rfl⟩
  · refine ⟨fun _ => forall_agrees_upsert (hembeds _ vector hembed) hdb, fun _ _ => ?_⟩
    intro hnull hkeeps
    have hunchanged := hcontent.mpr ⟨by rw [hnull]; rfl, hkeeps⟩
    rw [hunchanged] at hchanged
    cases hchanged
  · have hafter := forall_agrees_setPayload (a := updatedAttributes env existing update.1) hkeyed
      hpoint hdb
    rw [hvector] at hafter
    have htext := combineTextForEmbedding_updatedAttributes env existing (hcontent.mp hunchanged)
    constructor
    · intro hkeeps
      exact hafter.mpr (congrArg embedding (htext.mpr hkeeps).symm)
    · intro hinjective hagrees
      exact htext.mp (hinjective (hafter.mp hagrees)).symm

end Update

/-! ## Runs -/

/-- The surroundings of a request. -/
def Call.around : Call V → Env V
  | create env _ _ => env
  | update env _ _ _ => env

/-- An update that sets the format of what it reads to null embeds it anew for another
reason, or finds STAR or an experience without texts. -/
def Call.KeepsText (db : Collection V) : Call V → Prop
  | create _ _ _ => True
  | update env experienceId userId body =>
    ∀ existing, getExperience env db experienceId userId = .ok existing → body.KeepsText existing

theorem createExperience_embeds {userId : UUID} {create : ExperienceCreate} {e : Experience}
    (h : createExperience env db userId create = .ok (e, after)) :
    ∃ vector, env.services.embed (combineTextForEmbedding e.attributes) = .ok vector ∧
      after = db.upsert ⟨env.newId, vector, e.attributes.modelDump⟩ := by
  obtain ⟨temp, -, h⟩ := bind_eq_ok.mp h
  obtain ⟨experience, -, h⟩ := bind_eq_ok.mp h
  obtain ⟨vector, hvector, h⟩ := bind_eq_ok.mp h
  obtain ⟨_, -, h⟩ := bind_eq_ok.mp h
  rw [pure_eq_ok, Prod.mk.injEq] at h
  obtain ⟨rfl, rfl⟩ := h
  exact ⟨vector, embed_eq_ok.mp hvector, rfl⟩

theorem UpdateFields.keepsText_ofBody? {body : UpdateFields} {update : ExperienceUpdate}
    (h : ExperienceUpdate.ofBody? body = some update) (existing : Experience) :
    update.1.KeepsText existing ↔ body.KeepsText existing := by
  have hcontent := keepsContent_ofBody? h
  rw [KeepsText, hcontent, ExperienceUpdate.eq_of_ofBody? h]
  exact Iff.rfl

theorem Call.keyed {call : Call V} (h : call.perform db = some (a, after)) (hkeyed : db.Keyed) :
    after.Keyed := by
  cases call with
  | create env userId body =>
    obtain ⟨create, e, -, hcreated, -⟩ := create_ok h
    obtain ⟨-, vector, rfl⟩ := createExperience_ok hcreated
    exact hkeyed.upsert _
  | update env experienceId userId body =>
    obtain ⟨update, -, hupdated⟩ := update_ok h
    obtain ⟨existing, -, -, -, ⟨vector, rfl⟩ | rfl⟩ := updateExperience_ok hupdated
    · exact hkeyed.upsert _
    · exact hkeyed.setPayload _ _

/-- One accepted request. -/
theorem Call.agrees {call : Call V} (h : call.perform db = some (a, after))
    (hembeds : call.around.EmbedsBy embedding) (hkeyed : db.Keyed)
    (hdb : ∀ point ∈ db, point.Agrees embedding) :
    (call.KeepsText db → ∀ point ∈ after, point.Agrees embedding) ∧
      (Function.Injective embedding → (∀ point ∈ after, point.Agrees embedding) →
        call.KeepsText db) := by
  cases call with
  | create env userId body =>
    obtain ⟨create, e, -, hcreated, -⟩ := create_ok h
    obtain ⟨vector, hembed, rfl⟩ := createExperience_embeds hcreated
    exact ⟨fun _ => forall_agrees_upsert (hembeds _ vector hembed) hdb, fun _ _ => trivial⟩
  | update env experienceId userId body =>
    obtain ⟨update, existing, write, hbody, hexisting, hprepared, rfl⟩ := update_writes h
    obtain ⟨point, hpoint, hread⟩ := getExperience_ok hexisting
    have hwrite := forall_agrees_apply hkeyed hpoint hread hprepared hembeds hdb
    rw [UpdateFields.keepsText_ofBody? hbody] at hwrite
    refine ⟨fun hkeeps => hwrite.1 (hkeeps existing hexisting), fun hinjective hafter => ?_⟩
    intro other hother
    obtain rfl : existing = other := Except.ok.inj (hexisting.symm.trans hother)
    exact hwrite.2 hinjective hafter

/-- From a collection of points with different ids, all of which agree. By induction on the
requests, each of which keeps both. -/
theorem agrees_run {calls : List (Call V)} {reached : List (Collection V)}
    (hkeyed : db.Keyed) (hdb : ∀ point ∈ db, point.Agrees embedding)
    (h : run db calls = some reached) (hembeds : ∀ call ∈ calls, call.around.EmbedsBy embedding) :
    ((∀ step ∈ reached.zip calls, step.2.KeepsText step.1) →
      ∀ db ∈ reached, ∀ point ∈ db, point.Agrees embedding) ∧
    (Function.Injective embedding → (∀ db ∈ reached, ∀ point ∈ db, point.Agrees embedding) →
      ∀ step ∈ reached.zip calls, step.2.KeepsText step.1) := by
  induction calls generalizing db reached with
  | nil =>
    cases h
    simp only [List.zip_nil_right, List.mem_singleton, forall_eq]
    exact ⟨fun _ => hdb, fun _ _ step hstep => absurd hstep List.not_mem_nil⟩
  | cons call calls ih =>
    obtain ⟨a, after, rest, hperform, hrest, rfl⟩ := run_cons h
    obtain ⟨hcall, hcalls⟩ := List.forall_mem_cons.mp hembeds
    have hstep := Call.agrees hperform hcall hkeyed hdb
    simp only [List.zip_cons_cons, List.forall_mem_cons]
    constructor
    · rintro ⟨hkeeps, hrestKeeps⟩
      exact ⟨hdb, (ih (Call.keyed hperform hkeyed) (hstep.1 hkeeps) hrest hcalls).1 hrestKeeps⟩
    · rintro hinjective ⟨-, hreached⟩
      have hagrees := hreached after (mem_of_run hrest)
      exact ⟨hstep.2 hinjective hagrees,
        (ih (Call.keyed hperform hkeyed) hagrees hrest hcalls).2 hinjective hreached⟩

/-- Over a run of accepted requests from an empty collection, every vector is the one of the
text stored with it all the time if every update keeps the text of what it reads; where
different texts have different vectors, only then. -/
theorem agrees_of_run {calls : List (Call V)} {reached : List (Collection V)}
    (h : run [] calls = some reached) (hembeds : ∀ call ∈ calls, call.around.EmbedsBy embedding) :
    ((∀ step ∈ reached.zip calls, step.2.KeepsText step.1) →
      ∀ db ∈ reached, ∀ point ∈ db, point.Agrees embedding) ∧
    (Function.Injective embedding → (∀ db ∈ reached, ∀ point ∈ db, point.Agrees embedding) →
      ∀ step ∈ reached.zip calls, step.2.KeepsText step.1) :=
  agrees_run Collection.keyed_nil (fun _ hpoint => absurd hpoint List.not_mem_nil) h hembeds

/-! ## A note that loses its format -/

/-- The vector of a text is the text. -/
def echo : Env String where
  now := calm.now
  newId := calm.newId
  services := { complete := fun _ => none, embed := fun text => .ok text }
  outage := calm.outage

/-- A user writes a note and changes it. -/
def noted (body : UpdateFields) : List (Call String) :=
  [.create echo 7 note, .update echo 1 7 body]

theorem embedsBy_noted (body : UpdateFields) :
    ∀ call ∈ noted body, call.around.EmbedsBy id := by
  intro call hcall text vector hembed
  have hecho : call.around = echo := by
    simp only [noted, List.mem_cons, List.not_mem_nil, or_false] at hcall
    rcases hcall with rfl | rfl <;> rfl
  rw [hecho] at hembed
  exact (Except.ok.inj hembed).symm

theorem agrees_of_run_noted :
    ∃ reached, run [] (noted (retitled (.value "나눔"))) = some reached ∧
      ∀ db ∈ reached, ∀ point ∈ db, point.Agrees id := by
  obtain ⟨reached, hrun⟩ := Option.isSome_iff_exists.mp
    (show (run [] (noted (retitled (.value "나눔")))).isSome = true by decide +kernel)
  refine ⟨reached, hrun, (agrees_of_run hrun (embedsBy_noted _)).1 fun step hstep => ?_⟩
  have hmem := (List.of_mem_zip hstep).2
  simp only [noted, List.mem_cons, List.not_mem_nil, or_false] at hmem
  rcases hmem with h | h <;> rw [h]
  · trivial
  · intro existing _ hnull
    cases hnull

/-- The text of what is stored. -/
def Point.text (fresh : Fresh) (point : Point V) : Option String :=
  (point.payload.attributes fresh).map combineTextForEmbedding

theorem text_of_agrees {point : Point String} (h : point.Agrees id) (fresh : Fresh) :
    point.text fresh = some point.vector := by
  obtain ⟨a, ha, hvector⟩ := h
  rw [Point.text, ha fresh, hvector]
  rfl

/-- The request that sets the format to null is accepted, and the vector stays that of the
text that the note, now in STAR, no longer tells. -/
theorem not_agrees :
    ∃ reached, run [] (noted { retitled .unset with formatType := .null }) = some reached ∧
      ¬ ∀ db ∈ reached, ∀ point ∈ db, point.Agrees id := by
  have hbad : (run [] (noted { retitled .unset with formatType := .null })).any
      (fun reached => reached.any fun db => db.any fun point =>
        decide (point.text echo.fresh ≠ some point.vector)) = true := by decide +kernel
  obtain ⟨reached, hrun, hbad⟩ := (Option.any_eq_true _ _).mp hbad
  refine ⟨reached, hrun, fun hagrees => ?_⟩
  obtain ⟨db, hdb, hbad⟩ := List.any_eq_true.mp hbad
  obtain ⟨point, hpoint, hbad⟩ := List.any_eq_true.mp hbad
  exact of_decide_eq_true hbad (text_of_agrees (hagrees db hdb point hpoint) echo.fresh)

end Logit.Experiences
