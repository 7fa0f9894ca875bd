import Logit.Experiences.Ownership

/-!
# The experiences a model is shown

A chat names up to three experiences. They are loaded one after another, in the order they have
been selected in, and those that cannot be loaded are passed over. The model is shown them as a
text: for a draft with a role each, the first one as the main experience, and otherwise without.

## Main definitions

* `formatExperiencesWithRoles`, `formatExperiencesPlain` — the texts
* `experiencesText` — the text of a prompt
* `Tells` — a text with the title and the texts of an experience
* `ChosenFrom`, `OwnExperiences` — what a chat has loaded

## Main results

* `ownExperiences_of_reachable` — the model is shown the user's own experiences
-/

namespace Logit.Chats

open Concurrency Experiences Python

/-! ## The texts -/

/-- One line for each text of the format that is there. -/
def experienceLines (label : TextField → String) (e : Experience) : List String :=
  e.formatType.fields.filterMap fun field =>
    ((e.text field).filter (· ≠ "")).map fun value => "- " ++ label field ++ ": " ++ value

/-- The labels beside roles. -/
def roleLabel : TextField → String
  | .situation => "상황(S)"
  | .task => "과제(T)"
  | .action => "행동(A)"
  | .result => "결과(R)"
  | .problem => "문제(P)"
  | .solution => "해결(S)"
  | .insight => "인사이트(I)"
  | .content => "경험 내용 (자유 형식, 핵심 사실을 직접 추출하세요)"

/-- The labels without roles. -/
def plainLabel : TextField → String
  | .situation => "상황"
  | .task => "과제"
  | .action => "행동"
  | .result => "결과"
  | .problem => "문제"
  | .solution => "해결"
  | .insight => "인사이트"
  | .content => "내용"

/-- How Python formats the members of the enumerations in an f-string, which its versions do
differently. -/
structure EnumFormat where
  experienceType : ExperienceType → String
  category : ExperienceCategory → String

/-- `_format_experience_with_role`; the score is `position_weights[..]` with two digits. -/
def formatExperienceWithRole (format : EnumFormat) (e : Experience) (isPrimary : Bool)
    (score : String) : String :=
  let roleTag := if isPrimary then "[주 경험 - 상세 서술]" else "[보조 경험 - 간략 언급]"
  "\n".intercalate
    (["### " ++ e.title ++ " " ++ roleTag ++ " (적합도: " ++ score ++ ")",
      "- 유형: " ++ format.experienceType e.experienceType,
      "- 카테고리: " ++ format.category e.category] ++ experienceLines roleLabel e)

/-- The weights of positions, the last one for all positions after it. -/
def positionWeight : ℕ → String
  | 0 => "1.00"
  | 1 => "0.70"
  | _ => "0.40"

def formatExperiencesWithRoles (format : EnumFormat) (experiences : List Experience) : String :=
  if experiences = [] then "선택된 경험이 없습니다."
  else "\n\n".intercalate (experiences.mapIdx fun i e =>
    formatExperienceWithRole format e (i = 0) (positionWeight i))

def formatExperiencesPlain (experiences : List Experience) : String :=
  if experiences = [] then "경험 없음"
  else "\n\n".intercalate (experiences.map fun e =>
    "\n".intercalate (("### " ++ e.title) :: experienceLines plainLabel e))

/-- What stands for the experiences in the prompt of a draft, or of a conversation. -/
def experiencesText (format : EnumFormat) (isNewDraft : Bool) (experiences : List Experience) :
    String :=
  if isNewDraft then formatExperiencesWithRoles format experiences
  else if experiences ≠ [] then formatExperiencesPlain experiences
  else "선택된 경험이 없습니다."

/-! ## What a text shows -/

/-- A text has another one in it. -/
def TextShows (text part : String) : Prop := part.toList <:+: text.toList

namespace TextShows

variable {text part line : String}

theorem trans (h : TextShows text line) (hline : TextShows line part) : TextShows text part :=
  List.IsInfix.trans hline h

theorem intercalate {parts : List String} (h : part ∈ parts) (sep : String) :
    TextShows (sep.intercalate parts) part := by
  induction parts with
  | nil => exact absurd h List.not_mem_nil
  | cons first rest ih =>
    cases rest with
    | nil =>
      obtain rfl := List.mem_singleton.mp h
      rw [String.intercalate_singleton]
      exact List.infix_rfl
    | cons second rest =>
      rw [String.intercalate_cons_cons]
      rcases List.mem_cons.mp h with rfl | hrest
      · exact ⟨[], (sep ++ sep.intercalate (second :: rest)).toList, by simp⟩
      · refine trans ?_ (ih hrest)
        exact ⟨(first ++ sep).toList, [], by simp⟩

end TextShows

/-- Each text of the format is in a line. -/
theorem exists_line (label : TextField → String) {e : Experience} {field : TextField}
    (hfield : field ∈ e.formatType.fields) {value : String} (hvalue : value ∈ e.text field) :
    ∃ line ∈ experienceLines label e, TextShows line value := by
  have hne : value ≠ "" := by
    rintro rfl
    exact absurd (e.text_length field "" hvalue) (by decide)
  refine ⟨"- " ++ label field ++ ": " ++ value, List.mem_filterMap.mpr ⟨field, hfield, ?_⟩, ?_⟩
  · rw [Option.mem_def.mp hvalue, Option.filter_some_pos (by simpa using hne), Option.map_some]
  · exact ⟨("- " ++ label field ++ ": ").toList, [], by simp⟩

/-- The title and each text of the format of an experience are in a text. -/
structure Tells (text : String) (e : Experience) : Prop where
  title : TextShows text e.title
  texts : ∀ field ∈ e.formatType.fields, ∀ value ∈ e.text field, TextShows text value

theorem Tells.of_shows {text line : String} {e : Experience} (h : Tells line e)
    (hshows : TextShows text line) : Tells text e :=
  ⟨hshows.trans h.title, fun field hfield value hvalue =>
    hshows.trans (h.texts field hfield value hvalue)⟩

theorem tells_lines (label : TextField → String) (e : Experience) {heading : List String}
    (hheading : ∃ line ∈ heading, TextShows line e.title) :
    Tells ("\n".intercalate (heading ++ experienceLines label e)) e where
  title := by
    obtain ⟨line, hline, htitle⟩ := hheading
    exact (TextShows.intercalate (List.mem_append_left _ hline) _).trans htitle
  texts field hfield value hvalue := by
    obtain ⟨line, hline, hshows⟩ := exists_line label hfield hvalue
    exact (TextShows.intercalate (List.mem_append_right _ hline) _).trans hshows

theorem tells_withRole (format : EnumFormat) (e : Experience) (isPrimary : Bool)
    (score : String) : Tells (formatExperienceWithRole format e isPrimary score) e := by
  refine tells_lines roleLabel e ⟨_, List.mem_cons_self, ?_⟩
  exact ⟨"### ".toList, (" " ++ (if isPrimary then "[주 경험 - 상세 서술]" else
    "[보조 경험 - 간략 언급]") ++ " (적합도: " ++ score ++ ")").toList, by simp⟩

theorem tells_plain (e : Experience) :
    Tells ("\n".intercalate (("### " ++ e.title) :: experienceLines plainLabel e)) e := by
  refine tells_lines plainLabel e ⟨_, List.mem_singleton_self _, ?_⟩
  exact ⟨"### ".toList, [], by simp⟩

/-- Nothing of the experiences that have been selected is left out of the text. -/
theorem tells_experiencesText (format : EnumFormat) (isNewDraft : Bool)
    {experiences : List Experience} {e : Experience} (h : e ∈ experiences) :
    Tells (experiencesText format isNewDraft experiences) e := by
  have hsome : experiences ≠ [] := List.ne_nil_of_mem h
  cases isNewDraft with
  | true =>
    obtain ⟨i, hi, rfl⟩ := List.mem_iff_getElem.mp h
    rw [experiencesText, if_pos rfl, formatExperiencesWithRoles, if_neg hsome]
    exact (tells_withRole format _ _ _).of_shows
      (TextShows.intercalate (List.mem_mapIdx.mpr ⟨i, hi, rfl⟩) _)
  | false =>
    rw [experiencesText, if_neg Bool.false_ne_true, if_pos hsome, formatExperiencesPlain,
      if_neg hsome]
    exact (tells_plain e).of_shows (TextShows.intercalate (List.mem_map_of_mem h) _)

/-! ## What is shown -/

variable {V : Type} {s : Storage V} {p : Pool (Storage V) (StorageTask V)} {userId : UUID}
  {selected : Selected V} {experiences loaded : List Experience}

/-- The experiences are those that loading the selected ones has given, each at some moment of a
run. -/
def ChosenFrom (s : Storage V) (userId : UUID) (chosen : List (Selected V))
    (experiences : List Experience) : Prop :=
  ∃ parts, experiences = parts.flatten ∧ List.Forall₂ (fun selected part =>
    ∃ q, Pool.Reachable (storages V) s q ∧ part = selected.load q.shared.db userId) chosen parts

/-- A chat has loaded the first of the selected experiences. -/
def Chosen (s : Storage V) : StorageTask V → Prop
  | .selecting userId selection loaded => ∃ chosen, ChosenFrom s userId chosen loaded ∧
    validateExperienceIds ((chosen ++ selection).map (·.experienceId)) =
      .ok ((chosen ++ selection).map (·.experienceId))
  | _ => True

/-- An experience that is loaded is the user's, and there is at most one. -/
theorem mem_load {db : Collection V} {e : Experience} (h : e ∈ selected.load db userId) :
    e.userId = userId.str := by
  unfold Selected.load at h
  split at h
  · cases h
  · rw [Option.mem_toList, toOption_eq_some] at h
    obtain ⟨-, point, -, howner, hread⟩ := getExperience_ok_iff.mp h
    exact Option.some.inj ((userId_of_ofPayload? hread).symm.trans howner)

theorem length_load_le (db : Collection V) (userId : UUID) (selected : Selected V) :
    (selected.load db userId).length ≤ 1 := by
  unfold Selected.load
  split
  · exact Nat.zero_le 1
  · rw [Option.length_toList]
    split_ifs <;> omega

/-- Ids that are accepted are few and different. -/
theorem validateExperienceIds_ok {ids : List String} (h : validateExperienceIds ids = .ok ids) :
    ids.length ≤ 3 ∧ ids.Nodup := by
  unfold validateExperienceIds at h
  split_ifs at h with hnone hmany hrepeated
  · rw [List.length_eq_zero_iff] at hnone
    subst hnone
    exact ⟨by decide, List.nodup_nil⟩
  · exact ⟨by omega, hrepeated⟩

namespace ChosenFrom

variable {chosen : List (Selected V)}

theorem nil (s : Storage V) (userId : UUID) : ChosenFrom s userId [] [] := ⟨[], rfl, .nil⟩

/-- One more experience is loaded. -/
theorem load (h : ChosenFrom s userId chosen experiences) (hrun : Pool.Reachable (storages V) s p)
    (selected : Selected V) : ChosenFrom s userId (chosen ++ [selected])
      (experiences ++ selected.load p.shared.db userId) := by
  obtain ⟨parts, rfl, hparts⟩ := h
  refine ⟨parts ++ [selected.load p.shared.db userId], by simp, ?_⟩
  exact List.rel_append hparts (.cons ⟨p, hrun, rfl⟩ .nil)

theorem own (h : ChosenFrom s userId chosen experiences) :
    ∀ e ∈ experiences, e.userId = userId.str := by
  obtain ⟨parts, rfl, hparts⟩ := h
  induction hparts with
  | nil => exact fun e he => absurd he List.not_mem_nil
  | cons hpart _ ih =>
    obtain ⟨q, hq, rfl⟩ := hpart
    intro e he
    rcases List.mem_append.mp he with hfirst | hrest
    · exact mem_load hfirst
    · exact ih e hrest

theorem length_le (h : ChosenFrom s userId chosen experiences) :
    experiences.length ≤ chosen.length := by
  obtain ⟨parts, rfl, hparts⟩ := h
  induction hparts with
  | nil => exact Nat.le_refl 0
  | @cons selected _ _ _ hpart _ ih =>
    obtain ⟨q, hq, rfl⟩ := hpart
    have hone := length_load_le q.shared.db userId selected
    rw [List.flatten_cons, List.length_append, List.length_cons]
    omega

end ChosenFrom

/-- What every chat of a run has loaded. -/
theorem chosen_of_reachable (hrun : Pool.Reachable (storages V) s p) :
    ∀ task ∈ p.tasks, Chosen s task := by
  induction hrun with
  | refl => exact fun task htask => absurd htask List.not_mem_nil
  | tail hrun hstep ih =>
    cases hstep with
    | env ts henv => exact ih
    | @start task _ ts hstart =>
      refine List.forall_mem_cons.mpr ⟨?_, ih⟩
      cases task with
      | selecting userId selection loaded =>
        obtain ⟨rfl, hvalid⟩ := hstart
        exact ⟨[], ChosenFrom.nil s userId, hvalid⟩
      | _ => trivial
    | act before after hact =>
      refine forall_mem_middle ih (fun _ _ htask => htask) fun htask => ?_
      cases hact with
      | @select user selected selection loaded =>
        obtain ⟨chosen, hchosen, hvalid⟩ := htask
        refine ⟨chosen ++ [selected], hchosen.load hrun selected, ?_⟩
        rwa [List.append_assoc, List.singleton_append]
      | _ => trivial

/-- The experiences a model is shown in a chat of a user. -/
structure OwnExperiences (s : Storage V) (userId : UUID) (experiences : List Experience) :
    Prop where
  /-- In the order in which they have been selected. -/
  chosen : ∃ chosen, ChosenFrom s userId chosen experiences ∧
    (chosen.map (·.experienceId)).Nodup
  own : ∀ e ∈ experiences, e.userId = userId.str
  few : experiences.length ≤ 3
  /-- Whatever the answer is to be, and nothing of them is left out. -/
  told : ∀ format isNewDraft, ∀ e ∈ experiences,
    Tells (experiencesText format isNewDraft experiences) e
  /-- The model is shown them when the user is alone. -/
  alone : ∃ q, Pool.Reachable (storages V) (s.view userId) q ∧
    .selecting userId [] experiences ∈ q.tasks

/-- When a chat has loaded its experiences, whatever the requests of all users have done before. -/
theorem ownExperiences_of_reachable (h : s.Owned) (hrun : Pool.Reachable (storages V) s p)
    (htask : .selecting userId [] experiences ∈ p.tasks) : OwnExperiences s userId experiences := by
  obtain ⟨chosen, hchosen, hvalid⟩ := chosen_of_reachable hrun _ htask
  rw [List.append_nil] at hvalid
  obtain ⟨hfew, hdistinct⟩ := validateExperienceIds_ok hvalid
  have hlength := hchosen.length_le
  rw [List.length_map] at hfew
  refine ⟨⟨chosen, hchosen, hdistinct⟩, hchosen.own, hlength.trans hfew,
    fun format isNewDraft e he => tells_experiencesText format isNewDraft he, ?_⟩
  refine ⟨_, (projects_view userId).of_reachable keeps_owned h hrun, ?_⟩
  exact List.mem_filter.mpr ⟨htask, decide_eq_true rfl⟩

/-- The first experience that is stored, as a chat selects it. -/
def firstNote : Selected String := ⟨"00000000-0000-0000-0000-000000000001", drawing 0, some 1⟩

theorem ownExperiences_of_reachable_note : ∃ experiences : List Experience,
    experiences.length = 1 ∧ OwnExperiences Storage.empty 7 experiences := by
  have hsome : ((createExperience (drawing 1) [] 7 ⟨note, valid_note⟩).toOption.any fun created =>
      (firstNote.load created.2 7).length = 1) = true := by decide +kernel
  obtain ⟨⟨e, db⟩, hcreated, hlength⟩ := (Option.any_eq_true _ _).mp hsome
  have hstored : (storages String).Runs (Storage.empty, stores 1 7) (⟨db, [(1, 7)]⟩, .over 7) :=
    .last (.create (toOption_eq_some.mp hcreated) List.not_mem_nil)
  have hselected : (storages String).Runs (⟨db, [(1, 7)]⟩, .selecting 7 [firstNote] [])
      (⟨db, [(1, 7)]⟩, .selecting 7 [] (firstNote.load db 7)) := .last .select
  have hrun := hselected.reachable ⟨rfl, rfl⟩ (hstored.reachable trivial .refl)
  exact ⟨_, of_decide_eq_true hlength,
    ownExperiences_of_reachable Storage.owned_empty hrun List.mem_cons_self⟩

end Logit.Chats
