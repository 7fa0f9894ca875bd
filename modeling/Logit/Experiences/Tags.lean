import Logit.Experiences.Classification

/-!
# Tags as a text

The tags of an experience are stored as one text, joined by commas, and split again where they are
counted and matched. They come from an answer of OpenAI that may have any form. Whatever it is,
one to three of the available tags are joined, and these are what the text is split into.

## Main definitions

* `experienceTags`, `reportTags` — the tags of a text, as they are matched and counted
* `WellFormed` — a classification whose tags are split as they have been joined

## Main results

* `wellFormed_readLine`, `wellFormed_readAnswer` — what a line and an answer lead to
* `exists_wellFormed` — every classification is well-formed
-/

namespace Logit.Experiences

open Python

/-- The tags of a text as a question's tags are matched with them. -/
def experienceTags (tags : String) : List String := (split ',' tags).map strip

/-- The tags of a text as the report counts them. -/
def reportTags (tags : String) : List String :=
  if tags = "" then []
  else ((split ',' tags).filter fun tag => strip tag ≠ "").map strip

/-- A valid category, and tags that have been joined from one to three available ones and are
split into the same. -/
structure WellFormed (found : Classification) (joined : List String) : Prop where
  category : StrEnum.value found.category ∈ AVAILABLE_CATEGORIES
  tags : found.tags = ", ".intercalate joined
  length_pos : 1 ≤ joined.length
  length_le : joined.length ≤ 3
  available : ∀ tag ∈ joined, tag ∈ AVAILABLE_TAGS
  matched : experienceTags found.tags = joined
  reported : reportTags found.tags = joined

/-- The available tags have no comma, no white space around them, and are not empty. -/
theorem plain_of_available : ∀ tag ∈ AVAILABLE_TAGS,
    ',' ∉ tag.toList ∧ strip tag = tag ∧ tag ≠ "" := by
  decide +kernel

theorem mem_availableCategories (category : ExperienceCategory) :
    StrEnum.value category ∈ AVAILABLE_CATEGORIES :=
  List.mem_map_of_mem (StrEnum.mem_members category)

variable {joined : List String}

/-- Tags that are joined from available ones are split as they have been joined. -/
theorem experienceTags_intercalate (hne : joined ≠ [])
    (havailable : ∀ tag ∈ joined, tag ∈ AVAILABLE_TAGS) :
    experienceTags (", ".intercalate joined) = joined :=
  map_strip_split (by decide) hne (fun tag htag => (plain_of_available tag (havailable tag htag)).1)
    fun tag htag => (plain_of_available tag (havailable tag htag)).2.1

/-- The report leaves out what is empty, and is otherwise the same. -/
theorem reportTags_eq (tags : String) :
    reportTags tags = (experienceTags tags).filter (· ≠ "") := by
  unfold reportTags experienceTags
  split_ifs with hempty
  · subst hempty
    decide
  · rw [List.filter_map]
    rfl

theorem wellFormed_intercalate (category : ExperienceCategory) (hpos : 1 ≤ joined.length)
    (hle : joined.length ≤ 3) (havailable : ∀ tag ∈ joined, tag ∈ AVAILABLE_TAGS) :
    WellFormed ⟨", ".intercalate joined, category⟩ joined := by
  have hsplit := experienceTags_intercalate (List.ne_nil_of_length_pos hpos) havailable
  refine ⟨mem_availableCategories category, rfl, hpos, hle, havailable, hsplit, ?_⟩
  rw [reportTags_eq, hsplit, List.filter_eq_self]
  exact fun tag htag => decide_eq_true (plain_of_available tag (havailable tag htag)).2.2

theorem wellFormed_default : WellFormed defaultClassification ["문제해결"] := by
  have hjoined : defaultClassification =
      ⟨", ".intercalate ["문제해결"], .creativeProblemSolving⟩ := by
    rw [String.intercalate_singleton]
    rfl
  rw [hjoined]
  exact wellFormed_intercalate _ (by decide) (by decide) (by decide)

/-- A line leaves the tags, or joins other ones. -/
theorem wellFormed_readLine {found : Classification} (h : ∃ joined, WellFormed found joined)
    (line : String) : ∃ joined, WellFormed (readLine found line) joined := by
  obtain ⟨joined, hjoined⟩ := h
  have hcategory (category : ExperienceCategory) : WellFormed { found with category } joined :=
    { hjoined with category := mem_availableCategories category }
  unfold readLine
  dsimp only
  cases removePrefix? "태그:" (strip line) with
  | some rawTags =>
    dsimp only
    split_ifs with hnone
    · exact ⟨joined, hjoined⟩
    · refine ⟨_, wellFormed_intercalate found.category ?_ (List.length_take_le 3 _) fun tag htag =>
        by simpa using (List.mem_filter.mp (List.mem_of_mem_take htag)).2⟩
      rw [List.length_take]
      have hpos := List.length_pos_iff.mpr hnone
      omega
  | none =>
    dsimp only
    cases removePrefix? "카테고리:" (strip line) with
    | none => exact ⟨joined, hjoined⟩
    | some rawCategory =>
      dsimp only
      cases (StrEnum.ofValue? (strip rawCategory) : Option ExperienceCategory) with
      | none => exact ⟨joined, hjoined⟩
      | some category => exact ⟨joined, hcategory category⟩

/-- Every answer leads to well-formed tags: so does what comes before its first line, and each
line after. -/
theorem wellFormed_readAnswer (answer : String) :
    ∃ joined, WellFormed (readAnswer answer) joined := by
  unfold readAnswer
  generalize hfound : defaultClassification = found
  have hstart : ∃ joined, WellFormed found joined := hfound ▸ ⟨_, wellFormed_default⟩
  clear hfound
  induction split '\n' (strip answer) generalizing found with
  | nil => exact hstart
  | cons line lines ih => exact ih _ (wellFormed_readLine hstart line)

/-- Whatever OpenAI answers, the tags are split into the one to three available tags they have been
joined from. -/
theorem exists_wellFormed {V : Type} (services : Services V) (a : Attributes) :
    ∃ joined, WellFormed (generateTagsAndCategory services a) joined := by
  unfold generateTagsAndCategory
  split
  · exact wellFormed_readAnswer _
  · exact ⟨_, wellFormed_default⟩

end Logit.Experiences
