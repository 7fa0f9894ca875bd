import Logit.Experiences.Service
import Logit.Experiences.Tags
import Logit.Python.Counter

/-!
# The report

The report counts a user's experiences by type, by category and by tag. Qdrant hands them out page
by page. The tags of all experiences are counted as one list, so an experience whose text names a
tag twice counts twice for it.

## Main definitions

* `Scroll` — the pages of a query, as Qdrant answers them one after another
* `getAllUserExperiences`, `getExperienceAggregates` — the experiences, and what is counted
* `getExperienceTypeCounts`, `getExperienceCategoryCounts`, `getExperienceTagCounts` — the single
  counts
* `CountsExperiences` — a report that counts experiences

## Main results

* `collect_of_splits` — pages do not matter
* `countsExperiences_iff` — experiences are counted if and only if none names a tag twice
-/

namespace Logit.Reports

open Calendar Experiences Python

variable {V : Type}

/-! ## Pages -/

/-- The answers to the calls of a scroll, of which every one asks for the page that the one before
has named. -/
inductive Scroll (V : Type)
  | fails (error : QdrantError)
  /-- A page after which there is no other. -/
  | last (points : List (Point V))
  | more (points : List (Point V)) (rest : Scroll V)

namespace Scroll

/-- The points of all pages, after those of the pages before. -/
def collect : Scroll V → List (Point V) → Except QdrantError (List (Point V))
  | fails error, _ => .error error
  | last points, allPoints => .ok (allPoints ++ points)
  | more points rest, allPoints => rest.collect (allPoints ++ points)

/-- The pages split a list of points. -/
def Splits : Scroll V → List (Point V) → Prop
  | fails _, _ => False
  | last points, all => all = points
  | more points rest, all => ∃ others, all = points ++ others ∧ rest.Splits others

/-- However the points are split, the loop collects them all. -/
theorem collect_of_splits {scroll : Scroll V} {all : List (Point V)} (h : scroll.Splits all)
    (before : List (Point V)) : scroll.collect before = .ok (before ++ all) := by
  induction scroll generalizing all before with
  | fails => exact h.elim
  | last points => exact h ▸ rfl
  | more points rest ih =>
    obtain ⟨others, rfl, hrest⟩ := h
    rw [collect, ih hrest, List.append_assoc]

end Scroll

/-- All experiences of a user. -/
def getAllUserExperiences (fresh : Fresh) (scroll : Scroll V) :
    Except HTTPException (List Experience) :=
  match scroll.collect [] with
  | .error .unexpectedResponse =>
    .error ⟨503, "Failed to retrieve experiences from vector database. Please try again later."⟩
  | .error .other => .error ⟨500, "Internal server error while retrieving experiences."⟩
  | .ok allPoints =>
    match experiencesOf fresh allPoints with
    | some experiences => .ok experiences
    | none => .error ⟨500, "Invalid experience data format in database."⟩

/-! ## Counts -/

/-- A dictionary from texts to numbers. -/
abbrev Counts : Type := List (String × ℕ)

/-- What `get_experience_aggregates` returns. -/
structure Aggregates where
  typeCounts : Counts
  categoryCounts : Counts
  tagCounts : Counts
  total : ℕ
  deriving DecidableEq, Repr

def typeCounts (experiences : List Experience) : Counts :=
  counter (experiences.map fun e => StrEnum.value e.experienceType)

def categoryCounts (experiences : List Experience) : Counts :=
  counter (experiences.map fun e => StrEnum.value e.category)

/-- The tags of all experiences are counted as one list. -/
def tagCounts (experiences : List Experience) : Counts :=
  counter (experiences.flatMap fun e => reportTags e.tags)

variable (fresh : Fresh) (scroll : Scroll V)

def getExperienceAggregates : Except HTTPException Aggregates := do
  let experiences ← getAllUserExperiences fresh scroll
  return ⟨typeCounts experiences, categoryCounts experiences, tagCounts experiences,
    experiences.length⟩

def getExperienceTypeCounts : Except HTTPException (Counts × ℕ) := do
  let experiences ← getAllUserExperiences fresh scroll
  return (typeCounts experiences, experiences.length)

def getExperienceCategoryCounts : Except HTTPException (Counts × ℕ) := do
  let experiences ← getAllUserExperiences fresh scroll
  return (categoryCounts experiences, experiences.length)

def getExperienceTagCounts : Except HTTPException (Counts × ℕ) := do
  let experiences ← getAllUserExperiences fresh scroll
  return (tagCounts experiences, experiences.length)

/-! ## Counting experiences -/

/-- The numbers of a report are numbers of experiences. -/
structure Aggregates.Count (report : Aggregates) (experiences : List Experience) : Prop where
  total : report.total = experiences.length
  types : (report.typeCounts.map Prod.snd).sum = report.total
  categories : (report.categoryCounts.map Prod.snd).sum = report.total
  tags : ∀ tag,
    countOf report.tagCounts tag = experiences.countP fun e => tag ∈ reportTags e.tags
  tags_le : ∀ tag, countOf report.tagCounts tag ≤ report.total

/-- A report and the single counts agree. -/
structure Aggregates.Agrees (report : Aggregates) : Prop where
  types : getExperienceTypeCounts fresh scroll = .ok (report.typeCounts, report.total)
  categories : getExperienceCategoryCounts fresh scroll = .ok (report.categoryCounts, report.total)
  tags : getExperienceTagCounts fresh scroll = .ok (report.tagCounts, report.total)

/-- The report about the points of a scroll counts experiences, and agrees with the single
counts. -/
def CountsExperiences (experiences : List Experience) : Prop :=
  ∃ report, getExperienceAggregates fresh scroll = .ok report ∧ report.Count experiences ∧
    report.Agrees fresh scroll

variable {fresh scroll} {points : List (Point V)} {experiences : List Experience}

theorem getAllUserExperiences_ok (hsplits : scroll.Splits points)
    (hread : experiencesOf fresh points = some experiences) :
    getAllUserExperiences fresh scroll = .ok experiences := by
  rw [getAllUserExperiences, Scroll.collect_of_splits hsplits, List.nil_append]
  simp only [hread]

theorem getExperienceAggregates_ok (h : getAllUserExperiences fresh scroll = .ok experiences) :
    getExperienceAggregates fresh scroll = .ok ⟨typeCounts experiences,
      categoryCounts experiences, tagCounts experiences, experiences.length⟩ := by
  rw [getExperienceAggregates, h]
  rfl

/-- The report and the single counts come from the same experiences. -/
theorem agrees (h : getAllUserExperiences fresh scroll = .ok experiences) :
    Aggregates.Agrees fresh scroll ⟨typeCounts experiences, categoryCounts experiences,
      tagCounts experiences, experiences.length⟩ where
  types := by
    rw [getExperienceTypeCounts, h]
    rfl
  categories := by
    rw [getExperienceCategoryCounts, h]
    rfl
  tags := by
    rw [getExperienceTagCounts, h]
    rfl

/-- The tags that are counted are those of experiences if no experience names one twice. -/
theorem countOf_tagCounts_iff (experiences : List Experience) :
    (∀ tag, countOf (tagCounts experiences) tag =
      experiences.countP fun e => tag ∈ reportTags e.tags) ↔
      ∀ e ∈ experiences, (reportTags e.tags).Nodup := by
  rw [← count_flatMap_eq_iff]
  simp only [tagCounts, countOf_counter]

/-- However the pages are split, the report counts experiences and agrees with the single counts,
if and only if no experience names a tag twice. -/
theorem countsExperiences_iff (hsplits : scroll.Splits points)
    (hread : experiencesOf fresh points = some experiences) :
    CountsExperiences fresh scroll experiences ↔
      ∀ e ∈ experiences, (reportTags e.tags).Nodup := by
  have hall := getAllUserExperiences_ok hsplits hread
  have hreport := getExperienceAggregates_ok hall
  rw [← countOf_tagCounts_iff]
  constructor
  · rintro ⟨report, hok, hcount, -⟩
    obtain rfl := Except.ok.inj (hreport.symm.trans hok)
    exact hcount.tags
  · intro htags
    refine ⟨_, hreport, ⟨rfl, ?_, ?_, htags, fun tag => ?_⟩, agrees hall⟩
    · rw [typeCounts, sum_counter, List.length_map]
    · rw [categoryCounts, sum_counter, List.length_map]
    · rw [htags tag]
      exact List.countP_le_length

/-! ### Experiences with tags -/

/-- What an answer of OpenAI makes of an experience. -/
def taggedNote (id : UUID) (answer : String) : Experience where
  id := UUID.str id
  userId := UUID.str 7
  title := "나눔"
  startDate := (PyDatetime.utc 2025 6 1 0).date
  endDate := none
  experienceType := .volunteer
  formatType := .free
  category := (readAnswer answer).category
  tags := (readAnswer answer).tags
  text := fun field => if field = .content then some "이웃을 도왔다" else none
  createdAt := .utc 2026 1 1 9
  updatedAt := .utc 2026 1 1 9
  title_length := by decide
  text_length := by decide

/-- A point and the experience that is read from it. -/
def pointOf (id : UUID) (e : Experience) : Point (List ℤ) := ⟨id, [1], e.attributes.modelDump⟩

theorem experiencesOf_pointOf (fresh : Fresh) (id : UUID) (e : Experience)
    (points : List (Point (List ℤ))) :
    experiencesOf fresh (pointOf id e :: points) =
      (experiencesOf fresh points).map (e :: ·) := by
  have hread : Experience.ofPayload? fresh (pointOf id e).payload = some e :=
    Experience.ofPayload?_attributes fresh e
  rw [experiencesOf, List.mapM_cons, hread, Option.map_eq_bind]
  rfl

/-- What the default factories make in a morning. -/
def freshAtNine : Fresh := ⟨"", .utc 2026 1 1 9⟩

/-- OpenAI gives the same answer for every experience. -/
def answering (answer : String) : Services (List ℤ) :=
  ⟨fun _ => some answer, fun _ => .ok [1]⟩

/-- Three experiences with two tags. -/
def threeNotes : List Experience :=
  [taggedNote 1 "태그: 백엔드, CRM", taggedNote 2 "태그: CRM", taggedNote 3 "태그: 백엔드"]

/-- Their points on two pages. -/
def twoPages : Scroll (List ℤ) :=
  .more [pointOf 1 (taggedNote 1 "태그: 백엔드, CRM"), pointOf 2 (taggedNote 2 "태그: CRM")]
    (.last [pointOf 3 (taggedNote 3 "태그: 백엔드")])

theorem countsExperiences_iff_threeNotes : CountsExperiences freshAtNine twoPages threeNotes ∧
    tagCounts threeNotes = [("백엔드", 2), ("CRM", 2)] := by
  have hsplits : twoPages.Splits [pointOf 1 (taggedNote 1 "태그: 백엔드, CRM"),
      pointOf 2 (taggedNote 2 "태그: CRM"), pointOf 3 (taggedNote 3 "태그: 백엔드")] :=
    ⟨_, rfl, rfl⟩
  have hread : experiencesOf freshAtNine [pointOf 1 (taggedNote 1 "태그: 백엔드, CRM"),
      pointOf 2 (taggedNote 2 "태그: CRM"), pointOf 3 (taggedNote 3 "태그: 백엔드")] =
        some threeNotes := by
    rw [experiencesOf_pointOf, experiencesOf_pointOf, experiencesOf_pointOf]
    rfl
  exact ⟨(countsExperiences_iff hsplits hread).mpr (by decide +kernel), by decide +kernel⟩

/-- An answer that names a tag twice is counted twice. -/
theorem not_countsExperiences : ¬ ∀ (fresh : Fresh) (scroll : Scroll (List ℤ))
    (points : List (Point (List ℤ))) (experiences : List Experience), scroll.Splits points →
    experiencesOf fresh points = some experiences →
    (∀ e ∈ experiences, ∃ (services : Services (List ℤ)) (a : Attributes),
      generateTagsAndCategory services a = ⟨e.tags, e.category⟩) →
    CountsExperiences fresh scroll experiences := by
  intro h
  let note := taggedNote 1 "태그: 백엔드, 백엔드"
  have hread : experiencesOf freshAtNine [pointOf 1 note] = some [note] := by
    rw [experiencesOf_pointOf]
    rfl
  have hsplits : (Scroll.last [pointOf 1 note]).Splits [pointOf 1 note] := rfl
  obtain ⟨report, hok, hcount, -⟩ := h freshAtNine _ _ _ hsplits hread
    fun e he => ⟨answering "태그: 백엔드, 백엔드", note.attributes, by
      rw [List.mem_singleton.mp he]
      rfl⟩
  obtain rfl := Except.ok.inj ((getExperienceAggregates_ok (getAllUserExperiences_ok
    hsplits hread)).symm.trans hok)
  exact absurd ((countOf_tagCounts_iff _).mp hcount.tags) (by decide +kernel)

end Logit.Reports
