import Logit.Experiences.Quality
import Logit.Experiences.Service
import Logit.Experiences.Tags
import Mathlib.Algebra.Order.Field.Rat
import Mathlib.Order.Monotone.Basic
import Mathlib.Tactic.GCongr
import Mathlib.Tactic.Linarith
import Mathlib.Tactic.Positivity

/-!
# Matching a question

The experiences of a user are ranked by how well they match a question. The score of an experience
is the cosine similarity of its vector and that of the question, with a bonus for common tags and
one for the category, multiplied by the quality of its content. A constant is added and the sum is
capped at one, but nothing keeps it from being negative. Where the similarity is negative enough,
a better content is rated lower.

## Main definitions

* `calculateTagMatchingScore`, `calculateCategoryMatchingScore`, `finalScore` — the score
* `matchQuestion` — the experiences with their scores, the best first
* `LawfulScore`, `LawfulMatches` — what scores and the list of them should be like

## Main results

* `finalScore_mono`, `finalScore_monotone`, `finalScore_lt` — what the score does as its parts grow
* `lawfulMatches_iff` — when all scores are as they should be
-/

namespace Logit.Experiences

open Calendar Python

variable {V : Type}

/-! ## The score -/

/-- How many of the tags of an experience and a question are common to both. -/
def calculateTagMatchingScore (tags : String) (questionTags : List String) : ℚ :=
  if questionTags = [] ∨ tags = "" then 0
  else
    let expTagsSet := (experienceTags tags).toFinset
    let questionTagsSet := questionTags.toFinset
    if expTagsSet ∩ questionTagsSet = ∅ then 0
    else ((expTagsSet ∩ questionTagsSet).card : ℚ) / (expTagsSet ∪ questionTagsSet).card

/-- Whether an experience has the category of a question. -/
def calculateCategoryMatchingScore (category : String) (questionCategory : Option String) : ℚ :=
  match questionCategory.filter (· ≠ "") with
  | none => 0
  | some questionCategory => if category = questionCategory then 1 else 0

/-- The score made of the similarity, the matches and the quality. -/
def finalScore (baseScore tagScore categoryScore quality : ℚ) : ℚ :=
  let rawScore := baseScore + tagScore * (1 / 10) + categoryScore * (1 / 20)
  min (rawScore * quality + 1 / 5) 1

variable (questionTags : List String) (questionCategory : Option String)

def Experience.tagScore (e : Experience) : ℚ := calculateTagMatchingScore e.tags questionTags

def Experience.categoryScore (e : Experience) : ℚ :=
  calculateCategoryMatchingScore (StrEnum.value e.category) questionCategory

/-- The score of an experience whose vector has a similarity with that of the question. -/
def Experience.finalScore (e : Experience) (baseScore : ℚ) : ℚ :=
  Experiences.finalScore baseScore (e.tagScore questionTags) (e.categoryScore questionCategory)
    (calculateContentQuality e)

/-- A point Qdrant has found, and the cosine similarity of its vector and that of the question. -/
structure Hit (V : Type) where
  point : Point V
  score : ℚ

/-- The experience of a hit and its score. -/
def scoreHit (fresh : Fresh) (hit : Hit V) : Option (Experience × ℚ) := do
  let experience ← Experience.ofPayload? fresh hit.point.payload
  return (experience, experience.finalScore questionTags questionCategory hit.score)

/-- The experiences Qdrant has found for a question, by their scores. -/
def matchQuestion (fresh : Fresh) (hits : List (Hit V)) : Option (List (Experience × ℚ)) := do
  let resultsWithScores ← hits.mapM (scoreHit questionTags questionCategory fresh)
  return resultsWithScores.insertionSort fun first second => second.2 ≤ first.2

/-! ## Lawful scores -/

/-- The ratings of contents. -/
def qualities : Set ℚ := {1 / 10, 1 / 5, 7 / 10, 1}

/-- Texts that name the same tags, in any order and any number of times. -/
def SameTags (tags tags' : String) : Prop :=
  (tags = "" ↔ tags' = "") ∧ (experienceTags tags).toFinset = (experienceTags tags').toFinset

/-- A score is between zero and one, grows with each of its parts, and does not depend on the order
or on the repetition of tags. -/
structure LawfulScore (e : Experience) (baseScore : ℚ) : Prop where
  nonneg : 0 ≤ e.finalScore questionTags questionCategory baseScore
  le_one : e.finalScore questionTags questionCategory baseScore ≤ 1
  cosine : MonotoneOn (fun score => finalScore score (e.tagScore questionTags)
    (e.categoryScore questionCategory) (calculateContentQuality e)) (Set.Icc (-1) 1)
  tag : MonotoneOn (fun score => finalScore baseScore score (e.categoryScore questionCategory)
    (calculateContentQuality e)) (Set.Icc 0 1)
  category : MonotoneOn (fun score => finalScore baseScore (e.tagScore questionTags) score
    (calculateContentQuality e)) (Set.Icc 0 1)
  quality : MonotoneOn (fun quality => finalScore baseScore (e.tagScore questionTags)
    (e.categoryScore questionCategory) quality) qualities
  tags : ∀ tags', SameTags e.tags tags' →
    calculateTagMatchingScore tags' questionTags = e.tagScore questionTags
  questionTags : ∀ questionTags', (∀ tag, tag ∈ questionTags' ↔ tag ∈ questionTags) →
    e.tagScore questionTags' = e.tagScore questionTags

/-- The experiences of all hits are ranked by lawful scores. -/
structure LawfulMatches (fresh : Fresh) (hits : List (Hit V)) (results : List (Experience × ℚ)) :
    Prop where
  perm : ∃ scored, List.Forall₂ (fun hit result =>
    scoreHit questionTags questionCategory fresh hit = some result) hits scored ∧
      results.Perm scored
  sorted : results.Pairwise fun first second => second.2 ≤ first.2
  scores : ∀ hit ∈ hits, ∀ e, Experience.ofPayload? fresh hit.point.payload = some e →
    LawfulScore questionTags questionCategory e hit.score

/-- The similarity is not so far below zero that the bonuses do not make up for it. -/
def NotOpposed (e : Experience) (baseScore : ℚ) : Prop :=
  -(e.tagScore questionTags * (1 / 10) + e.categoryScore questionCategory * (1 / 20)) ≤ baseScore

instance (e : Experience) (baseScore : ℚ) :
    Decidable (NotOpposed questionTags questionCategory e baseScore) :=
  inferInstanceAs (Decidable (_ ≤ _))

/-! ## One score -/

variable {questionTags questionCategory} {e : Experience} {baseScore tagScore categoryScore : ℚ}

theorem rateContent_mem (text : List Char) : rateContent text ∈ qualities := by
  unfold rateContent qualities
  dsimp only
  split_ifs <;> simp

theorem calculateContentQuality_mem (e : Experience) : calculateContentQuality e ∈ qualities := by
  unfold calculateContentQuality
  split_ifs
  · simp [qualities]
  · exact rateContent_mem _

theorem pos_of_mem_qualities {quality : ℚ} (h : quality ∈ qualities) : 0 < quality := by
  rcases h with rfl | rfl | rfl | rfl <;> norm_num

/-- A score grows with the sum of the similarity and the bonuses. -/
theorem finalScore_mono {baseScore' tagScore' categoryScore' quality : ℚ} (hquality : 0 ≤ quality)
    (h : baseScore + tagScore * (1 / 10) + categoryScore * (1 / 20) ≤
      baseScore' + tagScore' * (1 / 10) + categoryScore' * (1 / 20)) :
    finalScore baseScore tagScore categoryScore quality ≤
      finalScore baseScore' tagScore' categoryScore' quality := by
  unfold finalScore
  dsimp only
  gcongr

/-- If that sum is not negative, a score grows with the quality. -/
theorem finalScore_monotone
    (h : 0 ≤ baseScore + tagScore * (1 / 10) + categoryScore * (1 / 20)) :
    Monotone (finalScore baseScore tagScore categoryScore) := by
  intro quality quality' hle
  unfold finalScore
  dsimp only
  gcongr

/-- If it is negative, the best content is rated lower than the worst. -/
theorem finalScore_lt
    (h : baseScore + tagScore * (1 / 10) + categoryScore * (1 / 20) < 0) :
    finalScore baseScore tagScore categoryScore 1 <
      finalScore baseScore tagScore categoryScore (1 / 10) := by
  unfold finalScore
  dsimp only
  rw [min_eq_left (by linarith), min_eq_left (by linarith)]
  linarith

/-- Only the sets of tags matter. -/
theorem calculateTagMatchingScore_congr {tags tags' : String}
    {questionTags questionTags' : List String} (htags : SameTags tags tags')
    (hquestion : ∀ tag, tag ∈ questionTags' ↔ tag ∈ questionTags) :
    calculateTagMatchingScore tags' questionTags' =
      calculateTagMatchingScore tags questionTags := by
  have hset : questionTags'.toFinset = questionTags.toFinset := by
    ext tag
    simp [hquestion]
  have hnil : questionTags' = [] ↔ questionTags = [] := by
    rw [← List.toFinset_eq_empty_iff, hset, List.toFinset_eq_empty_iff]
  unfold calculateTagMatchingScore
  simp only [hset, hnil, htags.1, htags.2]

/-- A score is lawful if and only if the similarity is not so far below zero that the bonuses do
not make up for it. -/
theorem lawfulScore_iff (e : Experience) (baseScore : ℚ) :
    LawfulScore questionTags questionCategory e baseScore ↔
      NotOpposed questionTags questionCategory e baseScore := by
  have hquality := pos_of_mem_qualities (calculateContentQuality_mem e)
  unfold NotOpposed
  constructor
  · intro h
    by_contra hopposed
    have hneg : baseScore + e.tagScore questionTags * (1 / 10) +
        e.categoryScore questionCategory * (1 / 20) < 0 := by linarith
    have hgrows := h.quality (show 1 / 10 ∈ qualities by simp [qualities])
      (show 1 ∈ qualities by simp [qualities]) (by norm_num)
    exact absurd (finalScore_lt hneg) (not_lt.mpr hgrows)
  · intro hnotOpposed
    refine ⟨?_, min_le_right _ _, ?_, ?_, ?_, ?_, ?_, ?_⟩
    · refine le_min ?_ zero_le_one
      have hraw := mul_nonneg (show 0 ≤ baseScore + e.tagScore questionTags * (1 / 10) +
        e.categoryScore questionCategory * (1 / 20) by linarith) hquality.le
      linarith
    · exact fun score _ score' _ hle => finalScore_mono hquality.le (by linarith)
    · exact fun score _ score' _ hle => finalScore_mono hquality.le (by linarith)
    · exact fun score _ score' _ hle => finalScore_mono hquality.le (by linarith)
    · exact (finalScore_monotone (by linarith)).monotoneOn _
    · exact fun tags' htags => calculateTagMatchingScore_congr htags fun _ => Iff.rfl
    · exact fun questionTags' hquestion =>
        calculateTagMatchingScore_congr ⟨Iff.rfl, rfl⟩ hquestion

/-! ## All scores -/

theorem forall₂_of_mapM {α β : Type} {f : α → Option β} {xs : List α} {ys : List β}
    (h : xs.mapM f = some ys) : List.Forall₂ (fun x y => f x = some y) xs ys := by
  induction xs generalizing ys with
  | nil =>
    obtain rfl : [] = ys := Option.some.inj h
    exact .nil
  | cons x xs ih =>
    rw [List.mapM_cons] at h
    obtain ⟨y, hy, h⟩ := Option.bind_eq_some_iff.mp h
    obtain ⟨rest, hrest, h⟩ := Option.bind_eq_some_iff.mp h
    obtain rfl := Option.some.inj h
    exact .cons hy (ih hrest)

/-- The experiences are ranked by lawful scores if and only if no similarity is too far below
zero. -/
theorem lawfulMatches_iff {fresh : Fresh} {hits : List (Hit V)} {results : List (Experience × ℚ)}
    (h : matchQuestion questionTags questionCategory fresh hits = some results) :
    LawfulMatches questionTags questionCategory fresh hits results ↔
      ∀ hit ∈ hits, ∀ e, Experience.ofPayload? fresh hit.point.payload = some e →
        NotOpposed questionTags questionCategory e hit.score := by
  simp only [← lawfulScore_iff]
  refine ⟨LawfulMatches.scores, fun hscores => ⟨?_, ?_, hscores⟩⟩
  all_goals obtain ⟨scored, hscored, hsorted⟩ := Option.bind_eq_some_iff.mp h
  all_goals obtain rfl := Option.some.inj hsorted
  · exact ⟨scored, forall₂_of_mapM hscored, List.perm_insertionSort _ scored⟩
  · let Better : Experience × ℚ → Experience × ℚ → Prop := fun first second => second.2 ≤ first.2
    have htotal : Std.Total Better := ⟨fun first second => le_total second.2 first.2⟩
    have htrans : IsTrans (Experience × ℚ) Better := ⟨fun _ _ _ h h' => h'.trans h⟩
    exact List.pairwise_insertionSort Better scored

/-! ### Two experiences -/

/-- The hit of an experience. -/
def hitOf (id : UUID) (e : Experience) (score : ℚ) : Hit (List ℤ) :=
  ⟨⟨id, [1], e.attributes.modelDump⟩, score⟩

theorem ofPayload?_hitOf (fresh : Fresh) (id : UUID) (e : Experience) (score : ℚ) :
    Experience.ofPayload? fresh (hitOf id e score).point.payload = some e :=
  Experience.ofPayload?_attributes fresh e

theorem scoreHit_hitOf (fresh : Fresh) (id : UUID) (e : Experience) (score : ℚ) :
    scoreHit questionTags questionCategory fresh (hitOf id e score) =
      some (e, e.finalScore questionTags questionCategory score) := by
  rw [scoreHit, ofPayload?_hitOf]
  rfl

/-- What the default factories make at an instant. -/
def freshAtNine : Fresh := ⟨"", .utc 2026 1 1 9⟩

theorem variedText_length : 1 ≤ variedText.length := by decide

/-- A short text. -/
def shortText : String := "이웃을 도왔다"

theorem shortText_length : 1 ≤ shortText.length := by decide

/-- A good text, in the format of a problem and its solution. -/
def goodNote : Experience := writtenAs .psi variedText variedText_length

/-- A short text. -/
def shortNote : Experience :=
  { writtenAs .free shortText shortText_length with id := UUID.str 2 }

/-- A question that has a tag in common with two experiences is a little opposed to one of them,
and the tag makes up for it. -/
theorem lawfulMatches_iff_twoNotes : LawfulMatches ["커뮤니케이션"] none freshAtNine
    [hitOf 1 goodNote (-1 / 20), hitOf 2 shortNote (1 / 2)]
    [(shortNote, 31 / 50), (goodNote, 1 / 4)] := by
  have hgood : goodNote.finalScore ["커뮤니케이션"] none (-1 / 20) = 1 / 4 := by decide +kernel
  have hshort : shortNote.finalScore ["커뮤니케이션"] none (1 / 2) = 31 / 50 := by decide +kernel
  have hmatch : matchQuestion ["커뮤니케이션"] none freshAtNine
      [hitOf 1 goodNote (-1 / 20), hitOf 2 shortNote (1 / 2)] =
        some [(shortNote, 31 / 50), (goodNote, 1 / 4)] := by
    rw [matchQuestion, List.mapM_cons, List.mapM_cons, scoreHit_hitOf, scoreHit_hitOf, hgood,
      hshort]
    change some (List.insertionSort _ [(goodNote, 1 / 4), (shortNote, 31 / 50)]) = _
    rw [List.insertionSort_cons, List.insertionSort_cons, List.insertionSort_nil,
      List.orderedInsert_nil, List.orderedInsert_cons, if_neg (by norm_num),
      List.orderedInsert_nil]
  refine (lawfulMatches_iff hmatch).mpr fun hit hhit e he => ?_
  simp only [List.mem_cons, List.not_mem_nil, or_false] at hhit
  rcases hhit with rfl | rfl
  all_goals obtain rfl := Option.some.inj ((ofPayload?_hitOf ..).symm.trans he)
  · decide +kernel
  · decide +kernel

/-- An experience that is opposed to the question has a negative score. -/
theorem not_lawfulMatches : ¬ ∀ (questionTags : List String) (questionCategory : Option String)
    (fresh : Fresh) (hits : List (Hit (List ℤ))) (results : List (Experience × ℚ)),
    (∀ hit ∈ hits, -1 ≤ hit.score ∧ hit.score ≤ 1) →
    matchQuestion questionTags questionCategory fresh hits = some results →
    LawfulMatches questionTags questionCategory fresh hits results := by
  intro h
  have hmatch : matchQuestion [] none freshAtNine [hitOf 2 shortNote (-1)] =
      some [(shortNote, shortNote.finalScore [] none (-1))] := by
    rw [matchQuestion, List.mapM_cons, List.mapM_nil, scoreHit_hitOf]
    rfl
  have hlawful := h _ _ _ _ _ (fun hit hhit => by
    obtain rfl := List.mem_singleton.mp hhit
    decide +kernel) hmatch
  have hnonneg := (hlawful.scores _ (List.mem_singleton_self _) _ (ofPayload?_hitOf ..)).nonneg
  have hscore : shortNote.finalScore [] none (-1) = -1 / 2 := by decide +kernel
  change 0 ≤ shortNote.finalScore [] none (-1) at hnonneg
  rw [hscore] at hnonneg
  norm_num at hnonneg

end Logit.Experiences
