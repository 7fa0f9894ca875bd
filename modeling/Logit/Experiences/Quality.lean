import Logit.Experiences.Classification
import Logit.Python.Runs
import Logit.Python.Uuid
import Mathlib.Data.Finset.Card
import Mathlib.Data.Rat.Defs
import Mathlib.Tactic.NormNum

/-!
# Content quality

The body texts of an experience are joined and rated: texts that are missing, made of consonants
and vowels alone, repetitive or short are rated low. Texts that are all good on their own need not
be so when they are joined: the more characters there are, the more different ones are asked for,
and blanks at the end of a text and at the start of the next make a run.

## Main definitions

* `calculateContentQuality` — the rating
* `Experience.alone` — one text, as an experience in the free format
* `Varied`, `Seamless` — texts with enough different characters, and without runs between them

## Main results

* `rateContent_eq_one` — which texts are rated as good
* `calculateContentQuality_eq_one_iff` — when good texts are good together
-/

namespace Logit.Experiences

open Calendar Python

/-! ## The rating -/

def MIN_CONTENT_LENGTH : ℕ := 20

/-- The characters of `_HANGUL_JAMO_ONLY_PATTERN`. -/
def isJamo (c : Char) : Bool :=
  ('ㄱ' ≤ c && c ≤ 'ㅎ') || ('ㅏ' ≤ c && c ≤ 'ㅣ') || isSpace c ||
    c ∈ ['.', ',', '!', '?', '~', 'ㅋ', 'ㅎ', 'ㅠ', 'ㅜ']

/-- `_HANGUL_JAMO_ONLY_PATTERN` matches. -/
def jamoOnly (text : List Char) : Bool := text ≠ [] && text.all isJamo

/-- `_REPEATED_CHAR_PATTERN` is found: a character that does not end a line, four times in a
row. -/
def hasRepeatedChar : List Char → Bool
  | [] => false
  | c :: cs => (c ≠ '\n' && [c, c, c].isPrefixOf cs) || hasRepeatedChar cs

/-- `text.replace(" ", "")`. -/
def withoutBlanks (text : List Char) : List Char := text.filter (· ≠ ' ')

/-- The rating of the texts, once they are joined. -/
def rateContent (combined : List Char) : ℚ :=
  let totalChars := (withoutBlanks combined).length
  if totalChars = 0 then 1 / 10
  else if jamoOnly combined then 1 / 10
  else if hasRepeatedChar combined then 1 / 10
  else if ((withoutBlanks combined).toFinset.card : ℚ) / totalChars < 1 / 5 then 1 / 10
  else if totalChars < MIN_CONTENT_LENGTH then 7 / 10
  else 1

/-- The texts of the format that are there. -/
def contentParts (e : Experience) : List String :=
  e.formatType.fields.filterMap fun field => (e.text field).filter (· ≠ "")

def calculateContentQuality (e : Experience) : ℚ :=
  if contentParts e = [] then 1 / 5
  else rateContent (" ".intercalate (contentParts e)).toList

/-- One text of an experience, as the content of an experience in the free format. -/
def Experience.alone (e : Experience) (field : TextField) : Experience :=
  { e with
    formatType := .free
    text := fun other => if other = .content then e.text field else none
    text_length := by
      intro other value hvalue
      split_ifs at hvalue
      · exact e.text_length field value hvalue
      · cases hvalue }

/-! ## Good texts -/

/-- At least every fifth of so many characters is another one. -/
def Varied (chars : List Char) : Prop := chars.length ≤ 5 * chars.toFinset.card

instance (chars : List Char) : Decidable (Varied chars) := inferInstanceAs (Decidable (_ ≤ _))

/-- What makes a text good, except that its characters are varied. -/
structure Sound (text : List Char) : Prop where
  jamo : ∃ c ∈ text, isJamo c = false
  repeated : hasRepeatedChar text = false
  long : MIN_CONTENT_LENGTH ≤ (withoutBlanks text).length

theorem jamoOnly_eq_false {text : List Char} (hne : text ≠ []) :
    jamoOnly text = false ↔ ∃ c ∈ text, isJamo c = false := by
  simp [jamoOnly, hne]

/-- The texts that are rated as good. -/
theorem rateContent_eq_one {text : List Char} :
    rateContent text = 1 ↔ Sound text ∧ Varied (withoutBlanks text) := by
  unfold rateContent
  dsimp only
  have hratio (hpos : (withoutBlanks text).length ≠ 0) :
      ((withoutBlanks text).toFinset.card : ℚ) / (withoutBlanks text).length < 1 / 5 ↔
        ¬ Varied (withoutBlanks text) := by
    rw [div_lt_div_iff₀ (by positivity) (by norm_num), Varied, not_le]
    norm_cast
    omega
  have hnonempty (hpos : (withoutBlanks text).length ≠ 0) : text ≠ [] := by
    rintro rfl
    exact hpos rfl
  constructor
  · intro h
    split_ifs at h with hblank hjamo hrepeated hvaried hshort <;> try norm_num at h
    rw [hratio hblank, not_not] at hvaried
    rw [Bool.not_eq_true] at hjamo hrepeated
    exact ⟨⟨(jamoOnly_eq_false (hnonempty hblank)).mp hjamo, hrepeated, not_lt.mp hshort⟩, hvaried⟩
  · rintro ⟨⟨hjamo, hrepeated, hlong⟩, hvaried⟩
    have hblank : (withoutBlanks text).length ≠ 0 := by
      have hmin : 0 < MIN_CONTENT_LENGTH := by decide
      omega
    rw [if_neg hblank, if_neg (by rw [(jamoOnly_eq_false (hnonempty hblank)).mpr hjamo]; decide),
      if_neg (by rw [hrepeated]; decide), if_neg (by rwa [hratio hblank, not_not]),
      if_neg (not_lt.mpr hlong)]

/-! ## Joined texts -/

/-- Repetition of a character, as a part of the text. -/
theorem hasRepeatedChar_iff {text : List Char} :
    hasRepeatedChar text = true ↔ ∃ c ≠ '\n', List.replicate 4 c <:+: text := by
  induction text with
  | nil => simp [hasRepeatedChar]
  | cons c cs ih =>
    rw [hasRepeatedChar, Bool.or_eq_true, ih]
    constructor
    · rintro (h | ⟨d, hd, hinfix⟩)
      · rw [Bool.and_eq_true, decide_eq_true_eq, List.isPrefixOf_iff_prefix] at h
        exact ⟨c, h.1, ((List.cons_prefix_cons).mpr ⟨rfl, h.2⟩).isInfix⟩
      · exact ⟨d, hd, hinfix.trans (List.suffix_cons c cs).isInfix⟩
    · rintro ⟨d, hd, hinfix⟩
      rcases List.infix_cons_iff.mp hinfix with hprefix | hinfix
      · obtain ⟨rfl, hrest⟩ := List.cons_prefix_cons.mp hprefix
        refine .inl ?_
        rw [Bool.and_eq_true, decide_eq_true_eq, List.isPrefixOf_iff_prefix]
        exact ⟨hd, hrest⟩
      · exact .inr ⟨d, hd, hinfix⟩

/-- Between two texts that are joined by a blank, blanks at the end of the first and at the start
of the second make no run. -/
def Seam (first second : List Char) : Prop := trailing ' ' first + leading ' ' second < 3

instance (first second : List Char) : Decidable (Seam first second) :=
  inferInstanceAs (Decidable (_ < _))

/-- Joined texts repeat a character if one of them does, or blanks between them do. -/
theorem hasRepeatedChar_join {first second : List Char} :
    hasRepeatedChar (first ++ ' ' :: second) = true ↔
      hasRepeatedChar first = true ∨ hasRepeatedChar second = true ∨ ¬ Seam first second := by
  simp only [hasRepeatedChar_iff, Seam, not_lt]
  constructor
  · rintro ⟨c, hc, hinfix⟩
    rcases replicate_infix_append_iff.mp hinfix with hfirst | hsecond | hboth
    · exact .inl ⟨c, hc, hfirst⟩
    · rcases List.infix_cons_iff.mp hsecond with hprefix | hsecond
      · have hstart := replicate_prefix_iff.mp hprefix
        rw [leading_cons] at hstart
        split_ifs at hstart with hblank
        · subst hblank
          exact .inr (.inr (by omega))
        · omega
      · exact .inr (.inl ⟨c, hc, hsecond⟩)
    · rw [leading_cons] at hboth
      split_ifs at hboth with hblank
      · subst hblank
        exact .inr (.inr (by omega))
      · exact .inl ⟨c, hc, (replicate_suffix_iff.mpr hboth).isInfix⟩
  · rintro (⟨c, hc, hfirst⟩ | ⟨c, hc, hsecond⟩ | hseam)
    · exact ⟨c, hc, replicate_infix_append_iff.mpr (.inl hfirst)⟩
    · exact ⟨c, hc, replicate_infix_append_iff.mpr (.inr (.inl
        (List.infix_cons_iff.mpr (.inr hsecond))))⟩
    · refine ⟨' ', by decide, replicate_infix_append_iff.mpr (.inr (.inr ?_))⟩
      rw [leading_cons, if_pos rfl]
      omega

/-- The texts, joined by blanks. -/
def joinTexts (texts : List (List Char)) : List Char := [' '].intercalate texts

theorem joinTexts_cons {text : List Char} {texts : List (List Char)} (hne : texts ≠ []) :
    joinTexts (text :: texts) = text ++ ' ' :: joinTexts texts := by
  rw [joinTexts, List.intercalate_cons_of_ne_nil hne, List.append_assoc]
  rfl

theorem withoutBlanks_joinTexts (texts : List (List Char)) :
    withoutBlanks (joinTexts texts) = texts.flatMap withoutBlanks := by
  induction texts with
  | nil => rfl
  | cons text texts ih =>
    rcases eq_or_ne texts [] with rfl | hne
    · simp [joinTexts, List.intercalate_singleton]
    · rw [joinTexts_cons hne, List.flatMap_cons, ← ih, withoutBlanks, List.filter_append]
      rfl

/-- A text that is not blank has a character that is no blank. -/
theorem exists_ne_blank {text : List Char} (h : Sound text) : ∃ c ∈ text, c ≠ ' ' := by
  obtain ⟨c, hc, hjamo⟩ := h.jamo
  refine ⟨c, hc, ?_⟩
  rintro rfl
  exact absurd hjamo (by decide)

theorem leading_joinTexts {text : List Char} (h : Sound text) (texts : List (List Char)) :
    leading ' ' (joinTexts (text :: texts)) = leading ' ' text := by
  rcases eq_or_ne texts [] with rfl | hne
  · rw [joinTexts, List.intercalate_singleton]
  · rw [joinTexts_cons hne, leading_append (exists_ne_blank h)]

/-- Sound texts repeat a character when they are joined only where blanks between them do. -/
theorem hasRepeatedChar_joinTexts {texts : List (List Char)} (h : ∀ text ∈ texts, Sound text) :
    hasRepeatedChar (joinTexts texts) = false ↔ texts.IsChain Seam := by
  induction texts with
  | nil => simp [joinTexts, List.intercalate_nil, hasRepeatedChar]
  | cons text texts ih =>
    obtain ⟨htext, htexts⟩ := List.forall_mem_cons.mp h
    rcases texts with _ | ⟨next, texts⟩
    · rw [joinTexts, List.intercalate_singleton]
      simp [htext.repeated]
    · have hnext := (List.forall_mem_cons.mp htexts).1
      rw [List.isChain_cons_cons, ← ih htexts, joinTexts_cons (List.cons_ne_nil _ _),
        ← Bool.not_eq_true, hasRepeatedChar_join, htext.repeated, Seam,
        leading_joinTexts hnext, Seam]
      simp only [Bool.false_eq_true, false_or, not_or, not_not, Bool.not_eq_true]
      exact and_comm

/-- Sound texts are sound when they are joined, if and only if blanks between them make no run. -/
theorem sound_joinTexts {texts : List (List Char)} (hne : texts ≠ [])
    (h : ∀ text ∈ texts, Sound text) : Sound (joinTexts texts) ↔ texts.IsChain Seam := by
  rw [← hasRepeatedChar_joinTexts h]
  refine ⟨Sound.repeated, fun hrepeated => ⟨?_, hrepeated, ?_⟩⟩
  all_goals obtain ⟨text, texts, rfl⟩ := List.exists_cons_of_ne_nil hne
  all_goals have htext := h text List.mem_cons_self
  · -- What the first text has, all of them have.
    obtain ⟨c, hc, hjamo⟩ := htext.jamo
    refine ⟨c, ?_, hjamo⟩
    rcases eq_or_ne texts [] with rfl | hne
    · rwa [joinTexts, List.intercalate_singleton]
    · rw [joinTexts_cons hne]
      exact List.mem_append_left _ hc
  · rw [withoutBlanks_joinTexts, List.flatMap_cons, List.length_append]
    exact htext.long.trans (Nat.le_add_right _ _)

/-! ## Experiences -/

/-- The texts of an experience in their order. -/
def bodyTexts (e : Experience) : List (List Char) := (contentParts e).map String.toList

/-- The texts have as many different characters together as a good text has. -/
def Experience.Varied (e : Experience) : Prop :=
  Experiences.Varied ((bodyTexts e).flatMap withoutBlanks)

/-- No two texts that follow one another make a run of blanks. -/
def Experience.Seamless (e : Experience) : Prop := (bodyTexts e).IsChain Seam

instance (e : Experience) : Decidable e.Varied := inferInstanceAs (Decidable (Varied _))

instance (e : Experience) : Decidable e.Seamless :=
  inferInstanceAs (Decidable (List.IsChain _ _))

theorem calculateContentQuality_eq (e : Experience) : calculateContentQuality e =
    if bodyTexts e = [] then 1 / 5 else rateContent (joinTexts (bodyTexts e)) := by
  unfold calculateContentQuality bodyTexts
  rw [String.toList_intercalate]
  simp only [List.map_eq_nil_iff]
  rfl

/-- A text that is good on its own is there, and is good. -/
theorem alone_eq_one {e : Experience} {field : TextField}
    (h : calculateContentQuality (e.alone field) = 1) :
    ∃ value, e.text field = some value ∧ value ≠ "" ∧ rateContent value.toList = 1 := by
  have hparts : contentParts (e.alone field) = ((e.text field).filter (· ≠ "")).toList := by
    change [TextField.content].filterMap (fun other =>
      (if other = .content then e.text field else none).filter (· ≠ "")) = _
    rw [List.filterMap_cons, if_pos rfl]
    cases (e.text field).filter (· ≠ "") <;> rfl
  unfold calculateContentQuality at h
  rw [hparts] at h
  cases htext : e.text field with
  | none =>
    rw [htext] at h
    norm_num at h
  | some value =>
    rw [htext] at h
    by_cases hempty : value = ""
    · subst hempty
      norm_num at h
    · have hsome : (some value).filter (fun text => decide (text ≠ "")) = some value := by
        simp [hempty]
      rw [hsome] at h
      refine ⟨value, rfl, hempty, ?_⟩
      simpa using h

/-- If each text of an experience is good on its own, all of them are good together if and only if
they are varied and blanks between them make no run. -/
theorem calculateContentQuality_eq_one_iff {e : Experience}
    (h : ∀ field ∈ e.formatType.fields, calculateContentQuality (e.alone field) = 1) :
    calculateContentQuality e = 1 ↔ e.Varied ∧ e.Seamless := by
  have hgood : ∀ text ∈ bodyTexts e, rateContent text = 1 := by
    intro text htext
    obtain ⟨part, hpart, rfl⟩ := List.mem_map.mp htext
    obtain ⟨field, hfield, hkept⟩ := List.mem_filterMap.mp hpart
    obtain ⟨value, hvalue, -, hrated⟩ := alone_eq_one (h field hfield)
    obtain ⟨hsome, -⟩ := Option.filter_eq_some_iff.mp hkept
    obtain rfl := Option.some.inj (hvalue.symm.trans hsome)
    exact hrated
  have hne : bodyTexts e ≠ [] := by
    obtain ⟨field, hfield⟩ : ∃ field, field ∈ e.formatType.fields := by
      cases e.formatType <;> exact ⟨_, List.mem_cons_self⟩
    obtain ⟨value, hvalue, hnonempty, -⟩ := alone_eq_one (h field hfield)
    have hpart : value ∈ contentParts e :=
      List.mem_filterMap.mpr ⟨field, hfield, by simp [hvalue, hnonempty]⟩
    exact List.ne_nil_of_mem (List.mem_map_of_mem hpart)
  rw [calculateContentQuality_eq, if_neg hne, rateContent_eq_one, withoutBlanks_joinTexts,
    sound_joinTexts hne fun text htext => (rateContent_eq_one.mp (hgood text htext)).1, and_comm]
  rfl

/-! ### Two experiences -/

/-- An experience in a format with one text in all its fields. -/
def writtenAs (format : ExperienceFormatType) (value : String) (h : 1 ≤ value.length) :
    Experience where
  id := UUID.str 1
  userId := UUID.str 7
  title := "봉사"
  startDate := (PyDatetime.utc 2025 6 1 0).date
  endDate := none
  experienceType := .volunteer
  formatType := format
  category := .collaborativeCommunication
  tags := "커뮤니케이션"
  text field := if field ∈ format.fields then some value else none
  createdAt := .utc 2026 1 1 9
  updatedAt := .utc 2026 1 1 9
  title_length := by decide
  text_length := by
    intro field text htext
    split_ifs at htext
    · cases htext
      exact h
    · cases htext

/-- A text with different characters. -/
def variedText : String := "동네 아이들에게 수학을 가르치며 눈높이에 맞추어 설명하는 법을 배웠다"

/-- A text of four characters that is just long and varied enough. -/
def plainText : String := "가나다라가나다라가나다라가나다라가나다라"

/-- Three texts that are varied together. -/
theorem calculateContentQuality_eq_one_iff_varied :
    calculateContentQuality (writtenAs .psi variedText (by decide)) = 1 :=
  (calculateContentQuality_eq_one_iff (by decide +kernel)).mpr (by decide +kernel)

/-- Texts that are good on their own, of an experience that is rated low. -/
theorem not_calculateContentQuality_eq_one : ¬ ∀ e : Experience,
    (e.formatType = .star ∨ e.formatType = .psi) →
    (∀ field ∈ e.formatType.fields, calculateContentQuality (e.alone field) = 1) →
    calculateContentQuality e = 1 := by
  intro h
  have hgood := h (writtenAs .star plainText (by decide)) (.inl rfl) (by decide +kernel)
  have hrated : calculateContentQuality (writtenAs .star plainText (by decide)) = 1 / 10 := by
    decide +kernel
  rw [hrated] at hgood
  norm_num at hgood

end Logit.Experiences
