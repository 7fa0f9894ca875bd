import Logit.Python.Numerals
import Mathlib.Algebra.Group.Int.Defs
import Mathlib.Algebra.Group.Nat.Defs

/-!
# UUIDs

Python's `UUID`, by its 128-bit value.

## Main definitions

* `UUID.parse` — `UUID(text)`; `none` where Python raises `ValueError`
* `UUID.str` — `str(uuid)`

## Main results

* `UUID.parse_str` — the text of a UUID is read as that UUID
-/

namespace Logit.Python

/-- A UUID, by its value. -/
abbrev UUID := BitVec 128

namespace UUID

/-- `UUID(text)`: prefixes, braces and hyphens are dropped, and 32 characters must
remain that `int` reads as a 128-bit number. -/
def parse (text : String) : Option UUID :=
  let bare := removeAll "uuid:".toList 0 (removeAll "urn:".toList 0 text.toList)
  let hex := (trimBoth (fun c => c = '{' ∨ c = '}') bare).filter (· ≠ '-')
  if hex.length ≠ 32 then none
  else
    match int 16 (String.ofList hex) with
    | some value =>
      if 0 ≤ value ∧ value < 2 ^ 128 then some (BitVec.ofInt 128 value) else none
    | none => none

/-- `str(uuid)`: 32 hexadecimal digits in five groups. -/
def str (uuid : UUID) : String :=
  let digit (i : ℕ) : Char := Nat.digitChar (uuid.toNat / 16 ^ (31 - i) % 16)
  let group (start count : ℕ) : List Char := (List.range' start count).map digit
  String.ofList (group 0 8 ++ '-' :: group 8 4 ++ '-' :: group 12 4 ++ '-' :: group 16 4 ++
    '-' :: group 20 12)

example : parse (str 0x123e4567e89b12d3a456426614174000) =
    some 0x123e4567e89b12d3a456426614174000 := by
  decide +kernel

/-! ## The text of a UUID -/

/-- The digits of a number in base 16, the first of `k` digits first. -/
def hexDigits (k n : ℕ) : List ℕ := (List.range k).map fun i => n / 16 ^ (k - 1 - i) % 16

theorem hexDigits_lt {k n d : ℕ} (h : d ∈ hexDigits k n) : d < 16 := by
  obtain ⟨i, -, rfl⟩ := List.mem_map.mp h
  exact Nat.mod_lt _ (by omega)

theorem hexDigits_succ (k n : ℕ) : hexDigits (k + 1) n = hexDigits k (n / 16) ++ [n % 16] := by
  rw [hexDigits, List.range_succ, List.map_append, List.map_singleton]
  congr 1
  · refine List.map_congr_left fun i hi => ?_
    have hi : i < k := List.mem_range.mp hi
    rw [Nat.div_div_eq_div_mul, ← Nat.pow_succ', show k + 1 - 1 - i = k - 1 - i + 1 by omega]
  · simp

/-- Reading the digits of a number gives the number. -/
theorem foldl_hexDigits (k n : ℕ) :
    (hexDigits k n).foldl (fun acc value => acc * 16 + value) 0 = n % 16 ^ k := by
  induction k generalizing n with
  | zero => simp [hexDigits, Nat.mod_one]
  | succ k ih =>
    rw [hexDigits_succ, List.foldl_append, ih, List.foldl_cons, List.foldl_nil]
    rw [Nat.pow_succ', Nat.mod_mul]
    omega

/-- The characters of hexadecimal digits. -/
def hexText (digits : List ℕ) : List Char := digits.map Nat.digitChar

/-- A character of a hexadecimal text is one of its digits. -/
theorem forall_mem_hexText {p : Char → Prop} {digits : List ℕ} (hdigits : ∀ d ∈ digits, d < 16)
    (h : ∀ d < 16, p (Nat.digitChar d)) : ∀ c ∈ hexText digits, p c :=
  forall_mem_digitText hdigits h

theorem not_mem_hexText {c : Char} {ns : List ℕ} (hlt : ∀ d ∈ ns, d < 16)
    (h : digitValue 16 c = none) : c ∉ hexText ns :=
  not_mem_digitText hlt h

/-- A hexadecimal text is read as its number. -/
theorem int_hexText {ns : List ℕ} (hlt : ∀ d ∈ ns, d < 16) (hne : ns ≠ []) :
    int 16 (String.ofList (hexText ns)) =
      some ((ns.foldl (fun acc value => acc * 16 + value) 0 : ℕ) : ℤ) :=
  int_digitText le_rfl hlt hne fun h => absurd h (by decide)

theorem removeAll_of_not_mem {c : Char} {pattern cs : List Char} (h : c ∉ cs) :
    removeAll (c :: pattern) 0 cs = cs := by
  induction cs with
  | nil => rfl
  | cons d cs ih =>
    have hd : c ≠ d := fun heq => h (heq ▸ List.mem_cons_self)
    rw [removeAll, if_neg (by simp [hd]), ih fun hmem => h (List.mem_cons_of_mem d hmem)]

/-- The text of a UUID is its 32 hexadecimal digits in five groups. -/
theorem toList_str (uuid : UUID) :
    ∃ a b c d e : List ℕ, (str uuid).toList = hexText a ++ '-' :: hexText b ++ '-' :: hexText c ++
      '-' :: hexText d ++ '-' :: hexText e ∧ a ++ b ++ c ++ d ++ e = hexDigits 32 uuid.toNat := by
  let digitOf (i : ℕ) : ℕ := uuid.toNat / 16 ^ (31 - i) % 16
  refine ⟨(List.range' 0 8).map digitOf, (List.range' 8 4).map digitOf,
    (List.range' 12 4).map digitOf, (List.range' 16 4).map digitOf,
    (List.range' 20 12).map digitOf, ?_, ?_⟩
  · simp only [str, String.toList_ofList, hexText, List.map_map]
    rfl
  · rw [← List.map_append, ← List.map_append, ← List.map_append, ← List.map_append]
    rfl

/-- Every character of the text of a UUID is a hyphen or a hexadecimal digit. -/
theorem forall_mem_str {p : Char → Prop} (uuid : UUID) (hhyphen : p '-')
    (h : ∀ d < 16, p (Nat.digitChar d)) : ∀ c ∈ (str uuid).toList, p c := by
  obtain ⟨a, b, c, d, e, htext, hdigits⟩ := toList_str uuid
  have hlt : ∀ n ∈ a ++ b ++ c ++ d ++ e, n < 16 := fun n hn => hexDigits_lt (hdigits ▸ hn)
  simp only [List.mem_append] at hlt
  intro x hx
  simp only [htext, List.mem_append, List.mem_cons] at hx
  rcases hx with (((hx | rfl | hx) | rfl | hx) | rfl | hx) | rfl | hx
  all_goals first
    | exact hhyphen
    | exact forall_mem_hexText (fun n hn => hlt n (by simp [hn])) h x hx

/-- Without its hyphens, the text of a UUID is its digits. -/
theorem filter_str (uuid : UUID) :
    (str uuid).toList.filter (· ≠ '-') = hexText (hexDigits 32 uuid.toNat) := by
  obtain ⟨a, b, c, d, e, htext, hdigits⟩ := toList_str uuid
  have hlt : ∀ n ∈ a ++ b ++ c ++ d ++ e, n < 16 := fun n hn => hexDigits_lt (hdigits ▸ hn)
  have hkeep : ∀ ns : List ℕ, (∀ n ∈ ns, n < 16) →
      (hexText ns).filter (· ≠ '-') = hexText ns := fun ns hns =>
    List.filter_eq_self.mpr fun x hx => decide_eq_true
      (ne_of_mem_of_not_mem hx (not_mem_hexText hns (by decide)))
  simp only [List.mem_append] at hlt
  rw [htext, ← hdigits]
  simp only [List.filter_append, List.filter_cons, ne_eq, not_true_eq_false, decide_false,
    Bool.false_eq_true, if_false]
  rw [hkeep a fun n hn => hlt n (by simp [hn]), hkeep b fun n hn => hlt n (by simp [hn]),
    hkeep c fun n hn => hlt n (by simp [hn]), hkeep d fun n hn => hlt n (by simp [hn]),
    hkeep e fun n hn => hlt n (by simp [hn])]
  simp only [hexText, List.map_append]

/-- The text of a UUID is read as that UUID. -/
theorem parse_str (uuid : UUID) : parse (str uuid) = some uuid := by
  have hu : 'u' ∉ (str uuid).toList := fun hmem =>
    forall_mem_str (p := (· ≠ 'u')) uuid (by decide) (fun _ => digitChar_ne (by decide)) _ hmem rfl
  have hbraces : ∀ c ∈ (str uuid).toList, decide (c = '{' ∨ c = '}') = false :=
    forall_mem_str uuid (by decide) fun d hd => decide_eq_false <|
      not_or.mpr ⟨digitChar_ne (by decide) hd, digitChar_ne (by decide) hd⟩
  have hlength : (hexText (hexDigits 32 uuid.toNat)).length = 32 := by simp [hexText, hexDigits]
  have hvalue : uuid.toNat % 16 ^ 32 = uuid.toNat := Nat.mod_eq_of_lt uuid.isLt
  have hbare : removeAll "uuid:".toList 0 (removeAll "urn:".toList 0 (str uuid).toList) =
      (str uuid).toList := by
    rw [show "urn:".toList = 'u' :: "rn:".toList by decide, removeAll_of_not_mem hu,
      show "uuid:".toList = 'u' :: "uid:".toList by decide, removeAll_of_not_mem hu]
  rw [parse, hbare, trimBoth_of_forall hbraces, filter_str]
  simp only [hlength, ne_eq, not_true_eq_false, if_false]
  rw [int_hexText (fun d hd => hexDigits_lt hd) (by simp [hexDigits]), foldl_hexDigits, hvalue]
  have hlt : (uuid.toNat : ℤ) < 2 ^ 128 := by exact_mod_cast uuid.isLt
  dsimp only
  rw [if_pos ⟨Int.natCast_nonneg _, hlt⟩, BitVec.ofInt_natCast, BitVec.ofNat_toNat,
    BitVec.setWidth_eq]

theorem str_injective : Function.Injective str := by
  intro first second h
  have hparse := congrArg parse h
  rw [parse_str, parse_str] at hparse
  exact Option.some.inj hparse

end UUID

end Logit.Python
