import Mathlib.Data.List.Basic
import Mathlib.Data.Int.Notation

/-!
# Python text functions

The parts of Python's `str` and `int` the service calls on input from outside.
Strings are handled as lists of characters.

## Main definitions

* `strip` — `str.strip()`, by Unicode white space
* `upper` — `str.upper()`, by Unicode's table of upper cases
* `removeAll` — `str.replace(pattern, '')`
* `split` — `str.split(sep)`, by one character
* `removePrefix?` — what follows a prefix, if the text starts with it
* `int` — `int(text, base)`; `none` where Python raises `ValueError`

## Main results

* `strip_append` — white space around a text is stripped
* `map_strip_split` — texts that have been joined are split as they were
-/

namespace Logit.Python

/-- The characters `str.isspace` holds of. -/
def isSpace (c : Char) : Bool :=
  let n := c.toNat
  (0x9 ≤ n && n ≤ 0xd) || (0x1c ≤ n && n ≤ 0x20) || n == 0x85 || n == 0xa0 || n == 0x1680 ||
    (0x2000 ≤ n && n ≤ 0x200a) || n == 0x2028 || n == 0x2029 || n == 0x202f || n == 0x205f ||
    n == 0x3000

/-- Drops the characters of a kind from both ends. -/
def trimBoth (p : Char → Bool) (cs : List Char) : List Char :=
  ((cs.dropWhile p).reverse.dropWhile p).reverse

/-- `str.strip()`. -/
def strip (text : String) : String := String.ofList (trimBoth isSpace text.toList)

/-- White space around a text that has none itself is stripped. -/
theorem strip_append {before cs after : List Char} (hbefore : ∀ c ∈ before, isSpace c = true)
    (hafter : ∀ c ∈ after, isSpace c = true) (hcs : ∀ c ∈ cs, isSpace c = false)
    (hne : cs ≠ []) :
    strip (String.ofList (before ++ (cs ++ after))) = String.ofList cs := by
  have hstop : ∀ cs rest : List Char, cs ≠ [] → (∀ c ∈ cs, isSpace c = false) →
      (cs ++ rest).dropWhile isSpace = cs ++ rest := by
    intro cs rest hne hcs
    obtain ⟨c, cs, rfl⟩ := List.exists_cons_of_ne_nil hne
    exact List.dropWhile_cons_of_neg (by simp [hcs c List.mem_cons_self])
  have hback := hstop cs.reverse [] (by simpa using hne) fun c hc => hcs c (List.mem_reverse.mp hc)
  rw [List.append_nil] at hback
  rw [strip, trimBoth, String.toList_ofList, List.dropWhile_append_of_pos hbefore,
    hstop cs after hne hcs, List.reverse_append,
    List.dropWhile_append_of_pos fun c hc => hafter c (List.mem_reverse.mp hc), hback,
    List.reverse_reverse]

/-- `str.upper()`; Unicode gives each character its upper case, which may be several characters. -/
def upper (upcase : Char → List Char) (text : String) : String :=
  String.ofList (text.toList.flatMap upcase)

/-- `str.replace(pattern, '')`; the first argument counts characters of a match still to skip. -/
def removeAll (pattern : List Char) : ℕ → List Char → List Char
  | _, [] => []
  | skip + 1, _ :: cs => removeAll pattern skip cs
  | 0, c :: cs =>
    if pattern.isPrefixOf (c :: cs) then removeAll pattern (pattern.length - 1) cs
    else c :: removeAll pattern 0 cs

/-- `text.split(sep)`. -/
def split (sep : Char) (text : String) : List String :=
  (text.toList.splitOn sep).map String.ofList

/-- `text[len(start):]` if `text.startswith(start)`. -/
def removePrefix? (start text : String) : Option String :=
  (start.toList.isPrefixOf? text.toList).map String.ofList

/-! ### Texts joined and split -/

theorem strip_cons {c : Char} (hc : isSpace c = true) (cs : List Char) :
    strip (String.ofList (c :: cs)) = strip (String.ofList cs) := by
  rw [strip, trimBoth, String.toList_ofList, List.dropWhile_cons_of_pos hc, strip, trimBoth,
    String.toList_ofList]

/-- Joining with a separator and a blank is joining with the separator, a blank before each text
but the first. -/
theorem intercalate_blank (sep : Char) (text : List Char) (texts : List (List Char)) :
    [sep, ' '].intercalate (text :: texts) = [sep].intercalate (text :: texts.map (' ' :: ·)) := by
  induction texts generalizing text with
  | nil => rfl
  | cons next texts ih =>
    rw [List.map_cons, List.intercalate_cons_cons, ih, List.intercalate_cons_cons,
      List.intercalate_cons_cons_left]
    simp

/-- Texts without the separator and without white space around them are split as they have been
joined. -/
theorem map_strip_split {sep : Char} (hsep : sep ≠ ' ') {texts : List String} (hne : texts ≠ [])
    (hfree : ∀ text ∈ texts, sep ∉ text.toList) (hstrip : ∀ text ∈ texts, strip text = text) :
    (split sep ((String.ofList [sep, ' ']).intercalate texts)).map strip = texts := by
  obtain ⟨text, texts, rfl⟩ := List.exists_cons_of_ne_nil hne
  obtain ⟨hfreeFirst, hfree⟩ := List.forall_mem_cons.mp hfree
  obtain ⟨hstripFirst, hstrip⟩ := List.forall_mem_cons.mp hstrip
  have hpieces : ∀ piece ∈ text.toList :: (texts.map String.toList).map (' ' :: ·),
      sep ∉ piece := by
    simp only [List.mem_cons, List.mem_map, forall_eq_or_imp, forall_exists_index, and_imp,
      forall_apply_eq_imp_iff₂]
    exact ⟨hfreeFirst, fun other hother => not_or.mpr ⟨hsep, hfree other hother⟩⟩
  rw [split, String.toList_intercalate, String.toList_ofList, List.map_cons, intercalate_blank,
    List.splitOn_intercalate sep hpieces (List.cons_ne_nil _ _), List.map_cons, List.map_cons,
    String.ofList_toList, hstripFirst, List.map_map, List.map_map, List.map_map]
  congr 1
  refine (List.map_congr_left fun other hother => ?_).trans (List.map_id texts)
  simp only [Function.comp_apply, id]
  rw [strip_cons (by decide), String.ofList_toList, hstrip other hother]

/-! ## Integers -/

/-- The zeros of Unicode's decimal digits; each starts a run of ten. -/
def decimalZeros : List ℕ :=
  [0x30, 0x660, 0x6f0, 0x7c0, 0x966, 0x9e6, 0xa66, 0xae6, 0xb66, 0xbe6, 0xc66, 0xce6, 0xd66,
    0xde6, 0xe50, 0xed0, 0xf20, 0x1040, 0x1090, 0x17e0, 0x1810, 0x1946, 0x19d0, 0x1a80, 0x1a90,
    0x1b50, 0x1bb0, 0x1c40, 0x1c50, 0xa620, 0xa8d0, 0xa900, 0xa9d0, 0xa9f0, 0xaa50, 0xabf0,
    0xff10, 0x104a0, 0x10d30, 0x11066, 0x110f0, 0x11136, 0x111d0, 0x112f0, 0x11450, 0x114d0,
    0x11650, 0x116c0, 0x11730, 0x118e0, 0x11950, 0x11c50, 0x11d50, 0x11da0, 0x16a60, 0x16ac0,
    0x16b50, 0x1d7ce, 0x1d7d8, 0x1d7e2, 0x1d7ec, 0x1d7f6, 0x1e140, 0x1e2f0, 0x1e950, 0x1fbf0]

/-- The value of a decimal digit of any script. -/
def decimalValue (c : Char) : Option ℕ :=
  (decimalZeros.find? fun start => start ≤ c.toNat && c.toNat ≤ start + 9).map (c.toNat - ·)

/-- The value of a digit; letters count from ten. -/
def digitValue (base : ℕ) (c : Char) : Option ℕ :=
  let value :=
    if 'a' ≤ c && c ≤ 'z' then some (c.toNat - 'a'.toNat + 10)
    else if 'A' ≤ c && c ≤ 'Z' then some (c.toNat - 'A'.toNat + 10)
    else decimalValue c
  value.filter (· < base)

/-- The white space `int` skips; ASCII separators below the blank do not count. -/
def isIntSpace (c : Char) : Bool := isSpace c && !(0x1c ≤ c.toNat && c.toNat ≤ 0x1f)

/-- The digits of a literal, with at most one underscore between two of them. -/
def digits (base : ℕ) : List Char → Option (List ℕ)
  | [] => none
  | [c] => (digitValue base c).map fun value => [value]
  | c :: '_' :: cs => do return (← digitValue base c) :: (← digits base cs)
  | c :: cs => do return (← digitValue base c) :: (← digits base cs)

/-- Drops the prefix `0x` of a hexadecimal literal and an underscore after it. -/
def dropBasePrefix (base : ℕ) : List Char → List Char
  | '0' :: x :: cs =>
    if base = 16 ∧ (x = 'x' ∨ x = 'X') then
      match cs with
      | '_' :: cs => cs
      | cs => cs
    else '0' :: x :: cs
  | cs => cs

/-- The longest decimal literal Python converts. -/
def maxStrDigits : ℕ := 4300

/-- `int(text, base)` without a sign. -/
def natLiteral (base : ℕ) (cs : List Char) : Option ℕ := do
  let values ← digits base (dropBasePrefix base cs)
  if base = 10 ∧ maxStrDigits < values.length then none
  else some (values.foldl (fun acc value => acc * base + value) 0)

/-- `int(text, base)`, for the bases 10 and 16. -/
def int (base : ℕ) (text : String) : Option ℤ :=
  match trimBoth isIntSpace text.toList with
  | '-' :: cs => (natLiteral base cs).map fun n => -(n : ℤ)
  | '+' :: cs => (natLiteral base cs).map (↑)
  | cs => (natLiteral base cs).map (↑)

example :
    (["14_900", "+14900", " 14900 "].map (int 10)) = [some 14900, some 14900, some 14900] := by
  decide

end Logit.Python
