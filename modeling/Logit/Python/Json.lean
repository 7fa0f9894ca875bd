import Mathlib.Data.List.Basic
import Mathlib.Data.Nat.Notation
import Mathlib.Data.Int.Notation

/-!
# JSON objects

`json.dumps` and `json.loads` for objects whose members are texts, integers, booleans and
null. Strings are handled as lists of characters.

## Main definitions

* `Scalar`, `Dict` — the values of members, and objects by their members in order
* `dumps` — the text of an object, with or without `ensure_ascii`
* `loads` — the object of a text; `none` where Python raises, and for texts of other values

## Main results

* `loads_dumps` — an object is read back from its text
* `isControl_of_mem_dumps` — no control character is left in the text of an object
-/

namespace Logit.Python.Json

/-- The value of a member. -/
inductive Scalar
  | null
  | bool (value : Bool)
  | int (value : ℤ)
  | str (text : String)
  deriving DecidableEq, Repr

/-- A `dict` by its items, in the order they were put in. -/
abbrev Dict := List (String × Scalar)

/-- `d[key] = value`: a key keeps its place. -/
def Dict.set (d : Dict) (key : String) (value : Scalar) : Dict :=
  if d.any (·.1 = key) then d.map fun item => if item.1 = key then (key, value) else item
  else d ++ [(key, value)]

/-- `d.get(key)`. -/
def Dict.get (d : Dict) (key : String) : Option Scalar := d.lookup key

/-! ## Writing -/

/-- Characters with an escape of their own, and the letter that stands for each. -/
def shortEscapes : List (Char × Char) :=
  [('"', '"'), ('\\', '\\'), ('\x08', 'b'), ('\x0c', 'f'), ('\n', 'n'), ('\r', 'r'), ('\t', 't')]

/-- The UTF-16 code units of a character. -/
def codeUnits (c : Char) : List ℕ :=
  if c.toNat < 0x10000 then [c.toNat]
  else [0xd800 + (c.toNat - 0x10000) / 0x400, 0xdc00 + (c.toNat - 0x10000) % 0x400]

/-- `\u` and the four digits of a code unit. -/
def unicodeEscape (n : ℕ) : List Char :=
  ['\\', 'u', Nat.digitChar (n / 4096 % 16), Nat.digitChar (n / 256 % 16),
    Nat.digitChar (n / 16 % 16), Nat.digitChar (n % 16)]

/-- Whether a character is below the blank, which JSON keeps out of texts. -/
def isControl (c : Char) : Bool := c.toNat < 0x20

/-- Whether a character is written by its code units. -/
def coded (ensureAscii : Bool) (c : Char) : Bool := isControl c || ensureAscii && 0x7e < c.toNat

def escapeChar (ensureAscii : Bool) (c : Char) : List Char :=
  match shortEscapes.lookup c with
  | some letter => ['\\', letter]
  | none => if coded ensureAscii c then (codeUnits c).flatMap unicodeEscape else [c]

def dumpsStr (ensureAscii : Bool) (text : String) : List Char :=
  '"' :: (text.toList.flatMap (escapeChar ensureAscii) ++ ['"'])

def dumpsNat (n : ℕ) : List Char := Nat.toDigits 10 n

def dumpsScalar (ensureAscii : Bool) : Scalar → List Char
  | .null => ['n', 'u', 'l', 'l']
  | .bool true => ['t', 'r', 'u', 'e']
  | .bool false => ['f', 'a', 'l', 's', 'e']
  | .int (.ofNat n) => dumpsNat n
  | .int (.negSucc n) => '-' :: dumpsNat (n + 1)
  | .str text => dumpsStr ensureAscii text

def dumpsItem (ensureAscii : Bool) (item : String × Scalar) : List Char :=
  dumpsStr ensureAscii item.1 ++ [':', ' '] ++ dumpsScalar ensureAscii item.2

/-- `json.dumps(d, ensure_ascii=..)`. -/
def dumps (ensureAscii : Bool) (d : Dict) : String :=
  String.ofList ('{' :: ([',', ' '].intercalate (d.map (dumpsItem ensureAscii)) ++ ['}']))

/-! ## Reading -/

def skipBlanks (cs : List Char) : List Char := cs.dropWhile (· ∈ [' ', '\t', '\n', '\r'])

def hexValue (c : Char) : Option ℕ :=
  if '0' ≤ c ∧ c ≤ '9' then some (c.toNat - 48)
  else if 'a' ≤ c ∧ c ≤ 'f' then some (c.toNat - 87)
  else if 'A' ≤ c ∧ c ≤ 'F' then some (c.toNat - 55)
  else none

def readHex (a b c d : Char) : Option ℕ := do
  return (((← hexValue a) * 16 + (← hexValue b)) * 16 + (← hexValue c)) * 16 + (← hexValue d)

/-- What an escape with one letter stands for. -/
def unescape (letter : Char) : Option Char :=
  if letter = '/' then some '/' else (shortEscapes.map Prod.swap).lookup letter

/-- A part of a text in quotes: a character, or a code unit. -/
inductive Piece
  | char (c : Char)
  | unit (n : ℕ)
  deriving DecidableEq, Repr

/-- What has been read, after the parts before it. -/
def prepend (before : List Piece) (read : Option (List Piece × List Char)) :
    Option (List Piece × List Char) :=
  read.map fun parts => (before ++ parts.1, parts.2)

/-- The parts of a text up to the quote that ends it, and what follows. -/
def readPieces : List Char → Option (List Piece × List Char)
  | [] => none
  | c :: cs =>
    if c = '"' then some ([], cs)
    else if c = '\\' then
      match cs with
      | 'u' :: a :: b :: c :: d :: cs =>
        (readHex a b c d).bind fun n => prepend [.unit n] (readPieces cs)
      | letter :: cs =>
        (unescape letter).bind fun c => prepend [.char c] (readPieces cs)
      | [] => none
    else if isControl c then none
    else prepend [.char c] (readPieces cs)

def isHigh (n : ℕ) : Bool := 0xd800 ≤ n && n < 0xdc00

def isLow (n : ℕ) : Bool := 0xdc00 ≤ n && n < 0xe000

/-- The characters of parts; two code units may make one. A unit that makes none by itself, which
Python keeps in a `str`, is refused. -/
def joinPieces : List Piece → Option (List Char)
  | [] => some []
  | .char c :: pieces => (joinPieces pieces).map (c :: ·)
  | .unit n :: pieces =>
    if isHigh n then
      match pieces with
      | .unit m :: pieces =>
        if isLow m then
          (joinPieces pieces).map (Char.ofNat (0x10000 + (n - 0xd800) * 0x400 + (m - 0xdc00)) :: ·)
        else none
      | _ => none
    else if isLow n then none
    else (joinPieces pieces).map (Char.ofNat n :: ·)

/-- A text after its first quote, and what follows it. -/
def readStr (cs : List Char) : Option (String × List Char) := do
  let (pieces, rest) ← readPieces cs
  return (String.ofList (← joinPieces pieces), rest)

/-- A number without a sign. One with a fraction or an exponent is no integer. -/
def readNat (cs : List Char) : Option (ℕ × List Char) :=
  let text := cs.takeWhile Char.isDigit
  let rest := cs.dropWhile Char.isDigit
  if text = [] ∨ text.length ≠ 1 ∧ text.head? = some '0' ∨ rest.head?.any (· ∈ ['.', 'e', 'E']) then
    none
  else some (Nat.ofDigitChars 10 text 0, rest)

/-- A word, and the value it stands for. -/
def readWord (word : List Char) (value : Scalar) (cs : List Char) : Option (Scalar × List Char) :=
  (word.isPrefixOf? cs).map (value, ·)

def readScalar : List Char → Option (Scalar × List Char)
  | [] => none
  | c :: cs =>
    if c = '"' then (readStr cs).map (Prod.map .str id)
    else if c = 'n' then readWord ['u', 'l', 'l'] .null cs
    else if c = 't' then readWord ['r', 'u', 'e'] (.bool true) cs
    else if c = 'f' then readWord ['a', 'l', 's', 'e'] (.bool false) cs
    else if c = '-' then (readNat cs).map (Prod.map (fun n : ℕ => .int (-n)) id)
    else (readNat (c :: cs)).map (Prod.map (fun n : ℕ => .int n) id)

/-- A member after its first quote, and what follows it up to the next comma or brace. -/
def readItem (cs : List Char) : Option ((String × Scalar) × List Char) := do
  let (key, cs) ← readStr cs
  match skipBlanks cs with
  | ':' :: cs =>
    let (value, cs) ← readScalar (skipBlanks cs)
    return ((key, value), skipBlanks cs)
  | _ => none

/-- The members of an object, one for each unit of fuel, and what follows the object. -/
def readItems : ℕ → Dict → List Char → Option (Dict × List Char)
  | fuel + 1, d, '"' :: cs =>
    match readItem cs with
    | some (item, ',' :: cs) => readItems fuel (d.set item.1 item.2) (skipBlanks cs)
    | some (item, '}' :: cs) => some (d.set item.1 item.2, cs)
    | _ => none
  | _, _, _ => none

def readDict (cs : List Char) : Option (Dict × List Char) :=
  match skipBlanks cs with
  | '}' :: cs => some ([], cs)
  | cs => readItems cs.length [] cs

/-- `json.loads(text)`. -/
def loads (text : String) : Option Dict :=
  match skipBlanks text.toList with
  | '{' :: cs => (readDict cs).bind fun (d, rest) => if skipBlanks rest = [] then some d else none
  | _ => none

/-! ## Texts -/

theorem hexValue_digitChar : ∀ d < 16, hexValue (Nat.digitChar d) = some d := by decide

theorem readHex_digitChar {n : ℕ} (h : n < 0x10000) :
    readHex (Nat.digitChar (n / 4096 % 16)) (Nat.digitChar (n / 256 % 16))
      (Nat.digitChar (n / 16 % 16)) (Nat.digitChar (n % 16)) = some n := by
  have hdigit : ∀ k, hexValue (Nat.digitChar (k % 16)) = some (k % 16) := fun k =>
    hexValue_digitChar _ (Nat.mod_lt _ (by decide))
  simp only [readHex, hdigit, Option.bind_eq_bind, Option.bind_some, Option.pure_def]
  congr 1
  omega

@[simp] theorem prepend_nil (read : Option (List Piece × List Char)) : prepend [] read = read := by
  cases read <;> rfl

theorem prepend_prepend (first second : List Piece) (read : Option (List Piece × List Char)) :
    prepend first (prepend second read) = prepend (first ++ second) read := by
  cases read with
  | none => rfl
  | some parts => simp [prepend]

theorem readPieces_unicodeEscape {n : ℕ} (h : n < 0x10000) (cs : List Char) :
    readPieces (unicodeEscape n ++ cs) = prepend [.unit n] (readPieces cs) := by
  simp only [unicodeEscape, List.cons_append, List.nil_append]
  rw [readPieces.eq_def]
  simp [readHex_digitChar h]

/-- The code units of a character are read back. -/
theorem readPieces_units {units : List ℕ} (h : ∀ n ∈ units, n < 0x10000) (cs : List Char) :
    readPieces (units.flatMap unicodeEscape ++ cs) =
      prepend (units.map .unit) (readPieces cs) := by
  induction units with
  | nil => rw [List.flatMap_nil, List.nil_append, List.map_nil, prepend_nil]
  | cons n units ih =>
    obtain ⟨hn, hunits⟩ := List.forall_mem_cons.mp h
    rw [List.flatMap_cons, List.append_assoc, readPieces_unicodeEscape hn, ih hunits,
      prepend_prepend]
    rfl

theorem toNat_valid (c : Char) : c.toNat < 0xd800 ∨ 0xdfff < c.toNat ∧ c.toNat < 0x110000 :=
  c.valid

theorem lt_of_mem_codeUnits {c : Char} : ∀ n ∈ codeUnits c, n < 0x10000 := by
  intro n hn
  have hc := toNat_valid c
  unfold codeUnits at hn
  split_ifs at hn with hsmall
  · rw [List.mem_singleton] at hn
    omega
  · simp only [List.mem_cons, List.not_mem_nil, or_false] at hn
    omega

/-- The parts a character is read back as. -/
def pieces (ensureAscii : Bool) (c : Char) : List Piece :=
  if shortEscapes.lookup c = none ∧ coded ensureAscii c then (codeUnits c).map .unit else [.char c]

theorem unescape_of_mem : ∀ escape ∈ shortEscapes,
    escape.2 ≠ 'u' ∧ unescape escape.2 = some escape.1 := by
  decide

theorem readPieces_letter {letter : Char} (h : letter ≠ 'u') (cs : List Char) :
    readPieces ('\\' :: letter :: cs) =
      (unescape letter).bind fun c => prepend [.char c] (readPieces cs) := by
  rw [readPieces.eq_def]
  dsimp only
  rw [if_neg (by decide), if_pos rfl]
  split
  · rename_i heq
    exact absurd (List.cons.inj heq).1 h
  · rename_i heq
    cases heq
    rfl
  · rename_i heq
    cases heq

theorem readPieces_escapeChar (ensureAscii : Bool) (c : Char) (cs : List Char) :
    readPieces (escapeChar ensureAscii c ++ cs) =
      prepend (pieces ensureAscii c) (readPieces cs) := by
  unfold escapeChar pieces
  split
  · rename_i letter hletter
    obtain ⟨before, after, hmem, -⟩ := List.lookup_eq_some_iff.mp hletter
    obtain ⟨hne, hread⟩ := unescape_of_mem (c, letter) (by rw [hmem]; simp)
    rw [List.cons_append, List.cons_append, List.nil_append, readPieces_letter hne, hread, hletter,
      if_neg (by simp)]
    rfl
  · rename_i hletter
    simp only [hletter, true_and]
    split_ifs with hcoded
    · exact readPieces_units lt_of_mem_codeUnits cs
    · -- A character that stands for itself is neither a quote nor a backslash.
      have hquote : c ≠ '"' := by
        rintro rfl
        exact absurd hletter (by decide)
      have hslash : c ≠ '\\' := by
        rintro rfl
        exact absurd hletter (by decide)
      have hcontrol : isControl c = false := by
        simp only [coded, Bool.or_eq_true, not_or] at hcoded
        simpa using hcoded.1
      rw [List.cons_append, List.nil_append, readPieces.eq_def]
      simp [hquote, hslash, hcontrol]

theorem joinPieces_pieces (ensureAscii : Bool) (c : Char) (rest : List Piece) :
    joinPieces (pieces ensureAscii c ++ rest) = (joinPieces rest).map (c :: ·) := by
  have hc := toNat_valid c
  unfold pieces codeUnits
  split_ifs with hcoded hsmall
  · have hhigh : isHigh c.toNat = false := by
      simp only [isHigh, Bool.and_eq_false_iff, decide_eq_false_iff_not]
      omega
    have hlow : isLow c.toNat = false := by
      simp only [isLow, Bool.and_eq_false_iff, decide_eq_false_iff_not]
      omega
    rw [List.map_singleton, List.singleton_append, joinPieces.eq_def]
    simp [hhigh, hlow]
  · -- The two units are a high one and a low one, and make the character they come from.
    have hhigh : isHigh (0xd800 + (c.toNat - 0x10000) / 0x400) = true := by
      simp only [isHigh, Bool.and_eq_true, decide_eq_true_eq]
      omega
    have hlow : isLow (0xdc00 + (c.toNat - 0x10000) % 0x400) = true := by
      simp only [isLow, Bool.and_eq_true, decide_eq_true_eq]
      omega
    have hsame : 0x10000 + (c.toNat - 0x10000) / 0x400 * 0x400 + (c.toNat - 0x10000) % 0x400 =
        c.toNat := by
      omega
    rw [List.map_cons, List.map_singleton, List.cons_append, List.singleton_append,
      joinPieces.eq_def]
    simp [hhigh, hlow, hsame]
  · rfl

/-- A text is read back up to the quote that ends it. -/
theorem readStr_escape (ensureAscii : Bool) (text : String) (cs : List Char) :
    readStr (text.toList.flatMap (escapeChar ensureAscii) ++ '"' :: cs) = some (text, cs) := by
  have hread : ∀ chars : List Char,
      readPieces (chars.flatMap (escapeChar ensureAscii) ++ '"' :: cs) =
        some (chars.flatMap (pieces ensureAscii), cs) := by
    intro chars
    induction chars with
    | nil =>
      rw [List.flatMap_nil, List.nil_append, readPieces.eq_def]
      rfl
    | cons c chars ih =>
      rw [List.flatMap_cons, List.append_assoc, readPieces_escapeChar, ih]
      rfl
  have hjoin : ∀ chars : List Char,
      joinPieces (chars.flatMap (pieces ensureAscii)) = some chars := by
    intro chars
    induction chars with
    | nil => rfl
    | cons c chars ih => rw [List.flatMap_cons, joinPieces_pieces, ih, Option.map_some]
  simp [readStr, hread, hjoin]

/-! ## Values -/

/-- What follows a value: a comma, or the brace that ends the object. -/
def Stops (cs : List Char) : Prop := ∃ rest, cs = ',' :: rest ∨ cs = '}' :: rest

theorem Stops.skipBlanks {cs : List Char} (h : Stops cs) : skipBlanks cs = cs := by
  obtain ⟨rest, rfl | rfl⟩ := h <;> rfl

theorem digitChar_ne_zero : ∀ d < 10, 0 < d → Nat.digitChar d ≠ '0' := by decide

/-- A positive number does not start with a zero. -/
theorem head?_dumpsNat {n : ℕ} (hn : 0 < n) : (dumpsNat n).head? ≠ some '0' := by
  unfold dumpsNat
  induction n using Nat.base_induction 10 (by decide) with
  | single m hm =>
    rw [Nat.toDigits_of_lt_base hm]
    simpa using digitChar_ne_zero m hm hn
  | digit m k hk hm ih =>
    obtain ⟨c, cs, hdigits⟩ :=
      List.exists_cons_of_ne_nil (Nat.toDigits_ne_nil : Nat.toDigits 10 m ≠ [])
    have hfirst := ih hm
    rw [hdigits] at hfirst
    rw [← Nat.toDigits_append_toDigits (by decide) hm hk, hdigits]
    exact hfirst

theorem isDigit_of_mem_dumpsNat {n : ℕ} {c : Char} (h : c ∈ dumpsNat n) : c.isDigit = true :=
  Nat.isDigit_of_mem_toDigits (by decide) (by decide) h

theorem dumpsNat_ne_nil (n : ℕ) : dumpsNat n ≠ [] := Nat.toDigits_ne_nil

theorem exists_cons_dumpsNat (n : ℕ) : ∃ c cs, dumpsNat n = c :: cs ∧ c.isDigit = true := by
  obtain ⟨c, cs, hcs⟩ := List.exists_cons_of_ne_nil (dumpsNat_ne_nil n)
  exact ⟨c, cs, hcs, isDigit_of_mem_dumpsNat (hcs ▸ List.mem_cons_self)⟩

/-- A number is read back if what follows is no part of a number. -/
theorem readNat_dumpsNat (n : ℕ) {rest : List Char} (hrest : Stops rest) :
    readNat (dumpsNat n ++ rest) = some (n, rest) := by
  have hdigits : ∀ c ∈ dumpsNat n, c.isDigit = true := fun c => isDigit_of_mem_dumpsNat
  have htake : rest.takeWhile Char.isDigit = [] := by
    obtain ⟨rest, rfl | rfl⟩ := hrest <;> rfl
  have hdrop : rest.dropWhile Char.isDigit = rest := by
    obtain ⟨rest, rfl | rfl⟩ := hrest <;> rfl
  have hnext : rest.head?.any (· ∈ ['.', 'e', 'E']) = false := by
    obtain ⟨rest, rfl | rfl⟩ := hrest <;> rfl
  have hzero : ¬ ((dumpsNat n).length ≠ 1 ∧ (dumpsNat n).head? = some '0') := by
    rintro ⟨hlength, hhead⟩
    rcases Nat.eq_zero_or_pos n with rfl | hn
    · exact hlength rfl
    · exact head?_dumpsNat hn hhead
  have hvalue : Nat.ofDigitChars 10 (dumpsNat n) 0 = n := Nat.ofDigitChars_ten_toDigits
  unfold readNat
  rw [List.takeWhile_append_of_pos hdigits, List.dropWhile_append_of_pos hdigits, htake, hdrop,
    List.append_nil]
  simp only [dumpsNat_ne_nil, hzero, hnext, hvalue, Bool.false_eq_true, or_self, if_false]

/-- A digit is no sign, no quote and no first letter of a word. -/
theorem ne_of_isDigit {c d : Char} (h : c.isDigit = true) (hd : d.isDigit = false) : c ≠ d := by
  rintro rfl
  rw [hd] at h
  cases h

theorem readScalar_dumpsScalar (ensureAscii : Bool) (value : Scalar) {rest : List Char}
    (hrest : Stops rest) :
    readScalar (dumpsScalar ensureAscii value ++ rest) = some (value, rest) := by
  cases value with
  | null => rfl
  | bool value => cases value <;> rfl
  | int n =>
    cases n with
    | ofNat n =>
      obtain ⟨c, cs, hcs, hdigit⟩ := exists_cons_dumpsNat n
      have hread := readNat_dumpsNat n hrest
      rw [dumpsScalar]
      rw [hcs, List.cons_append] at hread ⊢
      have hne : ∀ d : Char, d.isDigit = false → c ≠ d := fun d => ne_of_isDigit hdigit
      simp only [readScalar, hne '"' rfl, hne 'n' rfl, hne 't' rfl, hne 'f' rfl, hne '-' rfl,
        if_false, hread]
      rfl
    | negSucc n =>
      have hread := readNat_dumpsNat (n + 1) hrest
      rw [dumpsScalar, List.cons_append, readScalar, hread]
      rfl
  | str text =>
    rw [dumpsScalar, dumpsStr, List.cons_append, List.append_assoc, List.singleton_append,
      readScalar, if_pos rfl, readStr_escape]
    rfl

/-! ## Objects -/

/-- An item after its first quote. -/
def itemTail (ensureAscii : Bool) (item : String × Scalar) : List Char :=
  item.1.toList.flatMap (escapeChar ensureAscii) ++
    '"' :: ':' :: ' ' :: dumpsScalar ensureAscii item.2

theorem dumpsItem_eq (ensureAscii : Bool) (item : String × Scalar) :
    dumpsItem ensureAscii item = '"' :: itemTail ensureAscii item := by
  simp [dumpsItem, dumpsStr, itemTail]

theorem dumpsScalar_head (ensureAscii : Bool) (value : Scalar) (rest : List Char) :
    skipBlanks (dumpsScalar ensureAscii value ++ rest) = dumpsScalar ensureAscii value ++ rest := by
  cases value with
  | null => rfl
  | bool value => cases value <;> rfl
  | int n =>
    cases n with
    | ofNat n =>
      obtain ⟨c, cs, hcs, hdigit⟩ := exists_cons_dumpsNat n
      have hne : ∀ d : Char, d.isDigit = false → c ≠ d := fun d => ne_of_isDigit hdigit
      rw [dumpsScalar, hcs, List.cons_append, skipBlanks, List.dropWhile_cons_of_neg]
      simp [hne ' ' rfl, hne '\t' rfl, hne '\n' rfl, hne '\r' rfl]
    | negSucc n => rfl
  | str text => rfl

theorem readItem_itemTail (ensureAscii : Bool) (item : String × Scalar) {rest : List Char}
    (hrest : Stops rest) : readItem (itemTail ensureAscii item ++ rest) = some (item, rest) := by
  have hkey := readStr_escape ensureAscii item.1
    (':' :: ' ' :: dumpsScalar ensureAscii item.2 ++ rest)
  have hvalue := readScalar_dumpsScalar ensureAscii item.2 hrest
  have hblank : skipBlanks (' ' :: (dumpsScalar ensureAscii item.2 ++ rest)) =
      dumpsScalar ensureAscii item.2 ++ rest := dumpsScalar_head ensureAscii item.2 rest
  have hcolon : ∀ cs, skipBlanks (':' :: cs) = ':' :: cs := fun cs => rfl
  simp only [itemTail, List.append_assoc, List.cons_append] at hkey ⊢
  simp only [readItem, hkey, Option.bind_eq_bind, Option.bind_some, hcolon, hblank, hvalue,
    hrest.skipBlanks, Option.pure_def]

/-- The items of an object, separated, up to the brace. -/
def joinItems (ensureAscii : Bool) (d : Dict) : List Char :=
  [',', ' '].intercalate (d.map (dumpsItem ensureAscii))

theorem joinItems_singleton (ensureAscii : Bool) (item : String × Scalar) :
    joinItems ensureAscii [item] = '"' :: itemTail ensureAscii item := by
  rw [← dumpsItem_eq]
  simp [joinItems]

theorem joinItems_cons_cons (ensureAscii : Bool) (item next : String × Scalar) (d : Dict) :
    joinItems ensureAscii (item :: next :: d) =
      '"' :: (itemTail ensureAscii item ++ ',' :: ' ' :: joinItems ensureAscii (next :: d)) := by
  rw [joinItems, List.map_cons, List.map_cons, List.intercalate_cons_cons, dumpsItem_eq]
  simp [joinItems]

/-- Items start with the quote of a key. -/
theorem exists_cons_joinItems (ensureAscii : Bool) (item : String × Scalar) (d : Dict) :
    ∃ cs, joinItems ensureAscii (item :: d) = '"' :: cs := by
  cases d with
  | nil => exact ⟨_, joinItems_singleton ensureAscii item⟩
  | cons next d => exact ⟨_, joinItems_cons_cons ensureAscii item next d⟩

theorem skipBlanks_joinItems (ensureAscii : Bool) (item : String × Scalar) (d : Dict)
    (rest : List Char) : skipBlanks (joinItems ensureAscii (item :: d) ++ rest) =
      joinItems ensureAscii (item :: d) ++ rest := by
  obtain ⟨cs, hcs⟩ := exists_cons_joinItems ensureAscii item d
  rw [hcs]
  rfl

theorem length_le_joinItems (ensureAscii : Bool) (d : Dict) :
    d.length ≤ (joinItems ensureAscii d).length := by
  induction d with
  | nil => exact Nat.zero_le _
  | cons item d ih =>
    cases d with
    | nil => simp [joinItems_singleton]
    | cons next d =>
      rw [joinItems_cons_cons]
      simp only [List.length_cons, List.length_append] at ih ⊢
      omega

theorem Dict.set_of_notMem {d : Dict} {key : String} (h : key ∉ d.map Prod.fst) (value : Scalar) :
    d.set key value = d ++ [(key, value)] := by
  rw [Dict.set, if_neg]
  simp only [List.any_eq_true, decide_eq_true_eq]
  rintro ⟨item, hitem, rfl⟩
  exact h (List.mem_map_of_mem hitem)

theorem key_notMem_of_nodup {before d : Dict} {item : String × Scalar}
    (h : ((before ++ item :: d).map Prod.fst).Nodup) : item.1 ∉ before.map Prod.fst := by
  intro hmem
  rw [List.map_append, List.map_cons] at h
  exact (List.nodup_append.mp h).2.2 _ hmem _ List.mem_cons_self rfl

/-- Items are read back after those that have been read before. -/
theorem readItems_joinItems (ensureAscii : Bool) (rest : List Char) (item : String × Scalar)
    (d before : Dict) {fuel : ℕ} (hfuel : d.length < fuel)
    (hkeys : ((before ++ item :: d).map Prod.fst).Nodup) :
    readItems fuel before (joinItems ensureAscii (item :: d) ++ '}' :: rest) =
      some (before ++ item :: d, rest) := by
  induction d generalizing item before fuel with
  | nil =>
    obtain ⟨fuel, rfl⟩ := Nat.exists_eq_add_one_of_ne_zero (Nat.ne_zero_of_lt hfuel)
    have hread := @readItem_itemTail ensureAscii item ('}' :: rest) ⟨rest, .inr rfl⟩
    rw [joinItems_singleton, List.cons_append, readItems, hread]
    simp [Dict.set_of_notMem (key_notMem_of_nodup hkeys)]
  | cons next d ih =>
    obtain ⟨fuel, rfl⟩ := Nat.exists_eq_add_one_of_ne_zero (Nat.ne_zero_of_lt hfuel)
    have hread := @readItem_itemTail ensureAscii item
      (',' :: ' ' :: (joinItems ensureAscii (next :: d) ++ '}' :: rest)) ⟨_, .inl rfl⟩
    have hblank : skipBlanks (' ' :: (joinItems ensureAscii (next :: d) ++ '}' :: rest)) =
        joinItems ensureAscii (next :: d) ++ '}' :: rest :=
      skipBlanks_joinItems ensureAscii next d _
    have hrest := @ih next (before ++ [item]) fuel
      (by rw [List.length_cons] at hfuel; omega) (by simpa using hkeys)
    rw [joinItems_cons_cons, List.cons_append, List.append_assoc, List.cons_append,
      List.cons_append, readItems, hread]
    simp only [Dict.set_of_notMem (key_notMem_of_nodup hkeys), hblank, hrest]
    simp

/-- An object with distinct keys is read back from its text. -/
theorem loads_dumps (ensureAscii : Bool) {d : Dict} (hkeys : (d.map Prod.fst).Nodup) :
    loads (dumps ensureAscii d) = some d := by
  have hdict : readDict (joinItems ensureAscii d ++ ['}']) = some (d, []) := by
    cases d with
    | nil => rfl
    | cons item d =>
      have hlength := length_le_joinItems ensureAscii (item :: d)
      have hread := @readItems_joinItems ensureAscii [] item d []
        (joinItems ensureAscii (item :: d) ++ ['}']).length
        (by simp only [List.length_append, List.length_cons] at hlength ⊢; omega) hkeys
      obtain ⟨cs, hcs⟩ := exists_cons_joinItems ensureAscii item d
      rw [readDict, skipBlanks_joinItems]
      rw [hcs] at hread ⊢
      exact hread
  have hbrace : ∀ cs, skipBlanks ('{' :: cs) = '{' :: cs := fun cs => rfl
  have htext : (dumps ensureAscii d).toList = '{' :: (joinItems ensureAscii d ++ ['}']) := by
    rw [dumps, String.toList_ofList, joinItems]
  rw [loads, htext, hbrace]
  simp only [hdict]
  rfl

/-! ## Control characters -/

theorem isControl_of_all {cs : List Char} (h : (cs.all fun c => !isControl c) = true) :
    ∀ c ∈ cs, isControl c = false := by
  simpa using h

theorem isControl_digitChar : ∀ d < 16, isControl (Nat.digitChar d) = false := by decide

theorem isControl_of_mem_shortEscapes : ∀ escape ∈ shortEscapes, isControl escape.2 = false := by
  decide

theorem isControl_of_mem_unicodeEscape (n : ℕ) : ∀ c ∈ unicodeEscape n, isControl c = false := by
  have hdigit : ∀ k, isControl (Nat.digitChar (k % 16)) = false := fun k =>
    isControl_digitChar _ (Nat.mod_lt _ (by decide))
  simp only [unicodeEscape, List.forall_mem_cons, hdigit, List.not_mem_nil, IsEmpty.forall_iff,
    implies_true, and_true]
  decide

theorem isControl_of_mem_escapeChar (ensureAscii : Bool) (d : Char) :
    ∀ c ∈ escapeChar ensureAscii d, isControl c = false := by
  unfold escapeChar
  split
  · rename_i letter hletter
    obtain ⟨before, after, hmem, -⟩ := List.lookup_eq_some_iff.mp hletter
    have hcontrol := isControl_of_mem_shortEscapes (d, letter) (by rw [hmem]; simp)
    simp only [List.forall_mem_cons, hcontrol, List.not_mem_nil, IsEmpty.forall_iff, implies_true,
      and_true]
    decide
  · split_ifs with hcoded
    · intro c hc
      obtain ⟨n, -, hc⟩ := List.mem_flatMap.mp hc
      exact isControl_of_mem_unicodeEscape n c hc
    · simp only [coded, Bool.or_eq_true, not_or] at hcoded
      simpa using hcoded.1

theorem isControl_of_mem_dumpsStr (ensureAscii : Bool) (text : String) :
    ∀ c ∈ dumpsStr ensureAscii text, isControl c = false := by
  have hbody : ∀ c ∈ text.toList.flatMap (escapeChar ensureAscii), isControl c = false := by
    intro c hc
    obtain ⟨d, -, hc⟩ := List.mem_flatMap.mp hc
    exact isControl_of_mem_escapeChar ensureAscii d c hc
  simp only [dumpsStr, List.forall_mem_cons, List.forall_mem_append, List.not_mem_nil,
    IsEmpty.forall_iff, implies_true, and_true]
  exact ⟨by decide, hbody, by decide⟩

theorem isControl_of_isDigit {c : Char} (h : c.isDigit = true) : isControl c = false := by
  simp only [Char.isDigit, Bool.and_eq_true, decide_eq_true_eq] at h
  have hle : 0x30 ≤ c.toNat := h.1
  rw [isControl, decide_eq_false_iff_not]
  omega

theorem isControl_of_mem_dumpsScalar (ensureAscii : Bool) (value : Scalar) :
    ∀ c ∈ dumpsScalar ensureAscii value, isControl c = false := by
  cases value with
  | null => exact isControl_of_all rfl
  | bool value => cases value <;> exact isControl_of_all rfl
  | int n =>
    cases n with
    | ofNat n => exact fun c hc => isControl_of_isDigit (isDigit_of_mem_dumpsNat hc)
    | negSucc n =>
      simp only [dumpsScalar, List.forall_mem_cons]
      exact ⟨by decide, fun c hc => isControl_of_isDigit (isDigit_of_mem_dumpsNat hc)⟩
  | str text => exact isControl_of_mem_dumpsStr ensureAscii text

theorem isControl_of_mem_dumpsItem (ensureAscii : Bool) (item : String × Scalar) :
    ∀ c ∈ dumpsItem ensureAscii item, isControl c = false := by
  simp only [dumpsItem, List.forall_mem_append]
  exact ⟨⟨isControl_of_mem_dumpsStr ensureAscii item.1, isControl_of_all rfl⟩,
    isControl_of_mem_dumpsScalar ensureAscii item.2⟩

/-- The text of an object has no control character, so it is one line. -/
theorem isControl_of_mem_dumps (ensureAscii : Bool) (d : Dict) :
    ∀ c ∈ (dumps ensureAscii d).toList, isControl c = false := by
  have hitems : ∀ c ∈ [',', ' '].intercalate (d.map (dumpsItem ensureAscii)),
      isControl c = false := by
    induction d with
    | nil => exact fun c hc => absurd hc List.not_mem_nil
    | cons item d ih =>
      cases d with
      | nil => simpa using isControl_of_mem_dumpsItem ensureAscii item
      | cons next d =>
        simp only [List.map_cons, List.intercalate_cons_cons, List.forall_mem_append] at ih ⊢
        exact ⟨⟨isControl_of_mem_dumpsItem ensureAscii item, isControl_of_all rfl⟩, ih⟩
  rw [dumps, String.toList_ofList]
  simp only [List.forall_mem_cons, List.forall_mem_append]
  exact ⟨by decide, hitems, by decide, fun _ hc => absurd hc List.not_mem_nil⟩

end Logit.Python.Json
