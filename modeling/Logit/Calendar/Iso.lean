import Logit.Calendar.Datetime

/-!
# Dates as text

The texts of the service's messages, and the ISO texts dates are stored as. Python's
dates have years of four digits, so an ISO text has a fixed width and a reader can take it
from the front of a longer text; what it takes is what was written.

## Main definitions

* `decimal`, `takeDecimal` — a number with a fixed count of decimal digits
* `strftime` — a date in the formats the service's messages use
* `PyDate`, `PyDatetime` — dates and instants Python can represent
* `isoDate`, `isoDatetime` — their ISO texts, an instant's in UTC
* `readDate`, `readDatetime` — the readers of these texts

## Main results

* `readDate_isoDate`, `readDatetime_isoDatetime` — an ISO text reads back
-/

namespace Logit.Calendar

/-! ## Decimals of a fixed width -/

/-- The last digits of a number. -/
def decimal : ℕ → ℕ → List Char
  | 0, _ => []
  | width + 1, n => decimal width (n / 10) ++ [Nat.digitChar (n % 10)]

/-- The value of an ASCII digit. -/
def readDigit (c : Char) : Option ℕ :=
  if '0' ≤ c ∧ c ≤ '9' then some (c.toNat - '0'.toNat) else none

/-- Reads so many digits; what follows them is left. -/
def takeDecimal : ℕ → List Char → Option (ℕ × List Char)
  | 0, text => some (0, text)
  | width + 1, text => do
    let (n, rest) ← takeDecimal width text
    match rest with
    | [] => none
    | c :: rest => return (n * 10 + (← readDigit c), rest)

/-- Drops one given character. -/
def takeChar (c : Char) : List Char → Option (List Char)
  | [] => none
  | d :: rest => if d = c then some rest else none

@[simp] theorem takeChar_cons (c : Char) (rest : List Char) :
    takeChar c (c :: rest) = some rest := by
  simp [takeChar]

theorem readDigit_digitChar : ∀ n < 10, readDigit (Nat.digitChar n) = some n := by decide

theorem takeDecimal_decimal (width n : ℕ) (rest : List Char) :
    takeDecimal width (decimal width n ++ rest) = some (n % 10 ^ width, rest) := by
  induction width generalizing n rest with
  | zero => simp [takeDecimal, decimal, Nat.mod_one]
  | succ width ih =>
    have hdigit : readDigit (Nat.digitChar (n % 10)) = some (n % 10) :=
      readDigit_digitChar _ (Nat.mod_lt n (by decide))
    have hsplit : n / 10 % 10 ^ width * 10 + n % 10 = n % 10 ^ (width + 1) := by
      rw [pow_succ', Nat.mod_mul]
      ring
    simp only [takeDecimal, decimal, List.append_assoc, ih, List.singleton_append, hdigit,
      Option.bind_eq_bind, Option.bind_some, Option.pure_def, hsplit]

/-- A number that fits its width reads back. -/
theorem takeDecimal_of_lt {width n : ℕ} (h : n < 10 ^ width) (rest : List Char) :
    takeDecimal width (decimal width n ++ rest) = some (n, rest) := by
  rw [takeDecimal_decimal, Nat.mod_eq_of_lt h]

/-! ## Dates -/

/-- `date.strftime('%Y' + y + '%m' + m + '%d' + d)`. -/
def strftime (date : Date) (y m d : String) : String :=
  toString date.year ++ y ++ String.ofList (decimal 2 date.month) ++ m ++
    String.ofList (decimal 2 date.day) ++ d

example : strftime (Datetime.utc 2026 1 10 9).date "-" "-" "" = "2026-01-10" := by decide +kernel

/-- The years Python's dates have. -/
def Date.InRange (d : Date) : Prop := 1 ≤ d.year ∧ d.year ≤ 9999

instance : DecidablePred Date.InRange := fun d =>
  inferInstanceAs (Decidable (1 ≤ d.year ∧ d.year ≤ 9999))

/-- A date Python can represent. -/
abbrev PyDate := {d : Date // d.InRange}

/-- An instant Python can represent. -/
abbrev PyDatetime := {t : Datetime // t.date.InRange}

namespace PyDatetime

/-- The full hour of a day. -/
def utc (year : ℤ) (month day hour : ℕ)
    (h : Datetime.isHour year month day hour = true := by exact Eq.refl true)
    (hyear : decide (1 ≤ year ∧ year ≤ 9999) = true := by exact Eq.refl true) : PyDatetime :=
  ⟨.utc year month day hour h, of_decide_eq_true hyear⟩

/-- The date of an instant. -/
def date (t : PyDatetime) : PyDate := ⟨t.1.date, t.2⟩

end PyDatetime

/-- `YYYY-MM-DD`. -/
def isoDateChars (d : Date) : List Char :=
  decimal 4 d.year.toNat ++ '-' :: (decimal 2 d.month ++ '-' :: decimal 2 d.day)

/-- Reads a date; what follows it is left. -/
def takeDate (text : List Char) : Option (PyDate × List Char) := do
  let (year, text) ← takeDecimal 4 text
  let text ← takeChar '-' text
  let (month, text) ← takeDecimal 2 text
  let text ← takeChar '-' text
  let (day, text) ← takeDecimal 2 text
  if h : (1 ≤ month ∧ month ≤ 12 ∧ 1 ≤ day ∧ day ≤ monthLength year month) ∧
      1 ≤ (year : ℤ) ∧ (year : ℤ) ≤ 9999 then
    return (⟨⟨year, month, day, h.1.1, h.1.2.1, h.1.2.2.1, h.1.2.2.2⟩, h.2⟩, text)
  else none

theorem takeDate_isoDateChars (d : PyDate) (rest : List Char) :
    takeDate (isoDateChars d.1 ++ rest) = some (d, rest) := by
  obtain ⟨⟨year, month, day, hmonth, hmonth', hday, hday'⟩, hyear⟩ := d
  have hlength := monthLength_le year month
  have hrange : 1 ≤ year ∧ year ≤ 9999 := hyear
  have hyear' : (year.toNat : ℤ) = year := Int.toNat_of_nonneg (by omega)
  have hfour : year.toNat < 10 ^ 4 := by omega
  have htwo : month < 10 ^ 2 ∧ day < 10 ^ 2 := by omega
  simp only [takeDate, isoDateChars, List.append_assoc, List.cons_append, takeDecimal_of_lt hfour,
    takeDecimal_of_lt htwo.1, takeDecimal_of_lt htwo.2, takeChar_cons, Option.bind_eq_bind,
    Option.bind_some, hyear', Option.pure_def]
  exact dif_pos ⟨⟨hmonth, hmonth', hday, hday'⟩, hyear⟩

/-- `date.isoformat()`. -/
def isoDate (d : PyDate) : String := String.ofList (isoDateChars d.1)

/-- The date of an ISO text. -/
def readDate (text : String) : Option PyDate :=
  match takeDate text.toList with
  | some (d, []) => some d
  | _ => none

@[simp] theorem readDate_isoDate (d : PyDate) : readDate (isoDate d) = some d := by
  have h := takeDate_isoDateChars d []
  rw [List.append_nil] at h
  simp [readDate, isoDate, h]

/-! ## Instants -/

/-- The fraction of a second, left out when it is zero, and the mark of UTC. -/
def isoFraction (micros : ℕ) : List Char :=
  if micros = 0 then ['Z'] else '.' :: (decimal 6 micros ++ ['Z'])

/-- `HH:MM:SS`, a fraction and `Z`. -/
def isoTime (micros : ℕ) : List Char :=
  let seconds := micros / 1000000
  decimal 2 (seconds / 3600) ++ ':' :: (decimal 2 (seconds / 60 % 60) ++
    ':' :: (decimal 2 (seconds % 60) ++ isoFraction (micros % 1000000)))

def readFraction (text : List Char) : Option ℕ :=
  match text with
  | ['Z'] => some 0
  | '.' :: text =>
    match takeDecimal 6 text with
    | some (micros, ['Z']) => some micros
    | _ => none
  | _ => none

/-- Reads a time of day in UTC, in microseconds. -/
def readTime (text : List Char) : Option {micros : ℕ // micros < ticksPerDay} := do
  let (hour, text) ← takeDecimal 2 text
  let text ← takeChar ':' text
  let (minute, text) ← takeDecimal 2 text
  let text ← takeChar ':' text
  let (second, text) ← takeDecimal 2 text
  let fraction ← readFraction text
  let micros := (hour * 3600 + minute * 60 + second) * 1000000 + fraction
  if h : (minute < 60 ∧ second < 60) ∧ micros < ticksPerDay then return ⟨micros, h.2⟩ else none

theorem readFraction_isoFraction {micros : ℕ} (h : micros < 1000000) :
    readFraction (isoFraction micros) = some micros := by
  by_cases hzero : micros = 0
  · subst hzero
    rfl
  · simp [isoFraction, hzero, readFraction, takeDecimal_of_lt (show micros < 10 ^ 6 by omega)]

theorem readTime_isoTime (time : {micros : ℕ // micros < ticksPerDay}) :
    readTime (isoTime time.1) = some time := by
  obtain ⟨micros, hlt⟩ := time
  have hday : micros < 24 * 60 * 60 * 1000000 := hlt
  have hhour : micros / 1000000 / 3600 < 10 ^ 2 := by omega
  have hminute : micros / 1000000 / 60 % 60 < 10 ^ 2 := by omega
  have hsecond : micros / 1000000 % 60 < 10 ^ 2 := by omega
  have hsum : (micros / 1000000 / 3600 * 3600 + micros / 1000000 / 60 % 60 * 60 +
      micros / 1000000 % 60) * 1000000 + micros % 1000000 = micros := by omega
  simp only [readTime, isoTime, takeDecimal_of_lt hhour, takeDecimal_of_lt hminute,
    takeDecimal_of_lt hsecond, takeChar_cons, Option.bind_eq_bind, Option.bind_some,
    Option.pure_def, readFraction_isoFraction (Nat.mod_lt micros (show 0 < 1000000 by decide)),
    hsum]
  exact dif_pos ⟨⟨Nat.mod_lt _ (by decide), Nat.mod_lt _ (by decide)⟩, hlt⟩

/-- An instant of UTC as Pydantic writes it. -/
def isoDatetime (t : PyDatetime) : String :=
  String.ofList (isoDateChars t.1.date ++ 'T' :: isoTime t.1.micros)

/-- The instant of an ISO text in UTC. -/
def readDatetime (text : String) : Option PyDatetime := do
  let (date, text) ← takeDate text.toList
  let text ← takeChar 'T' text
  let time ← readTime text
  return ⟨⟨date.1, time.1, time.2⟩, date.2⟩

@[simp] theorem readDatetime_isoDatetime (t : PyDatetime) :
    readDatetime (isoDatetime t) = some t := by
  obtain ⟨⟨date, micros, hlt⟩, hrange⟩ := t
  have hdate := takeDate_isoDateChars ⟨date, hrange⟩ ('T' :: isoTime micros)
  have htime := readTime_isoTime ⟨micros, hlt⟩
  simp only at hdate htime
  simp [readDatetime, isoDatetime, hdate, htime]

example : isoDatetime (.utc 2026 1 10 9) = "2026-01-10T09:00:00Z" := by
  decide +kernel

end Logit.Calendar
