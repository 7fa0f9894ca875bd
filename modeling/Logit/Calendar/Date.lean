import Mathlib.Data.Int.ConditionallyCompleteOrder
import Mathlib.Data.Int.SuccPred
import Mathlib.Order.Monotone.Basic
import Mathlib.Tactic.Ring

/-!
# The civil calendar

Dates of the proleptic Gregorian calendar. A date carries the proofs that its
month and its day exist, so an invalid date cannot be built. The day number of a
date counts days on one integer axis, and every later comparison of dates and
instants is a comparison of such numbers.

Months are also indexed by one integer, `12 * year + (month - 1)`: consecutive
months have consecutive indices across year ends, and the first days of the
months form a strictly increasing sequence whose gaps are the month lengths.

## Main definitions

* `monthLength` — the number of days of a month
* `Date` — a valid year, month and day
* `Date.dayNumber` — the ordinal of a date
* `Date.next`, `Date.addDays` — the following date, and the date some days later
* `monthStart` — the day number of the last day before a month, by month index

## Main results

* `monthStart_succ`, `monthStart_strictMono` — months follow one another without gap
* `Date.dayNumber_injective` — a day number determines its date
* `Date.dayNumber_addDays` — adding days adds to the day number
-/

namespace Logit.Calendar

/-- The Gregorian leap-year rule. -/
def IsLeap (year : ℤ) : Prop := year % 4 = 0 ∧ (year % 100 ≠ 0 ∨ year % 400 = 0)

instance : DecidablePred IsLeap := fun year =>
  inferInstanceAs (Decidable (year % 4 = 0 ∧ (year % 100 ≠ 0 ∨ year % 400 = 0)))

/-- The number of days of a month. -/
def monthLength (year : ℤ) (month : ℕ) : ℕ :=
  if month = 2 then if IsLeap year then 29 else 28
  else if month = 4 ∨ month = 6 ∨ month = 9 ∨ month = 11 then 30
  else 31

theorem monthLength_ge (year : ℤ) (month : ℕ) : 28 ≤ monthLength year month := by
  unfold monthLength
  split_ifs <;> omega

theorem monthLength_le (year : ℤ) (month : ℕ) : monthLength year month ≤ 31 := by
  unfold monthLength
  split_ifs <;> omega

/-! ## Day numbers of months -/

/-- Days before 1 January of a year. -/
def daysBeforeYear (year : ℤ) : ℤ :=
  365 * (year - 1) + (year - 1) / 4 - (year - 1) / 100 + (year - 1) / 400

/-- Days of a year before the first day of a month. -/
def daysBeforeMonth (year : ℤ) : ℕ → ℤ
  | 0 => 0
  | 1 => 0
  | month + 2 => daysBeforeMonth year (month + 1) + monthLength year (month + 1)

theorem daysBeforeYear_succ (year : ℤ) :
    daysBeforeYear (year + 1) = daysBeforeYear year + daysBeforeMonth year 13 := by
  simp only [daysBeforeYear, daysBeforeMonth, monthLength]
  by_cases hleap : IsLeap year
  · simp [hleap]
    unfold IsLeap at hleap
    omega
  · simp [hleap]
    unfold IsLeap at hleap
    omega

/-- The year of a month index. -/
def yearOf (index : ℤ) : ℤ := index / 12

/-- The month of a month index, counted from 1. -/
def monthOf (index : ℤ) : ℕ := (index % 12).toNat + 1

/-- The index of a month. -/
def monthIndex (year : ℤ) (month : ℕ) : ℤ := 12 * year + (month - 1)

theorem monthOf_pos (index : ℤ) : 1 ≤ monthOf index := by
  unfold monthOf
  omega

theorem monthOf_le (index : ℤ) : monthOf index ≤ 12 := by
  unfold monthOf
  omega

theorem yearOf_monthIndex {year : ℤ} {month : ℕ} (hpos : 1 ≤ month) (hle : month ≤ 12) :
    yearOf (monthIndex year month) = year := by
  unfold yearOf monthIndex
  omega

theorem monthOf_monthIndex {year : ℤ} {month : ℕ} (hpos : 1 ≤ month) (hle : month ≤ 12) :
    monthOf (monthIndex year month) = month := by
  unfold monthOf monthIndex
  omega

/-- The number of days of a month, by month index. -/
def lengthOf (index : ℤ) : ℕ := monthLength (yearOf index) (monthOf index)

/-- The day number of the last day before a month, by month index. -/
def monthStart (index : ℤ) : ℤ :=
  daysBeforeYear (yearOf index) + daysBeforeMonth (yearOf index) (monthOf index)

/-- Each month starts where the one before it ends. -/
theorem monthStart_succ (index : ℤ) :
    monthStart (index + 1) = monthStart index + lengthOf index := by
  by_cases hlast : index % 12 = 11
  · -- December: the next month opens the next year.
    have hyear : yearOf (index + 1) = yearOf index + 1 := by unfold yearOf; omega
    have hmonth : monthOf (index + 1) = 1 := by unfold monthOf; omega
    have hdec : monthOf index = 12 := by unfold monthOf; omega
    simp only [monthStart, lengthOf, hyear, hmonth, hdec, daysBeforeYear_succ, daysBeforeMonth]
    ring
  · have hyear : yearOf (index + 1) = yearOf index := by unfold yearOf; omega
    have hmonth : monthOf (index + 1) = (index % 12).toNat + 2 := by unfold monthOf; omega
    have hthis : monthOf index = (index % 12).toNat + 1 := rfl
    simp only [monthStart, lengthOf, hyear, hmonth, hthis, daysBeforeMonth]
    ring

theorem monthStart_strictMono : StrictMono monthStart :=
  strictMono_int_of_lt_succ fun index => by
    have hlength := monthLength_ge (yearOf index) (monthOf index)
    rw [monthStart_succ, lengthOf]
    omega

/-! ## Dates -/

/-- A date of the civil calendar. -/
structure Date where
  year : ℤ
  month : ℕ
  day : ℕ
  month_pos : 1 ≤ month
  month_le : month ≤ 12
  day_pos : 1 ≤ day
  day_le : day ≤ monthLength year month
  deriving DecidableEq, Repr

namespace Date

/-- The index of the month a date lies in. -/
def index (d : Date) : ℤ := monthIndex d.year d.month

/-- The ordinal of a date on the axis of days. -/
def dayNumber (d : Date) : ℤ :=
  daysBeforeYear d.year + daysBeforeMonth d.year d.month + d.day

theorem yearOf_index (d : Date) : yearOf d.index = d.year :=
  yearOf_monthIndex d.month_pos d.month_le

theorem monthOf_index (d : Date) : monthOf d.index = d.month :=
  monthOf_monthIndex d.month_pos d.month_le

theorem dayNumber_eq (d : Date) : d.dayNumber = monthStart d.index + d.day := by
  rw [dayNumber, monthStart, yearOf_index, monthOf_index]

theorem day_le_lengthOf (d : Date) : d.day ≤ lengthOf d.index := by
  rw [lengthOf, yearOf_index, monthOf_index]
  exact d.day_le

/-- A date lies after the start of its month and not after the start of the next. -/
theorem monthStart_lt_dayNumber (d : Date) : monthStart d.index < d.dayNumber := by
  have hday := d.day_pos
  rw [dayNumber_eq]
  omega

theorem dayNumber_le_monthStart_succ (d : Date) : d.dayNumber ≤ monthStart (d.index + 1) := by
  have hday := d.day_le_lengthOf
  rw [dayNumber_eq, monthStart_succ]
  omega

theorem index_le_of_dayNumber_le {d e : Date} (h : d.dayNumber ≤ e.dayNumber) :
    d.index ≤ e.index := by
  by_contra hlt
  have hmono : monthStart (e.index + 1) ≤ monthStart d.index :=
    monthStart_strictMono.monotone (by omega)
  have hd := d.monthStart_lt_dayNumber
  have he := e.dayNumber_le_monthStart_succ
  omega

theorem dayNumber_injective : Function.Injective dayNumber := by
  intro d e h
  have hindex : d.index = e.index :=
    le_antisymm (index_le_of_dayNumber_le h.le) (index_le_of_dayNumber_le h.ge)
  have hyear : d.year = e.year := by rw [← d.yearOf_index, ← e.yearOf_index, hindex]
  have hmonth : d.month = e.month := by rw [← d.monthOf_index, ← e.monthOf_index, hindex]
  have hday : d.day = e.day := by
    rw [dayNumber_eq, dayNumber_eq, hindex] at h
    omega
  cases d
  cases e
  simp_all

instance : LinearOrder Date := LinearOrder.lift' dayNumber dayNumber_injective

/-- The first date of a month. -/
def firstOf (year : ℤ) (month : ℕ) (hpos : 1 ≤ month) (hle : month ≤ 12) : Date where
  year := year
  month := month
  day := 1
  month_pos := hpos
  month_le := hle
  day_pos := le_refl 1
  day_le := le_trans (by omega) (monthLength_ge year month)

/-- The following date. -/
def next (d : Date) : Date :=
  if h : d.day < monthLength d.year d.month then
    { d with day := d.day + 1, day_pos := by omega, day_le := h }
  else if h12 : d.month < 12 then
    firstOf d.year (d.month + 1) (by omega) (by omega)
  else
    firstOf (d.year + 1) 1 le_rfl (by omega)

theorem dayNumber_next (d : Date) : d.next.dayNumber = d.dayNumber + 1 := by
  have hlength := d.day_le
  have hpos := d.month_pos
  unfold next
  split_ifs with hday hmonth
  · simp only [dayNumber]
    omega
  · obtain ⟨m, hm⟩ : ∃ m, d.month = m + 1 := ⟨d.month - 1, by omega⟩
    simp only [dayNumber, firstOf, hm, daysBeforeMonth] at hday hlength ⊢
    omega
  · have hdec : d.month = 12 := le_antisymm d.month_le (by omega)
    have hthirteen : daysBeforeMonth d.year 13 =
        daysBeforeMonth d.year 12 + monthLength d.year 12 := rfl
    have hone : daysBeforeMonth (d.year + 1) 1 = 0 := rfl
    simp only [dayNumber, firstOf, hdec, daysBeforeYear_succ, hthirteen, hone] at hday hlength ⊢
    omega

/-- The date some days later. -/
def addDays (d : Date) : ℕ → Date
  | 0 => d
  | days + 1 => (d.addDays days).next

theorem dayNumber_addDays (d : Date) (days : ℕ) :
    (d.addDays days).dayNumber = d.dayNumber + days := by
  induction days with
  | zero => simp [addDays]
  | succ days ih =>
    rw [addDays, dayNumber_next, ih]
    push_cast
    ring

end Date

end Logit.Calendar
