import Logit.Calendar.Datetime
import Logit.Schedule.Period
import Mathlib.Data.PNat.Defs

/-!
# Monthly anchors

A day of the month picks one date in every month: that day, or the month's last
day where the month is too short for it. The midnights of these dates are the
monthly anchors of the day. They form a strictly increasing schedule, so every
instant lies in exactly one of the periods they cut out, and that period starts
in the instant's own month or in the month before.

## Main definitions

* `clampedDate` — the given day of a month, or the month's last day
* `anchor` — the monthly anchor of a day, by month index
* `anchorIndex` — the month in which the period around an instant starts

## Main results

* `anchor_strictMono` — the anchors are a schedule
* `inPeriod_anchorIndex` — every instant lies in the period of its anchor index
* `dayNumber_anchor_succ_ge`, `dayNumber_anchor_succ_le` — a period is at least 28 and
  at most 31 days long
-/

namespace Logit.Calendar

open Schedule

theorem clampedDay_pos (year : ℤ) (month : ℕ) (day : ℕ+) :
    1 ≤ min (day : ℕ) (monthLength year month) :=
  le_min day.pos (le_trans (by omega) (monthLength_ge year month))

theorem clampedDay_le (year : ℤ) (month : ℕ) (day : ℕ+) :
    min (day : ℕ) (monthLength year month) ≤ monthLength year month := min_le_right _ _

/-- The given day of a month, or the month's last day if the month is shorter. -/
def clampedDate (year : ℤ) (month : ℕ) (hpos : 1 ≤ month) (hle : month ≤ 12) (day : ℕ+) :
    Date where
  year := year
  month := month
  day := min day (monthLength year month)
  month_pos := hpos
  month_le := hle
  day_pos := clampedDay_pos year month day
  day_le := clampedDay_le year month day

/-- The day of the month of a date. -/
def Date.dayOfMonth (d : Date) : ℕ+ := ⟨d.day, d.day_pos⟩

/-- The date a day picks in the month of an index. -/
def anchorDate (day : ℕ+) (index : ℤ) : Date :=
  clampedDate (yearOf index) (monthOf index) (monthOf_pos index) (monthOf_le index) day

/-- The monthly anchor of a day, by month index. -/
def anchor (day : ℕ+) (index : ℤ) : Datetime := .midnight (anchorDate day index)

variable {day : ℕ+} {index : ℤ} {t : Datetime}

/-- The anchor of a month given by its year and number. -/
theorem anchor_monthIndex {year : ℤ} {month : ℕ} (hpos : 1 ≤ month) (hle : month ≤ 12)
    (day : ℕ+) :
    anchor day (monthIndex year month) = .midnight (clampedDate year month hpos hle day) := by
  simp [anchor, anchorDate, clampedDate, yearOf_monthIndex hpos hle, monthOf_monthIndex hpos hle]

theorem dayNumber_anchorDate (day : ℕ+) (index : ℤ) :
    (anchorDate day index).dayNumber = monthStart index + min (day : ℕ) (lengthOf index) := by
  simp [anchorDate, clampedDate, Date.dayNumber, monthStart, lengthOf]

/-- Consecutive anchors are at least 28 days apart. -/
theorem dayNumber_anchor_succ_ge (day : ℕ+) (index : ℤ) :
    (anchorDate day index).dayNumber + 28 ≤ (anchorDate day (index + 1)).dayNumber := by
  have hthis := monthLength_ge (yearOf index) (monthOf index)
  have hnext := monthLength_ge (yearOf (index + 1)) (monthOf (index + 1))
  -- A long day falls back in a short month, so all four bounds are needed.
  have hnext' := monthLength_le (yearOf (index + 1)) (monthOf (index + 1))
  have hthis' := monthLength_le (yearOf index) (monthOf index)
  have hpos := day.pos
  rw [dayNumber_anchorDate, dayNumber_anchorDate, monthStart_succ]
  simp only [lengthOf]
  omega

/-- Consecutive anchors are at most 31 days apart. -/
theorem dayNumber_anchor_succ_le (day : ℕ+) (index : ℤ) :
    (anchorDate day (index + 1)).dayNumber ≤ (anchorDate day index).dayNumber + 31 := by
  have hthis := monthLength_le (yearOf index) (monthOf index)
  have hnext := monthLength_le (yearOf (index + 1)) (monthOf (index + 1))
  rw [dayNumber_anchorDate, dayNumber_anchorDate, monthStart_succ]
  simp only [lengthOf]
  omega

theorem anchor_strictMono (day : ℕ+) : StrictMono (anchor day) :=
  strictMono_int_of_lt_succ fun index => by
    have hgap := dayNumber_anchor_succ_ge day index
    simp only [anchor, Datetime.lt_midnight_iff, Datetime.midnight_date]
    omega

/-- An instant precedes the anchor of the month after its own. -/
theorem lt_anchor_succ (day : ℕ+) (t : Datetime) : t < anchor day (t.date.index + 1) := by
  have hday := t.date.dayNumber_le_monthStart_succ
  have hpos := day.pos
  have hlength := monthLength_ge (yearOf (t.date.index + 1)) (monthOf (t.date.index + 1))
  rw [anchor, Datetime.lt_midnight_iff, dayNumber_anchorDate]
  simp only [lengthOf]
  omega

/-- An instant is not before the anchor of the month before its own. -/
theorem anchor_pred_le (day : ℕ+) (t : Datetime) : anchor day (t.date.index - 1) ≤ t := by
  have hday := t.date.monthStart_lt_dayNumber
  have hstart := monthStart_succ (t.date.index - 1)
  rw [sub_add_cancel] at hstart
  rw [anchor, Datetime.midnight_le_iff, dayNumber_anchorDate]
  omega

/-- The month in which the period around an instant starts: the instant's own
month once its anchor has come, and the month before until then. -/
def anchorIndex (day : ℕ+) (t : Datetime) : ℤ :=
  if anchor day t.date.index ≤ t then t.date.index else t.date.index - 1

theorem anchorIndex_of_le (h : anchor day t.date.index ≤ t) : anchorIndex day t = t.date.index :=
  if_pos h

theorem anchorIndex_of_lt (h : t < anchor day t.date.index) :
    anchorIndex day t = t.date.index - 1 :=
  if_neg (not_le.mpr h)

theorem inPeriod_anchorIndex (day : ℕ+) (t : Datetime) :
    InPeriod (anchor day) (anchorIndex day t) t := by
  rcases le_or_gt (anchor day t.date.index) t with h | h
  · rw [anchorIndex_of_le h]
    exact ⟨h, lt_anchor_succ day t⟩
  -- This month's anchor is still to come, so the period began at the last one.
  · rw [anchorIndex_of_lt h]
    refine ⟨anchor_pred_le day t, ?_⟩
    rwa [sub_add_cancel]

theorem dayNumber_anchorDate_self (d : Date) :
    (anchorDate d.dayOfMonth d.index).dayNumber = d.dayNumber := by
  have hday := d.day_le_lengthOf
  rw [dayNumber_anchorDate, Date.dayNumber_eq]
  simp only [Date.dayOfMonth, PNat.mk_coe]
  omega

/-- The anchor of a day on a date with that day is the date's midnight. -/
theorem anchor_index_self (t : Datetime) :
    anchor t.date.dayOfMonth t.date.index = .midnight t.date := by
  rw [anchor, Date.dayNumber_injective (dayNumber_anchorDate_self t.date)]

/-- Anchors of the first day of the month are the first midnights of the months. -/
theorem anchorIndex_one (t : Datetime) : anchorIndex 1 t = t.date.index := by
  apply anchorIndex_of_le
  have hday := t.date.monthStart_lt_dayNumber
  have hlength := monthLength_ge (yearOf t.date.index) (monthOf t.date.index)
  rw [anchor, Datetime.midnight_le_iff, dayNumber_anchorDate]
  simp only [lengthOf, PNat.one_coe]
  omega

end Logit.Calendar
