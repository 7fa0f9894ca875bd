import Logit.Calendar.Date
import Mathlib.Order.Basic

/-!
# Instants

An instant is a date and a time of day, counted in microseconds since midnight.
Instants are ordered along one integer axis of microseconds; on that axis
a day has a fixed length, so adding days adds a multiple of it and leaves the
time of day alone.

## Main definitions

* `Datetime` — a date and a time of day
* `Datetime.ticks` — microseconds on the common axis
* `Datetime.midnight` — the first instant of a date
* `Datetime.utc` — a full hour
* `Datetime.addDays` — the instant some days later, at the same time of day
* `Datetime.unixSeconds`, `Datetime.unixSecondsAfter` — the whole seconds since 1970, at an
  instant or some time after it

## Main results

* `Datetime.midnight_le`, `Datetime.lt_midnight_of_lt` — a date's midnight is at or
  before each of its instants, and earlier than every later date's
* `Datetime.ticks_addDays` — adding days moves along the axis by whole days
-/

namespace Logit.Calendar

/-- Microseconds in a day. -/
def ticksPerDay : ℕ := 24 * 60 * 60 * 1000000

/-- An instant: a date and the microseconds since its midnight. -/
structure Datetime where
  date : Date
  micros : ℕ
  micros_lt : micros < ticksPerDay
  deriving DecidableEq, Repr

namespace Datetime

/-- The position of an instant on the axis of microseconds. -/
def ticks (t : Datetime) : ℤ := t.date.dayNumber * ticksPerDay + t.micros

theorem ticks_injective : Function.Injective ticks := by
  intro s t h
  have hs := s.micros_lt
  have ht := t.micros_lt
  simp only [ticks, ticksPerDay] at h hs ht
  have hday : s.date.dayNumber = t.date.dayNumber := by omega
  have hmicros : s.micros = t.micros := by omega
  cases s
  cases t
  simp only [mk.injEq]
  exact ⟨Date.dayNumber_injective hday, hmicros⟩

instance : LinearOrder Datetime := LinearOrder.lift' ticks ticks_injective

theorem le_iff_ticks {s t : Datetime} : s ≤ t ↔ s.ticks ≤ t.ticks := Iff.rfl

theorem month_pos (t : Datetime) : 1 ≤ t.date.month := t.date.month_pos

theorem month_le (t : Datetime) : t.date.month ≤ 12 := t.date.month_le

theorem lastMonth_pos {t : Datetime} (h : 1 < t.date.month) : 1 ≤ t.date.month - 1 := by omega

theorem lastMonth_le (t : Datetime) : t.date.month - 1 ≤ 12 := by
  have hle := t.month_le
  omega

theorem december_pos : 1 ≤ 12 := by decide

theorem december_le : 12 ≤ 12 := le_rfl

/-- The first instant of a date. -/
def midnight (d : Date) : Datetime := ⟨d, 0, by decide⟩

/-- The year, month, day and hour are those of an instant. -/
def isHour (year : ℤ) (month day hour : ℕ) : Bool :=
  1 ≤ month ∧ month ≤ 12 ∧ 1 ≤ day ∧ day ≤ monthLength year month ∧ hour < 24

section Hours

variable {year : ℤ} {month day hour : ℕ}

theorem isHour_iff : isHour year month day hour = true ↔
    1 ≤ month ∧ month ≤ 12 ∧ 1 ≤ day ∧ day ≤ monthLength year month ∧ hour < 24 :=
  decide_eq_true_iff

theorem micros_lt_of_isHour (h : isHour year month day hour = true) :
    hour * (60 * 60 * 1000000) < ticksPerDay := by
  have hhour := (isHour_iff.mp h).2.2.2.2
  simp only [ticksPerDay]
  omega

end Hours

/-- The full hour of a day. -/
def utc (year : ℤ) (month day hour : ℕ)
    (h : isHour year month day hour = true := by exact Eq.refl true) : Datetime where
  date := ⟨year, month, day, (isHour_iff.mp h).1, (isHour_iff.mp h).2.1, (isHour_iff.mp h).2.2.1,
    (isHour_iff.mp h).2.2.2.1⟩
  micros := hour * (60 * 60 * 1000000)
  micros_lt := micros_lt_of_isHour h

@[simp] theorem midnight_date (d : Date) : (midnight d).date = d := rfl

theorem ticks_midnight (d : Date) : (midnight d).ticks = d.dayNumber * ticksPerDay := by
  simp [ticks, midnight]

theorem midnight_le (t : Datetime) : midnight t.date ≤ t := by
  rw [le_iff_ticks, ticks_midnight, ticks]
  omega

/-- An instant is at or after a date's midnight exactly when its own date is not earlier. -/
theorem midnight_le_iff {d : Date} {t : Datetime} :
    midnight d ≤ t ↔ d.dayNumber ≤ t.date.dayNumber := by
  have ht := t.micros_lt
  rw [le_iff_ticks, ticks_midnight, ticks]
  simp only [ticksPerDay] at ht ⊢
  omega

theorem lt_midnight_iff {d : Date} {t : Datetime} :
    t < midnight d ↔ t.date.dayNumber < d.dayNumber := by
  rw [← not_le, midnight_le_iff, not_le]

theorem date_mono {s t : Datetime} (h : s ≤ t) : s.date.dayNumber ≤ t.date.dayNumber :=
  midnight_le_iff.mp ((midnight_le s).trans h)

/-- The instant some days later, at the same time of day. -/
def addDays (t : Datetime) (days : ℕ) : Datetime := { t with date := t.date.addDays days }

theorem ticks_addDays (t : Datetime) (days : ℕ) :
    (t.addDays days).ticks = t.ticks + days * ticksPerDay := by
  simp only [ticks, addDays, Date.dayNumber_addDays]
  ring

theorem dayNumber_addDays (t : Datetime) (days : ℕ) :
    (t.addDays days).date.dayNumber = t.date.dayNumber + days :=
  t.date.dayNumber_addDays days

/-- `int(timestamp())`: the whole seconds since the first instant of 1970. -/
def unixSeconds (t : Datetime) : ℤ := (t.ticks - (utc 1970 1 1 0).ticks) / 1000000

theorem unixSeconds_addDays (t : Datetime) (days : ℕ) :
    (t.addDays days).unixSeconds = t.unixSeconds + days * 86400 := by
  rw [unixSeconds, unixSeconds, ticks_addDays]
  simp only [ticksPerDay]
  omega

example : (utc 2026 1 10 9).unixSeconds = 1768035600 := by decide

theorem unixSeconds_mono {s t : Datetime} (h : s ≤ t) : s.unixSeconds ≤ t.unixSeconds :=
  Int.ediv_le_ediv (by decide) (sub_le_sub_right (le_iff_ticks.mp h) _)

/-- `int((t + timedelta(microseconds=micros)).timestamp())`. -/
def unixSecondsAfter (t : Datetime) (micros : ℤ) : ℤ :=
  (t.ticks + micros - (utc 1970 1 1 0).ticks) / 1000000

theorem unixSecondsAfter_minutes (t : Datetime) (minutes : ℕ) :
    t.unixSecondsAfter (minutes * 60 * 1000000) = t.unixSeconds + minutes * 60 := by
  unfold unixSecondsAfter unixSeconds
  omega

end Datetime

end Logit.Calendar
