import Logit.Subscriptions.Usage

/-!
# Usage counters

The counters of chats and drafts live in Redis. A counter has the date of its billing period in
its key, and every count sets it to expire when the period is over. The end of the period is
computed from the date in the key. Where the month of that date was too short for the day the
subscription started on, the date does not tell the day any more: the end is then computed too
early if the following month is longer.

## Main definitions

* `periodTtl` — the seconds until a counter expires
* `UsageLimiter.incr`, `UsageLimiter.count` — counting, and reading the count
* `LastsPeriod` — a counter expires when its period is over, up to a second later

## Main results

* `lastsPeriod_iff` — when counters last as long as their period
-/

namespace Logit.Subscriptions

open Calendar Python Schedule Tokens

/-! ## The end of a period -/

/-- `datetime(year, month, day, tzinfo=timezone.utc)`; `none` where Python raises `ValueError`. -/
def datetime (year month day : ℤ) : Option PyDatetime :=
  if h : (1 ≤ month ∧ month ≤ 12 ∧ 1 ≤ day ∧ day ≤ monthLength year month.toNat) ∧
      1 ≤ year ∧ year ≤ 9999 then
    some ⟨.midnight ⟨year, month.toNat, day.toNat, by omega, by omega, by omega, by omega⟩, h.2⟩
  else none

/-- `int((later - earlier).total_seconds())`. -/
def secondsBetween (earlier later : Datetime) : ℤ := (later.ticks - earlier.ticks).tdiv 1000000

/-- The seconds until the counters of the billing period around an instant expire. -/
def periodTtl (startedAt : Option Datetime) (now : Datetime) : Option ℤ := do
  match ← (split '-' (billingPeriodKey startedAt now)).mapM (int 10) with
  | [y, m, d] =>
    let nextMonth := m % 12 + 1
    let nextYear := y + if m = 12 then 1 else 0
    let nextDay := min d (monthLength nextYear nextMonth.toNat)
    let nextPeriod ← datetime nextYear nextMonth nextDay
    return max (secondsBetween now nextPeriod.1 + 1) 1
  | _ => none

/-! ## Counters -/

/-- A counter, and the instant at which it expires in microseconds. -/
structure Counter where
  value : ℤ
  expiresAt : ℤ
  deriving DecidableEq, Repr

/-- The counters in Redis, by key. -/
abbrev Counters := String → Option Counter

/-- The value of a counter that has not expired. -/
def Counters.get (redis : Counters) (key : String) (now : Datetime) : Option ℤ :=
  ((redis key).filter fun counter => now.ticks < counter.expiresAt).map (·.value)

namespace UsageLimiter

def key (userId : UUID) (period usageType : String) : String :=
  "usage:" ++ userId.str ++ ":" ++ period ++ ":" ++ usageType

/-- The count of a user's period; a counter that is missing counts as none. -/
def count (redis : Counters) (userId : UUID) (startedAt : Option Datetime) (usageType : String)
    (now : Datetime) : ℤ :=
  (redis.get (key userId (billingPeriodKey startedAt now) usageType) now).getD 0

/-- Counts one more, and sets the counter to expire with the period. Returns the new count. -/
def incr (redis : Counters) (userId : UUID) (startedAt : Option Datetime) (usageType : String)
    (now : Datetime) : Option (ℤ × Counters) := do
  let key := key userId (billingPeriodKey startedAt now) usageType
  let value := (redis.get key now).getD 0 + 1
  let ttl ← periodTtl startedAt now
  return (value, Function.update redis key (some ⟨value, now.ticks + ttl * 1000000⟩))

end UsageLimiter

/-! ## How long counters last -/

/-- The day of the month on which the periods of a start begin. -/
def anchorDay (startedAt : Option Datetime) : ℕ+ :=
  match startedAt with
  | none => ⟨1, Nat.one_pos⟩
  | some startedAt => startedAt.date.dayOfMonth

/-- The month in which the period around an instant begins. -/
def periodIndex (startedAt : Option Datetime) (now : Datetime) : ℤ :=
  anchorIndex (anchorDay startedAt) now

/-- The first instant at which the key of a user's counters is another one. -/
def NextPeriod (startedAt : Option Datetime) (now n : PyDatetime) : Prop :=
  IsLeast {t | now < t ∧ billingPeriodKey startedAt t.1 ≠ billingPeriodKey startedAt now.1} n

/-- The counters of a period that ends at an instant live until then, and at most a second
longer. -/
structure LastsPeriod (startedAt : Option Datetime) (now n : PyDatetime) : Prop where
  ttl : ∃ ttl, periodTtl startedAt now.1 = some ttl ∧
    n.1.ticks ≤ now.1.ticks + ttl * 1000000 ∧ now.1.ticks + ttl * 1000000 ≤ n.1.ticks + 1000000
  /-- What is counted is there until the period is over. -/
  kept : ∀ (redis : Counters) (userId : UUID) (usageType : String), ∃ value after,
    UsageLimiter.incr redis userId startedAt usageType now.1 = some (value, after) ∧
      value = UsageLimiter.count redis userId startedAt usageType now.1 + 1 ∧
      ∀ t, now ≤ t → t < n → UsageLimiter.count after userId startedAt usageType t.1 = value

/-- The date the period begins on has the day of the start, or the following month is not longer
than the month of that date. -/
def KeepsDay (startedAt : Option Datetime) (now : Datetime) : Prop :=
  anchorDay startedAt ≤ lengthOf (periodIndex startedAt now) ∨
    lengthOf (periodIndex startedAt now + 1) ≤ lengthOf (periodIndex startedAt now)

instance (startedAt : Option Datetime) (now : Datetime) : Decidable (KeepsDay startedAt now) :=
  inferInstanceAs (Decidable (_ ∨ _))

variable {startedAt : Option Datetime} {now : Datetime}

/-- The key is the date of the anchor that opens the period. -/
theorem billingPeriodKey_eq (startedAt : Option Datetime) (now : Datetime) :
    billingPeriodKey startedAt now =
      strftime (anchorDate (anchorDay startedAt) (periodIndex startedAt now)) "-" "-" "" := by
  obtain ⟨subscription, hstart, hday⟩ : ∃ subscription,
      UsageLimiter.startedAt subscription = startedAt ∧
        billingDay subscription = anchorDay startedAt := by
    cases startedAt with
    | none => exact ⟨none, rfl, rfl⟩
    | some startedAt =>
      exact ⟨some ⟨true, .lite, none, true, startedAt, none⟩, rfl, rfl⟩
  rw [periodIndex, ← hday, ← hstart, billingPeriodKey_startedAt,
    currentBillingPeriodStart_eq_anchor]
  rfl

theorem billingPeriodKey_eq_iff {later : Datetime} :
    billingPeriodKey startedAt later = billingPeriodKey startedAt now ↔
      periodIndex startedAt later = periodIndex startedAt now := by
  rw [billingPeriodKey_eq, billingPeriodKey_eq]
  constructor
  · intro h
    refine (anchor_strictMono (anchorDay startedAt)).injective ?_
    rw [anchor, strftime_injective h, anchor]
  · intro h
    rw [h]

/-- Months of years that Python has. -/
theorem inRange_iff {index : ℤ} (day : ℕ+) :
    (anchorDate day index).InRange ↔ 12 ≤ index ∧ index < 120000 := by
  change 1 ≤ yearOf index ∧ yearOf index ≤ 9999 ↔ _
  unfold yearOf
  omega

theorem index_anchorDate (day : ℕ+) (index : ℤ) : (anchorDate day index).index = index := by
  change monthIndex (yearOf index) (monthOf index) = index
  unfold monthIndex yearOf monthOf
  omega

theorem index_of_inRange (t : PyDatetime) : 12 ≤ t.1.date.index ∧ t.1.date.index < 120000 := by
  obtain ⟨hpos, hle⟩ := t.2
  have hmonth := t.1.date.month_pos
  have hmonth' := t.1.date.month_le
  unfold Date.index monthIndex
  omega

/-- A period begins in the month of the instant or in the month before. -/
theorem periodIndex_mem (startedAt : Option Datetime) (now : Datetime) :
    periodIndex startedAt now ≤ now.date.index ∧
      now.date.index ≤ periodIndex startedAt now + 1 := by
  unfold periodIndex anchorIndex
  split_ifs <;> omega

/-- The key does not change before the next anchor. -/
theorem anchor_le_of_changed {later : Datetime} (hle : now ≤ later)
    (hchanged : billingPeriodKey startedAt later ≠ billingPeriodKey startedAt now) :
    anchor (anchorDay startedAt) (periodIndex startedAt now + 1) ≤ later := by
  by_contra hlt
  refine hchanged (billingPeriodKey_eq_iff.mpr ?_)
  exact InPeriod.unique (anchor_strictMono _) (inPeriod_anchorIndex _ later)
    ⟨(inPeriod_anchorIndex _ now).1.trans hle, not_le.mp hlt⟩

/-- It changes there. -/
theorem nextPeriod_anchor {now : PyDatetime}
    (h : (anchorDate (anchorDay startedAt) (periodIndex startedAt now.1 + 1)).InRange) :
    NextPeriod startedAt now
      ⟨anchor (anchorDay startedAt) (periodIndex startedAt now.1 + 1), h⟩ := by
  refine ⟨⟨(inPeriod_anchorIndex _ now.1).2, fun hsame => ?_⟩, fun t ht =>
    anchor_le_of_changed (le_of_lt ht.1) ht.2⟩
  have hmono := anchor_strictMono (anchorDay startedAt)
  have hself := InPeriod.unique hmono (inPeriod_anchorIndex _ _)
    ⟨le_refl (anchor (anchorDay startedAt) (periodIndex startedAt now.1 + 1)), hmono (by omega)⟩
  exact absurd (hself.symm.trans (billingPeriodKey_eq_iff.mp hsame)) (by omega)

theorem NextPeriod.eq_anchor {now n : PyDatetime} (h : NextPeriod startedAt now n) :
    n.1 = anchor (anchorDay startedAt) (periodIndex startedAt now.1 + 1) := by
  have hle := anchor_le_of_changed (le_of_lt h.1.1) h.1.2
  -- The anchor is not after an instant of Python's, so it is one.
  have hrange : (anchorDate (anchorDay startedAt) (periodIndex startedAt now.1 + 1)).InRange := by
    have hindex := Date.index_le_of_dayNumber_le (Datetime.date_mono hle)
    rw [anchor, Datetime.midnight_date, index_anchorDate] at hindex
    have hn := index_of_inRange n
    have hnow := index_of_inRange now
    have hperiod := periodIndex_mem startedAt now.1
    exact (inRange_iff _).mpr (by omega)
  rw [h.unique (nextPeriod_anchor hrange)]

/-- The next period begins at the next anchor. -/
theorem nextPeriod_iff {now n : PyDatetime} : NextPeriod startedAt now n ↔
    n.1 = anchor (anchorDay startedAt) (periodIndex startedAt now.1 + 1) := by
  constructor
  · exact NextPeriod.eq_anchor
  · intro h
    have hrange : (anchorDate (anchorDay startedAt) (periodIndex startedAt now.1 + 1)).InRange := by
      have hn := n.2
      rwa [h, anchor, Datetime.midnight_date] at hn
    have heq : n = ⟨_, hrange⟩ := Subtype.ext h
    rw [heq]
    exact nextPeriod_anchor hrange

/-- The end of the period as it is computed: the day of the date in the key, a month later. -/
def computedEnd (startedAt : Option Datetime) (now : Datetime) : Datetime :=
  anchor (anchorDate (anchorDay startedAt) (periodIndex startedAt now)).dayOfMonth
    (periodIndex startedAt now + 1)

/-- An anchor is built from its year and its month. -/
theorem datetime_anchorDate {day : ℕ+} {index : ℤ} (h : (anchorDate day index).InRange) :
    datetime (yearOf index) (monthOf index)
        (min (day : ℕ) (monthLength (yearOf index) (monthOf index) : ℕ) : ℤ) =
      some ⟨anchor day index, h⟩ := by
  have hmonth := monthOf_pos index
  have hmonth' := monthOf_le index
  have hlength := monthLength_ge (yearOf index) (monthOf index)
  have hday := day.pos
  have hyear : 1 ≤ yearOf index ∧ yearOf index ≤ 9999 := h
  rw [datetime, dif_pos (by rw [Int.toNat_natCast]; omega)]
  simp only [Option.some.injEq, Subtype.mk.injEq, anchor, anchorDate, clampedDate,
    Int.toNat_natCast]
  congr 2
  omega

theorem periodTtl_eq (hpos : 12 ≤ now.date.index)
    (hnext : periodIndex startedAt now + 1 < 120000) :
    periodTtl startedAt now =
      some (max (secondsBetween now (computedEnd startedAt now) + 1) 1) := by
  have hperiod := periodIndex_mem startedAt now
  set i := periodIndex startedAt now with hi
  set d := anchorDate (anchorDay startedAt) i with hd
  have hyear : d.year = yearOf i := rfl
  have hmonth : d.month = monthOf i := rfl
  have hnumbers := int_strftime (d := d) (by rw [hyear]; unfold yearOf; omega)
    (by rw [hyear]; unfold yearOf; omega)
  rw [periodTtl, billingPeriodKey_eq, ← hi, ← hd, hnumbers]
  have hnextMonth : (d.month : ℤ) % 12 + 1 = monthOf (i + 1) := by
    rw [hmonth]
    unfold monthOf
    omega
  have hnextYear : d.year + (if (d.month : ℤ) = 12 then 1 else 0) = yearOf (i + 1) := by
    rw [hyear, hmonth]
    unfold monthOf yearOf
    split_ifs <;> omega
  have hrange : (anchorDate d.dayOfMonth (i + 1)).InRange := (inRange_iff _).mpr (by omega)
  have hend := datetime_anchorDate hrange
  rw [show ((d.dayOfMonth : ℕ) : ℤ) = d.day from rfl] at hend
  simp only [Option.bind_eq_bind, Option.bind_some, hnextMonth, hnextYear, Int.toNat_natCast, hend]
  rfl

/-! ### Seconds -/

theorem secondsBetween_of_le {earlier later : Datetime} (h : earlier ≤ later) :
    secondsBetween earlier later * 1000000 ≤ later.ticks - earlier.ticks ∧
      later.ticks - earlier.ticks < (secondsBetween earlier later + 1) * 1000000 ∧
        0 ≤ secondsBetween earlier later := by
  have hticks : earlier.ticks ≤ later.ticks := h
  rw [secondsBetween, Int.tdiv_eq_ediv_of_nonneg (by omega)]
  omega

/-- A difference that is negative is truncated towards zero. -/
theorem secondsBetween_of_lt {earlier later : Datetime} (h : later < earlier) :
    secondsBetween earlier later ≤ 0 := by
  have hticks : later.ticks < earlier.ticks := h
  have hneg := Int.neg_tdiv (a := earlier.ticks - later.ticks) (b := 1000000)
  rw [neg_sub] at hneg
  rw [secondsBetween, hneg, Int.tdiv_eq_ediv_of_nonneg (by omega)]
  omega

theorem ticks_anchor (day : ℕ+) (index : ℤ) :
    (anchor day index).ticks =
      (monthStart index + min (day : ℕ) (lengthOf index)) * ticksPerDay := by
  rw [anchor, Datetime.ticks_midnight, dayNumber_anchorDate]

theorem ticks_computedEnd (startedAt : Option Datetime) (now : Datetime) :
    (computedEnd startedAt now).ticks = (monthStart (periodIndex startedAt now + 1) +
      min (min (anchorDay startedAt : ℕ) (lengthOf (periodIndex startedAt now)))
        (lengthOf (periodIndex startedAt now + 1))) * ticksPerDay := by
  rw [computedEnd, ticks_anchor]
  rfl

/-- Where the date in the key keeps the day, the end is computed as it is. -/
theorem computedEnd_eq (h : KeepsDay startedAt now) :
    (computedEnd startedAt now).ticks =
      (anchor (anchorDay startedAt) (periodIndex startedAt now + 1)).ticks := by
  rw [ticks_computedEnd, ticks_anchor]
  congr 2
  unfold KeepsDay at h
  omega

/-- Elsewhere it is computed a day or more too early. -/
theorem computedEnd_early (h : ¬ KeepsDay startedAt now) :
    (computedEnd startedAt now).ticks + ticksPerDay ≤
      (anchor (anchorDay startedAt) (periodIndex startedAt now + 1)).ticks := by
  rw [ticks_computedEnd, ticks_anchor]
  unfold KeepsDay at h
  simp only [ticksPerDay]
  omega

/-! ### Counters and periods -/

variable {now n : PyDatetime}

/-- What is counted lasts as long as its counter. -/
theorem LastsPeriod.of_ttl (hn : NextPeriod startedAt now n) {ttl : ℤ}
    (httl : periodTtl startedAt now.1 = some ttl)
    (hle : n.1.ticks ≤ now.1.ticks + ttl * 1000000)
    (hlate : now.1.ticks + ttl * 1000000 ≤ n.1.ticks + 1000000) :
    LastsPeriod startedAt now n where
  ttl := ⟨ttl, httl, hle, hlate⟩
  kept redis userId usageType := by
    refine ⟨_, _, by simp only [UsageLimiter.incr, httl]; rfl, rfl, fun t hnow ht => ?_⟩
    have hkey : billingPeriodKey startedAt t.1 = billingPeriodKey startedAt now.1 := by
      rcases eq_or_lt_of_le hnow with rfl | hlater
      · rfl
      · by_contra hchanged
        exact absurd (hn.2 ⟨hlater, hchanged⟩) (not_le.mpr ht)
    have halive : t.1.ticks < now.1.ticks + ttl * 1000000 :=
      lt_of_lt_of_le (show t.1.ticks < n.1.ticks from ht) hle
    simp [UsageLimiter.count, Counters.get, hkey, Option.filter, halive]

/-- Counters last exactly as long as their period, if and only if the date the period begins on
has the day of the start or the following month is not longer, or no more than the last second of
the period is left. -/
theorem lastsPeriod_iff (hn : NextPeriod startedAt now n) :
    LastsPeriod startedAt now n ↔
      KeepsDay startedAt now.1 ∨ n.1.ticks ≤ now.1.ticks + 1000000 := by
  have hlater : now.1.ticks < n.1.ticks := hn.1.1
  have hend := hn.eq_anchor
  have hindex := index_of_inRange n
  rw [hend, anchor, Datetime.midnight_date, index_anchorDate] at hindex
  have httl := periodTtl_eq (index_of_inRange now).1 hindex.2
  have hticks := congrArg Datetime.ticks hend
  have hday : (0 : ℤ) < ticksPerDay - 1000000 := by decide
  have hsooner := @secondsBetween_of_lt now.1 (computedEnd startedAt now.1)
  have hnot := @secondsBetween_of_le now.1 (computedEnd startedAt now.1)
  constructor
  · intro h
    obtain ⟨ttl, heq, hle, -⟩ := h.ttl
    obtain rfl := Option.some.inj (httl.symm.trans heq)
    by_contra hboth
    obtain ⟨hkeeps, hlast⟩ := not_or.mp hboth
    have hearly := computedEnd_early hkeeps
    rcases lt_or_ge (computedEnd startedAt now.1) now.1 with hlt | hge
    · have hseconds := hsooner hlt
      omega
    · have hseconds := hnot hge
      omega
  · intro h
    by_cases hkeeps : KeepsDay startedAt now.1
    · have hsame := computedEnd_eq hkeeps
      have hseconds := hnot (Datetime.le_iff_ticks.mpr (by omega))
      exact .of_ttl hn httl (by omega) (by omega)
    · -- The end is long over, and a counter lives for a second at least.
      have hearly := computedEnd_early hkeeps
      have hlast := h.resolve_left hkeeps
      have hseconds := hsooner (show (computedEnd startedAt now.1).ticks < now.1.ticks by omega)
      exact .of_ttl hn httl (by omega) (by omega)

/-- A subscription that starts on the last of January. -/
def startedInJanuary : Option Datetime := some (.utc 2026 1 31 9)

/-- Its second period begins on the last of February. -/
theorem nextPeriod_february :
    NextPeriod startedInJanuary ⟨.utc 2026 2 1 9, by decide⟩ ⟨.utc 2026 2 28 0, by decide⟩ :=
  nextPeriod_iff.mpr (by decide +kernel)

/-- And its third on the last of March. -/
theorem nextPeriod_march :
    NextPeriod startedInJanuary ⟨.utc 2026 3 1 9, by decide⟩ ⟨.utc 2026 3 31 0, by decide⟩ :=
  nextPeriod_iff.mpr (by decide +kernel)

theorem lastsPeriod_iff_february :
    NextPeriod startedInJanuary ⟨.utc 2026 2 1 9, by decide⟩ ⟨.utc 2026 2 28 0, by decide⟩ ∧
      LastsPeriod startedInJanuary ⟨.utc 2026 2 1 9, by decide⟩ ⟨.utc 2026 2 28 0, by decide⟩ :=
  ⟨nextPeriod_february, (lastsPeriod_iff nextPeriod_february).mpr (.inl (by decide +kernel))⟩

/-- On the first of March, the counters of the period until the last of March are set to expire on
the 28th. -/
theorem not_lastsPeriod : ¬ ∀ (startedAt : Option Datetime) (now n : PyDatetime),
    NextPeriod startedAt now n → LastsPeriod startedAt now n := by
  intro h
  obtain ⟨ttl, httl, hle, -⟩ := (h _ _ _ nextPeriod_march).ttl
  have heq : periodTtl startedInJanuary (.utc 2026 3 1 9) = some 2300401 := by decide +kernel
  obtain rfl := Option.some.inj (heq.symm.trans httl)
  have hearly : ¬ (Datetime.utc 2026 3 31 0).ticks ≤
      (Datetime.utc 2026 3 1 9).ticks + 2300401 * 1000000 := by decide +kernel
  exact hearly hle

end Logit.Subscriptions
