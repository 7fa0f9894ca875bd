import Logit.Calendar.DateText
import Logit.Tokens.BillingPeriod

/-!
# Usage by billing period

Chats and drafts are counted by billing period: the key of a counter has the date the period
starts on. The start is computed here by the day a subscription started on, and in the token
service by the subscription itself. Both computations come to the same calendar: the start is
the latest midnight so far of one day of the month, or of the last day of a shorter month. (Python
has no dates before the year 1; the clock is never in its January.)

## Main definitions

* `UsageLimiter.startedAt` — the start of an active subscription
* `billingPeriodKey` — the date the billing period around an instant starts on, as text
* `OneCalendar` — both calendars are one, and start periods where they should

## Main results

* `billingPeriodKey_startedAt` — the key is the date of the start of the period
* `oneCalendar` — every subscription is billed by one calendar
-/

namespace Logit.Subscriptions

open Calendar Schedule Tokens

/-- The start of a subscription that is active. -/
def UsageLimiter.startedAt (subscription : Option Subscription) : Option Datetime :=
  (subscription.filter (·.isActive)).map (·.startedAt)

/-- The date on which the billing period around an instant starts (`YYYY-MM-DD`). -/
def billingPeriodKey (startedAt : Option Datetime) (now : Datetime) : String :=
  match startedAt with
  -- Without a subscription periods are calendar months.
  | none => toString now.date.year ++ "-" ++ String.ofList (decimal 2 now.date.month) ++ "-01"
  | some startedAt =>
    let day := startedAt.date.dayOfMonth
    let periodStart := Datetime.midnight
      (clampedDate now.date.year now.date.month now.month_pos now.month_le day)
    let periodStart :=
      if now < periodStart then
        -- This month's day is still to come: the period began in the month before.
        if hmonth : 1 < now.date.month then
          Datetime.midnight (clampedDate now.date.year (now.date.month - 1)
            (Datetime.lastMonth_pos hmonth) now.lastMonth_le day)
        else
          .midnight (clampedDate (now.date.year - 1) 12 Datetime.december_pos Datetime.december_le
            day)
      else periodStart
    strftime periodStart.date "-" "-" ""

/-! ## One calendar -/

/-- The instants at which billing periods start: in every month the midnight of one day, or of
the last day of a shorter month. -/
def billingStarts (subscription : Option Subscription) : Set Datetime :=
  {t | ∃ year month hpos hle,
    t = .midnight (clampedDate year month hpos hle (billingDay subscription))}

/-- The calendars of both services for a subscription. -/
structure OneCalendar (subscription : Option Subscription) : Prop where
  /-- A period starts at the latest of the instants so far. -/
  greatest : ∀ now, IsGreatest {t ∈ billingStarts subscription | t ≤ now}
    (currentBillingPeriodStart subscription now)
  /-- The key is the date of the start. -/
  key : ∀ now, billingPeriodKey (UsageLimiter.startedAt subscription) now =
    strftime (currentBillingPeriodStart subscription now).date "-" "-" ""
  mono : Monotone (currentBillingPeriodStart subscription)
  /-- Keys are in order, as texts as long as years have four digits. -/
  ordered : ∀ now later, now ≤ later →
    FourDigits (currentBillingPeriodStart subscription now).date.year →
    FourDigits (currentBillingPeriodStart subscription later).date.year →
      billingPeriodKey (UsageLimiter.startedAt subscription) now ≤
        billingPeriodKey (UsageLimiter.startedAt subscription) later
  /-- The key changes exactly when the start does. -/
  together : ∀ now later, billingPeriodKey (UsageLimiter.startedAt subscription) now =
      billingPeriodKey (UsageLimiter.startedAt subscription) later ↔
    currentBillingPeriodStart subscription now = currentBillingPeriodStart subscription later

theorem billingStarts_eq (subscription : Option Subscription) :
    billingStarts subscription = Set.range (anchor (billingDay subscription)) := by
  ext t
  constructor
  · rintro ⟨year, month, hpos, hle, rfl⟩
    exact ⟨monthIndex year month, anchor_monthIndex hpos hle _⟩
  · rintro ⟨index, rfl⟩
    exact ⟨_, _, _, _, rfl⟩

/-- No anchor is later than the one that opens the period around an instant, and not than the
instant itself. -/
theorem isGreatest_anchor (day : ℕ+) (now : Datetime) :
    IsGreatest {t ∈ Set.range (anchor day) | t ≤ now} (anchor day (anchorIndex day now)) := by
  obtain ⟨hle, hlt⟩ := inPeriod_anchorIndex day now
  refine ⟨⟨⟨_, rfl⟩, hle⟩, ?_⟩
  rintro _ ⟨⟨index, rfl⟩, hindex⟩
  have hbefore : index < anchorIndex day now + 1 :=
    (anchor_strictMono day).lt_iff_lt.mp (hindex.trans_lt hlt)
  exact (anchor_strictMono day).monotone (Int.lt_add_one_iff.mp hbefore)

theorem isGreatest_currentBillingPeriodStart (subscription : Option Subscription) (now : Datetime) :
    IsGreatest {t ∈ billingStarts subscription | t ≤ now}
      (currentBillingPeriodStart subscription now) := by
  rw [billingStarts_eq, currentBillingPeriodStart_eq_anchor]
  exact isGreatest_anchor _ now

/-- A later instant has no earlier start: the starts up to the one are starts up to the other. -/
theorem currentBillingPeriodStart_mono (subscription : Option Subscription) :
    Monotone (currentBillingPeriodStart subscription) := by
  intro now later hle
  refine (isGreatest_currentBillingPeriodStart subscription now).mono
    (isGreatest_currentBillingPeriodStart subscription later) ?_
  exact fun t ht => ⟨ht.1, ht.2.trans hle⟩

/-- The key is the date of the start that the token service computes. -/
theorem billingPeriodKey_startedAt (subscription : Option Subscription) (now : Datetime) :
    billingPeriodKey (UsageLimiter.startedAt subscription) now =
      strftime (currentBillingPeriodStart subscription now).date "-" "-" "" := by
  unfold UsageLimiter.startedAt currentBillingPeriodStart
  cases subscription.filter (·.isActive) with
  | none =>
    have hfirst : decimal 2 1 = ['0', '1'] := by decide
    simp [billingPeriodKey, strftime, Date.firstOf, hfirst, ← String.toList_inj]
  | some sub => rfl

/-- A subscription that started on the last of January, in a leap year. -/
example : billingPeriodKey (some (.utc 2026 1 31 9)) (.utc 2028 3 1 9) = "2028-02-29" := by
  decide +kernel

/-- A start is the midnight of its date. -/
theorem midnight_currentBillingPeriodStart (subscription : Option Subscription) (now : Datetime) :
    .midnight (currentBillingPeriodStart subscription now).date =
      currentBillingPeriodStart subscription now := by
  rw [currentBillingPeriodStart_eq_anchor]
  rfl

/-- A subscription is billed by one calendar in both services, and its periods start where they
should. -/
theorem oneCalendar (subscription : Option Subscription) : OneCalendar subscription where
  greatest := isGreatest_currentBillingPeriodStart subscription
  key := billingPeriodKey_startedAt subscription
  mono := currentBillingPeriodStart_mono subscription
  ordered now later hle hnow hlater := by
    rw [billingPeriodKey_startedAt, billingPeriodKey_startedAt]
    rcases (currentBillingPeriodStart_mono subscription hle).lt_or_eq with hlt | heq
    · rw [← midnight_currentBillingPeriodStart, ← midnight_currentBillingPeriodStart _ later,
        Datetime.lt_midnight_iff] at hlt
      exact (strftime_lt hnow hlater hlt).le
    · rw [heq]
  together now later := by
    rw [billingPeriodKey_startedAt, billingPeriodKey_startedAt]
    constructor
    · intro h
      rw [← midnight_currentBillingPeriodStart, strftime_injective h,
        midnight_currentBillingPeriodStart]
    · intro h
      rw [h]

end Logit.Subscriptions
