import Logit.Tokens.Service

/-!
# Billing periods

A user without an active subscription is billed by calendar months, a subscriber by
the monthly anchors of the day the subscription started on. Either way the start
that the service computes is the latest anchor of one fixed day.

## Main definitions

* `billingDay` — the day of the month a billing period starts on

## Main results

* `currentBillingPeriodStart_eq_anchor` — the computed start is the start of the
  period around the instant
-/

namespace Logit.Tokens

open Calendar Schedule Subscriptions

/-- The day of the month on which a billing period starts. -/
def billingDay (subscription : Option Subscription) : ℕ+ :=
  match subscription.filter (·.isActive) with
  | none => 1
  | some sub => sub.startedAt.date.dayOfMonth

theorem billingDay_active {sub : Subscription} (h : sub.isActive = true) :
    billingDay (some sub) = sub.startedAt.date.dayOfMonth := by
  simp [billingDay, Option.filter, h]

theorem midnight_firstOf (now : Datetime) :
    .midnight (.firstOf now.date.year now.date.month now.date.month_pos now.date.month_le) =
      anchor 1 now.date.index := by
  have hlength := monthLength_ge now.date.year now.date.month
  rw [Date.index, anchor_monthIndex now.date.month_pos now.date.month_le]
  congr 1
  simp only [Date.firstOf, clampedDate, Date.mk.injEq, true_and, PNat.one_coe]
  omega

/-- The start of a billing period is the anchor that opens the period around the instant. -/
theorem currentBillingPeriodStart_eq_anchor (subscription : Option Subscription)
    (now : Datetime) :
    currentBillingPeriodStart subscription now =
      anchor (billingDay subscription) (anchorIndex (billingDay subscription) now) := by
  unfold currentBillingPeriodStart billingDay
  cases subscription.filter (·.isActive) with
  | none =>
    simp only
    rw [midnight_firstOf, anchorIndex_one]
  | some sub =>
    have hindex : monthIndex now.date.year now.date.month = now.date.index := rfl
    simp only [← anchor_monthIndex, hindex]
    split_ifs with hlt hmonth
    · rw [anchorIndex_of_lt hlt]
      congr 1
      simp only [Date.index, monthIndex]
      omega
    · -- January: the month before is in the year before.
      have hone : now.date.month = 1 := le_antisymm (by omega) now.date.month_pos
      rw [anchorIndex_of_lt hlt]
      congr 1
      simp only [Date.index, monthIndex, hone]
      omega
    · rw [anchorIndex_of_le (not_lt.mp hlt)]

/-- The computed start is at or before the instant, and the next anchor is after it. -/
theorem inPeriod_currentBillingPeriodStart (subscription : Option Subscription) (now : Datetime) :
    currentBillingPeriodStart subscription now ≤ now ∧
      now < anchor (billingDay subscription) (anchorIndex (billingDay subscription) now + 1) := by
  rw [currentBillingPeriodStart_eq_anchor]
  exact inPeriod_anchorIndex (billingDay subscription) now

end Logit.Tokens
