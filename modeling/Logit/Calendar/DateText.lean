import Logit.Calendar.Iso
import Logit.Python.Numerals
import Mathlib

/-!
# Dates and their texts

The text of a date tells the date, in any year, and Python reads the numbers in it. As long as
years have four digits, texts follow each other as their dates do.

## Main results

* `int_toString` — a number is read from its text
* `int_strftime` — the year, the month and the day are read from the text of a date
* `strftime_injective` — different dates have different texts
* `strftime_lt` — an earlier date has an earlier text
-/

namespace Logit.Calendar

open Python

/-! ## Decimals -/

@[simp] theorem length_decimal (width n : ℕ) : (decimal width n).length = width := by
  induction width generalizing n with
  | zero => rfl
  | succ width ih => simp [decimal, ih]

/-- A number that fits its width is told by its digits. -/
theorem decimal_injOn {width m n : ℕ} (hm : m < 10 ^ width) (hn : n < 10 ^ width)
    (h : decimal width m = decimal width n) : m = n := by
  have hread := takeDecimal_of_lt hm []
  rw [h, takeDecimal_of_lt hn []] at hread
  simpa using hread.symm

/-- A list goes before another if its front does. -/
theorem append_lt_append {a b : List Char} (hlength : a.length = b.length) (h : a < b)
    (c d : List Char) : a ++ c < b ++ d := by
  induction a generalizing b with
  | nil =>
    obtain rfl := List.length_eq_zero_iff.mp hlength.symm
    exact absurd h (lt_irrefl _)
  | cons x xs ih =>
    cases b with
    | nil => cases hlength
    | cons y ys =>
      rw [List.cons_append, List.cons_append, List.cons_lt_cons_iff]
      rcases List.cons_lt_cons_iff.mp h with hlt | ⟨rfl, htail⟩
      · exact .inl hlt
      · exact .inr ⟨rfl, ih (by simpa using hlength) htail⟩

theorem digitChar_lt : ∀ n < 10, ∀ m < n, Nat.digitChar m < Nat.digitChar n := by decide

/-- Digits follow each other as numbers do. -/
theorem decimal_lt {width m n : ℕ} (h : m < n) (hn : n < 10 ^ width) :
    decimal width m < decimal width n := by
  induction width generalizing m n with
  | zero => omega
  | succ width ih =>
    rw [decimal, decimal]
    have hfront : n / 10 < 10 ^ width := by omega
    rcases (Nat.div_le_div_right (c := 10) h.le).lt_or_eq with hlt | heq
    · exact append_lt_append (by simp) (ih hlt hfront) _ _
    · rw [heq]
      refine List.append_left_lt ?_
      have hlast : m % 10 < n % 10 := by omega
      have hdigit := digitChar_lt (n % 10) (Nat.mod_lt n (by decide)) (m % 10) hlast
      exact List.cons_lt_cons_iff.mpr (.inl hdigit)

/-! ## Reading numbers -/

/-- The digits of a number: a decimal is their text, and they stand for it. -/
theorem decimal_eq_digitText (width n : ℕ) : ∃ ns, decimal width n = digitText ns ∧
    ns.length = width ∧ (∀ d ∈ ns, d < 10) ∧
      ns.foldl (fun acc value => acc * 10 + value) 0 = n % 10 ^ width := by
  induction width generalizing n with
  | zero => exact ⟨[], rfl, rfl, by simp, by simp [Nat.mod_one]⟩
  | succ width ih =>
    obtain ⟨ns, htext, hlength, hlt, hvalue⟩ := ih (n / 10)
    refine ⟨ns ++ [n % 10], ?_, by simp [hlength], ?_, ?_⟩
    · rw [decimal, htext, digitText, digitText, List.map_append, List.map_singleton]
    · intro d hd
      rcases List.mem_append.mp hd with hd | hd
      · exact hlt d hd
      · rw [List.mem_singleton.mp hd]
        exact Nat.mod_lt n (by decide)
    · rw [List.foldl_append, hvalue, List.foldl_cons, List.foldl_nil, Nat.pow_succ', Nat.mod_mul]
      ring

/-- A number that fits its width is read from its digits. -/
theorem int_decimal {width n : ℕ} (hpos : 0 < width) (hfits : width ≤ maxStrDigits)
    (h : n < 10 ^ width) : int 10 (String.ofList (decimal width n)) = some (n : ℤ) := by
  obtain ⟨ns, htext, hlength, hlt, hvalue⟩ := decimal_eq_digitText width n
  have hne : ns ≠ [] := by
    rintro rfl
    exact hpos.ne hlength
  rw [htext, int_digitText (by decide) hlt hne fun _ => hlength.trans_le hfits, hvalue,
    Nat.mod_eq_of_lt h]

/-- The text of a number has as many digits as the number needs. -/
theorem toList_toString_nat (n : ℕ) : ∃ width, 0 < width ∧ n < 10 ^ width ∧
    (∀ k, 0 < k → n < 10 ^ k → width ≤ k) ∧ (toString n).toList = decimal width n := by
  change ∃ width, _ ∧ _ ∧ _ ∧ (Nat.repr n).toList = _
  rw [Nat.repr, String.toList_ofList]
  induction n using Nat.strong_induction_on with
  | _ n ih =>
    rcases lt_or_ge n 10 with hlt | hge
    · refine ⟨1, one_pos, by simpa using hlt, fun k hk _ => hk, ?_⟩
      rw [Nat.toDigits_of_lt_base hlt]
      simp [decimal, Nat.mod_eq_of_lt hlt]
    · -- The last digit is split off.
      obtain ⟨width, hpos, hfits, hleast, htext⟩ := ih (n / 10) (by omega)
      refine ⟨width + 1, width.succ_pos, by rw [pow_succ]; omega, fun k hk hn => ?_, ?_⟩
      · obtain ⟨k, rfl⟩ : ∃ j, k = j + 1 := ⟨k - 1, by omega⟩
        have hk' : 0 < k := by
          rcases k.eq_zero_or_pos with rfl | hk'
          · omega
          · exact hk'
        exact Nat.succ_le_succ (hleast k hk' (by rw [pow_succ] at hn; omega))
      · rw [Nat.toDigits_of_base_le (by decide) hge, htext, decimal]

/-- A number is read from its text. -/
theorem int_toString {n k : ℕ} (hpos : 0 < k) (hfits : k ≤ maxStrDigits) (h : n < 10 ^ k) :
    int 10 (toString n) = some (n : ℤ) := by
  obtain ⟨width, hwidth, hn, hleast, htext⟩ := toList_toString_nat n
  rw [← String.ofList_toList (s := toString n), htext]
  exact int_decimal hwidth ((hleast k hpos h).trans hfits) hn

theorem not_mem_decimal {c : Char} (hc : digitValue 16 c = none) (width n : ℕ) :
    c ∉ decimal width n := by
  obtain ⟨ns, htext, -, hlt, -⟩ := decimal_eq_digitText width n
  rw [htext]
  exact not_mem_digitText (fun d hd => (hlt d hd).trans (by decide)) hc

/-! ## Dates -/

theorem toList_strftime (d : Date) :
    (strftime d "-" "-" "").toList =
      (toString d.year).toList ++ ('-' :: (decimal 2 d.month ++ '-' :: decimal 2 d.day)) := by
  simp [strftime]

theorem Date.month_lt (d : Date) : d.month < 10 ^ 2 := d.month_le.trans_lt (by decide)

theorem Date.day_lt (d : Date) : d.day < 10 ^ 2 :=
  (d.day_le.trans (monthLength_le d.year d.month)).trans_lt (by decide)

/-- The year, the month and the day are read from the text of a date. -/
theorem int_strftime {d : Date} (hpos : 0 ≤ d.year) (hle : d.year ≤ 9999) :
    (split '-' (strftime d "-" "-" "")).mapM (int 10) =
      some [d.year, (d.month : ℤ), (d.day : ℤ)] := by
  obtain ⟨year, hyear⟩ := Int.eq_ofNat_of_zero_le hpos
  have htext : (toString d.year).toList = (toString year).toList := by
    rw [hyear]
    rfl
  have hread : int 10 (String.ofList (toString year).toList) = some (year : ℤ) := by
    rw [String.ofList_toList]
    exact int_toString (k := 4) (by decide) (by decide) (by omega)
  have hmonth : int 10 (String.ofList (decimal 2 d.month)) = some (d.month : ℤ) :=
    int_decimal (by decide) (by decide) d.month_lt
  have hday : int 10 (String.ofList (decimal 2 d.day)) = some (d.day : ℤ) :=
    int_decimal (by decide) (by decide) d.day_lt
  have hminus : '-' ∉ (toString year).toList := by
    obtain ⟨width, -, -, -, hdigits⟩ := toList_toString_nat year
    rw [hdigits]
    exact not_mem_decimal (by decide) width year
  rw [split, toList_strftime, htext, List.splitOn_append_cons_self_of_not_mem hminus,
    List.splitOn_append_cons_self_of_not_mem (not_mem_decimal (by decide) 2 d.month),
    List.splitOn_eq_singleton (not_mem_decimal (by decide) 2 d.day), hyear]
  simp only [List.map_cons, List.map_nil, List.mapM_cons, List.mapM_nil, hread, hmonth, hday]
  rfl

/-- Different dates have different texts. -/
theorem strftime_injective : Function.Injective fun d : Date => strftime d "-" "-" "" := by
  intro d e h
  have htext := congrArg String.toList h
  simp only [toList_strftime] at htext
  obtain ⟨hyear, hrest⟩ := List.append_inj' htext (by simp)
  obtain ⟨hmonth, hday⟩ := List.append_inj (List.cons.inj hrest).2 (by simp)
  have hyear : d.year = e.year := Int.repr_injective (String.toList_inj.mp hyear)
  have hmonth := decimal_injOn d.month_lt e.month_lt hmonth
  have hday := decimal_injOn d.day_lt e.day_lt (List.cons.inj hday).2
  cases d
  cases e
  simp_all

/-- A year of four digits. -/
def FourDigits (year : ℤ) : Prop := 1000 ≤ year ∧ year ≤ 9999

theorem toList_toString_year {year : ℤ} (h : FourDigits year) :
    (toString year).toList = decimal 4 year.toNat := by
  obtain ⟨hge, hle⟩ := h
  obtain ⟨n, rfl⟩ := Int.eq_ofNat_of_zero_le (by omega : 0 ≤ year)
  obtain ⟨width, -, hn, hleast, htext⟩ := toList_toString_nat n
  have hwidth : width = 4 := by
    refine le_antisymm (hleast 4 (by decide) (by omega)) ?_
    by_contra hlt
    have hshort : 10 ^ width ≤ 10 ^ 3 := Nat.pow_le_pow_right (by decide) (by omega)
    omega
  exact hwidth ▸ htext

/-- An earlier date has an earlier text. -/
theorem strftime_lt {d e : Date} (hd : FourDigits d.year) (he : FourDigits e.year) (h : d < e) :
    strftime d "-" "-" "" < strftime e "-" "-" "" := by
  have hindex : d.index ≤ e.index := Date.index_le_of_dayNumber_le (le_of_lt h)
  have hday : d.index = e.index → d.day < e.day := by
    intro hsame
    have hnumber : d.dayNumber < e.dayNumber := h
    rw [Date.dayNumber_eq, Date.dayNumber_eq, hsame] at hnumber
    omega
  have hmonths := d.month_pos
  have hmonths' := e.month_le
  simp only [Date.index, monthIndex] at hindex hday
  rw [String.lt_iff_toList_lt, toList_strftime, toList_strftime, toList_toString_year hd,
    toList_toString_year he]
  obtain ⟨hge, hle⟩ := hd
  obtain ⟨hge', hle'⟩ := he
  rcases lt_or_eq_of_le (by omega : d.year ≤ e.year) with hyear | hyear
  · have hlt : d.year.toNat < e.year.toNat := by omega
    have hfour : e.year.toNat < 10 ^ 4 := by omega
    exact append_lt_append (by simp) (decimal_lt hlt hfour) _ _
  · rw [hyear]
    refine List.append_left_lt (List.cons_lt_cons_iff.mpr (.inr ⟨rfl, ?_⟩))
    rcases lt_or_eq_of_le (by omega : d.month ≤ e.month) with hmonth | hmonth
    · exact append_lt_append (by simp) (decimal_lt hmonth e.month_lt) _ _
    · rw [hmonth]
      refine List.append_left_lt (List.cons_lt_cons_iff.mpr (.inr ⟨rfl, ?_⟩))
      exact decimal_lt (hday (by omega)) e.day_lt

end Logit.Calendar
