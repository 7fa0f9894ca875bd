import Logit.Python.Text
import Mathlib.Order.Nat

/-!
# Texts of numbers

A text of digits is read as the number the digits stand for.

## Main definitions

* `digitText` — the characters of digits

## Main results

* `int_digitText` — `int` reads the number of a text of digits
-/

namespace Logit.Python

/-- The characters of digits, which go up to 15. -/
def digitText (ns : List ℕ) : List Char := ns.map Nat.digitChar

theorem digitValue_digitChar :
    ∀ base ≤ 16, ∀ d < base, digitValue base (Nat.digitChar d) = some d := by
  decide +kernel

theorem isIntSpace_digitChar : ∀ d < 16, isIntSpace (Nat.digitChar d) = false := by decide +kernel

/-- A character without a value is no digit. -/
theorem digitChar_ne {c : Char} (hc : digitValue 16 c = none) {d : ℕ} (hd : d < 16) :
    Nat.digitChar d ≠ c := by
  rintro rfl
  rw [digitValue_digitChar 16 le_rfl d hd] at hc
  cases hc

variable {base : ℕ} {ns : List ℕ}

/-- A character of a text of digits is one of the digits. -/
theorem forall_mem_digitText {p : Char → Prop} (hlt : ∀ d ∈ ns, d < 16)
    (h : ∀ d < 16, p (Nat.digitChar d)) : ∀ c ∈ digitText ns, p c := by
  intro c hc
  obtain ⟨d, hd, rfl⟩ := List.mem_map.mp hc
  exact h d (hlt d hd)

theorem not_mem_digitText {c : Char} (hlt : ∀ d ∈ ns, d < 16) (h : digitValue 16 c = none) :
    c ∉ digitText ns := fun hc =>
  forall_mem_digitText (p := (· ≠ c)) hlt (fun _ hd => digitChar_ne h hd) c hc rfl

theorem digits_digitText (hbase : base ≤ 16) (hlt : ∀ d ∈ ns, d < base) (hne : ns ≠ []) :
    digits base (digitText ns) = some ns := by
  induction ns with
  | nil => exact absurd rfl hne
  | cons n ns ih =>
    have hn := digitValue_digitChar base hbase n (hlt n List.mem_cons_self)
    cases ns with
    | nil => simp [digitText, digits, hn]
    | cons m ns =>
      have hm : Nat.digitChar m ≠ '_' :=
        digitChar_ne (by decide) ((hlt m (by simp)).trans_le hbase)
      have hrest := ih (fun d hd => hlt d (List.mem_cons_of_mem n hd)) (List.cons_ne_nil m ns)
      simp only [digitText, List.map_cons] at hrest ⊢
      rw [digits]
      · rw [hn, hrest]
        rfl
      · exact List.cons_ne_nil _ _
      · exact fun cs heq => hm (List.cons.inj heq).1

theorem trimBoth_of_forall {p : Char → Bool} {cs : List Char} (h : ∀ c ∈ cs, p c = false) :
    trimBoth p cs = cs := by
  have hkeep : ∀ cs : List Char, (∀ c ∈ cs, p c = false) → cs.dropWhile p = cs := by
    intro cs h
    cases cs with
    | nil => rfl
    | cons c cs => rw [List.dropWhile_cons, if_neg (by simp [h c List.mem_cons_self])]
  rw [trimBoth, hkeep cs h, hkeep cs.reverse fun c hc => h c (List.mem_reverse.mp hc),
    List.reverse_reverse]

theorem dropBasePrefix_of_not_mem {cs : List Char} (hx : 'x' ∉ cs) (hX : 'X' ∉ cs) :
    dropBasePrefix base cs = cs := by
  unfold dropBasePrefix
  split
  · next x cs =>
    rw [if_neg]
    rintro ⟨-, rfl | rfl⟩
    · exact hx (by simp)
    · exact hX (by simp)
  · rfl

/-- A text of digits is read as their number. -/
theorem int_digitText (hbase : base ≤ 16) (hlt : ∀ d ∈ ns, d < base) (hne : ns ≠ [])
    (hfits : base = 10 → ns.length ≤ maxStrDigits) :
    int base (String.ofList (digitText ns)) =
      some ((ns.foldl (fun acc value => acc * base + value) 0 : ℕ) : ℤ) := by
  have hdigits : ∀ d ∈ ns, d < 16 := fun d hd => (hlt d hd).trans_le hbase
  have hspace : ∀ c ∈ digitText ns, isIntSpace c = false :=
    forall_mem_digitText hdigits isIntSpace_digitChar
  have hminus : '-' ∉ digitText ns := not_mem_digitText hdigits (by decide)
  have hplus : '+' ∉ digitText ns := not_mem_digitText hdigits (by decide)
  have hliteral : natLiteral base (digitText ns) =
      some (ns.foldl (fun acc value => acc * base + value) 0) := by
    rw [natLiteral, dropBasePrefix_of_not_mem (not_mem_digitText hdigits (by decide))
      (not_mem_digitText hdigits (by decide)), digits_digitText hbase hlt hne]
    exact if_neg fun hlong => absurd (hfits hlong.1) (not_le.mpr hlong.2)
  rw [int, String.toList_ofList, trimBoth_of_forall hspace]
  split
  · next cs heq => exact absurd (heq ▸ List.mem_cons_self) hminus
  · next cs heq => exact absurd (heq ▸ List.mem_cons_self) hplus
  · rw [hliteral]
    rfl

end Logit.Python
