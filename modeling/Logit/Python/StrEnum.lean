import Mathlib.Data.Fintype.Defs
import Mathlib.Data.List.Nodup

/-!
# Enumerations of strings

Python's `class E(str, Enum)`: every member has a text, different members have different
texts, and a member can be looked up by its text.

## Main definitions

* `StrEnum` — an enumeration whose members have texts
* `StrEnum.ofValue?` — `E(text)`; `none` where Python raises `ValueError`
* `StrEnum.fintype` — the members as a finite type

## Main results

* `StrEnum.ofValue?_eq_some` — a member is found by its own text only
-/

namespace Logit.Python

class StrEnum (α : Type) where
  /-- The members, in their order. -/
  members : List α
  mem_members : ∀ a, a ∈ members
  value : α → String
  nodup_values : (members.map value).Nodup

namespace StrEnum

variable {α : Type} [StrEnum α]

theorem value_injective : Function.Injective (value : α → String) := fun a b h =>
  List.inj_on_of_nodup_map nodup_values (mem_members a) (mem_members b) h

/-- The members as a finite type. -/
abbrev fintype (α : Type) [StrEnum α] : Fintype α where
  elems := ⟨((members : List α) : Multiset α), nodup_values.of_map value⟩
  complete := mem_members

/-- `E(text)`. -/
def ofValue? (text : String) : Option α :=
  members.find? fun a => value a == text

theorem ofValue?_eq_some {text : String} {a : α} : ofValue? text = some a ↔ value a = text := by
  constructor
  · intro h
    simpa using List.find?_some h
  · intro h
    cases hfound : (ofValue? text : Option α) with
    | none =>
      have hnone := List.find?_eq_none.mp hfound a (mem_members a)
      simp [h] at hnone
    | some b =>
      have hb : value b = text := by simpa using List.find?_some hfound
      rw [value_injective (hb.trans h.symm)]

@[simp] theorem ofValue?_value (a : α) : ofValue? (value a) = some a :=
  ofValue?_eq_some.mpr rfl

end StrEnum

end Logit.Python
