import Mathlib.Data.Option.Basic

/-!
# Fields of JSON objects

A field of a JSON object is left out, null, or has a value. Python reads the three apart
in a partial update and in a stored object, and a Pydantic model says of each of its fields
which of them it takes.

## Main definitions

* `Given` — a field of an object
* `Given.ofOption`, `Given.ofSome` — the field an attribute is written as
* `Given.required`, `Given.optional`, `Given.withDefault` — what a field is read as
* `Given.replacing` — an attribute after a partial update
* `Given.merge`, `Given.setdefault` — a field written over another, and one that is filled in
-/

namespace Logit.Python

/-- A field of a JSON object. -/
inductive Given (α : Type)
  | unset
  | null
  | value (a : α)
  deriving DecidableEq, Repr

namespace Given

variable {α β : Type}

/-- An attribute is written even when it is `None`. -/
def ofOption : Option α → Given α
  | none => null
  | some a => value a

/-- An attribute is left out when it is `None`. -/
def ofSome : Option α → Given α
  | none => unset
  | some a => value a

/-- `object.get(field)`. -/
def get : Given α → Option α
  | value a => some a
  | _ => none

/-- `field in object`. -/
def isSet : Given α → Bool
  | unset => false
  | _ => true

/-- `object.setdefault(field, None)`. -/
def setdefault : Given α → Given α
  | unset => null
  | g => g

/-- The field of a stored object after another has been written over it; null removes it. -/
def merge (old : Given α) : Given α → Given α
  | unset => old
  | null => unset
  | value a => value a

/-- The attribute `model_copy(update=...)` leaves: a field that is set replaces it, null
included, and nothing is checked. -/
def replacing (old : Option α) : Given α → Option α
  | unset => old
  | null => none
  | value a => some a

theorem eq_value_of_get {g : Given α} {a : α} (h : g.get = some a) : g = value a := by
  cases g with
  | unset => cases h
  | null => cases h
  | value b => exact congrArg value (Option.some.inj h)

/-! ## Reading -/

/-- A field that must have a value. -/
def required (read : α → Option β) : Given α → Option β
  | value a => read a
  | _ => none

/-- A field that may be left out or null. -/
def optional (read : α → Option β) : Given α → Option (Option β)
  | value a => (read a).map some
  | _ => some none

/-- A field that has a default: left out, it is read as one with that value. -/
def withDefault (default : α) : Given α → Given α
  | unset => value default
  | g => g

@[simp] theorem get_ofOption (a : Option α) : (ofOption a).get = a := by
  cases a <;> rfl

@[simp] theorem required_value (read : α → Option β) (a : α) :
    required read (value a) = read a := rfl

@[simp] theorem optional_value (read : α → Option β) (a : α) :
    optional read (value a) = (read a).map some := rfl

@[simp] theorem withDefault_value (default a : α) : (value a).withDefault default = value a := rfl

@[simp] theorem withDefault_ofOption (default : α) (a : Option α) :
    (ofOption a).withDefault default = ofOption a := by
  cases a <;> rfl

@[simp] theorem withDefault_ofSome (default : α) (a : Option α) :
    (ofSome a).withDefault default = value (a.getD default) := by
  cases a <;> rfl

@[simp] theorem get_ofSome (a : Option α) : (ofSome a).get = a := by
  cases a <;> rfl

@[simp] theorem merge_ofOption (old : Given α) (a : Option α) :
    old.merge (ofOption a) = ofSome a := by
  cases a <;> rfl

@[simp] theorem setdefault_value (a : α) : (value a).setdefault = value a := rfl

@[simp] theorem setdefault_ofOption (a : Option α) : (ofOption a).setdefault = ofOption a := by
  cases a <;> rfl

@[simp] theorem setdefault_ofSome (a : Option α) : (ofSome a).setdefault = ofOption a := by
  cases a <;> rfl

@[simp] theorem merge_value (old : Given α) (a : α) : old.merge (value a) = value a := rfl

theorem get_setdefault (g : Given α) : g.setdefault.get = g.get := by
  cases g <;> rfl

@[simp] theorem optional_some_ofOption (a : Option α) : optional some (ofOption a) = some a := by
  cases a <;> rfl

@[simp] theorem optional_some_ofSome (a : Option α) : optional some (ofSome a) = some a := by
  cases a <;> rfl

variable {write : β → α} {read : α → Option β}

/-- Whether a field with a default is accepted does not depend on a default that is. -/
theorem exists_required_withDefault {g : Given α} {default default' : α} {b : β}
    (h : (g.withDefault default).required read = some b)
    (hdefault : (read default').isSome = true) :
    ∃ b', (g.withDefault default').required read = some b' := by
  cases g with
  | unset => exact Option.isSome_iff_exists.mp hdefault
  | null => cases h
  | value a => exact ⟨b, h⟩

/-- An optional attribute that was written reads back. -/
theorem optional_ofOption (hread : ∀ b, read (write b) = some b) (b : Option β) :
    optional read (ofOption (b.map write)) = some b := by
  cases b with
  | none => rfl
  | some b => exact congrArg (Option.map some) (hread b)

/-- So does one that was left out when it was `None`. -/
theorem optional_ofSome (hread : ∀ b, read (write b) = some b) (b : Option β) :
    optional read (ofSome (b.map write)) = some b := by
  cases b with
  | none => rfl
  | some b => exact congrArg (Option.map some) (hread b)

/-! ## Partial updates -/

/-- An update leaves an attribute without a value just when it sets the attribute to null. -/
theorem replacing_isSome {old : Option α} (hold : old.isSome = true) (g : Given α) :
    (g.replacing old).isSome = true ↔ g ≠ null := by
  cases g with
  | unset => simpa [replacing] using hold
  | null => simp [replacing]
  | value a => simp [replacing]

/-- A property of the old value and of every value given holds of the new value. -/
theorem replacing_of_forall {P : α → Prop} {old : Option α} {g : Given α}
    (hold : ∀ a, old = some a → P a) (hnew : ∀ a, g = value a → P a) (a : α)
    (h : g.replacing old = some a) : P a := by
  cases g with
  | unset => exact hold a h
  | null => cases h
  | value b =>
    apply hnew
    exact congrArg value (Option.some.inj h)

end Given

end Logit.Python
