import Mathlib.Data.List.Basic

/-!
# Dictionaries of texts

Python's `dict[str, str]`: items with different keys, in the order they were put in.

## Main definitions

* `StrDict` — a dictionary
* `StrDict.get` — `dict.get(key)`
* `StrDict.set` — `dict[key] = value`, of a key that is there
* `StrDict.without` — the items of all other keys
-/

namespace Logit.Python

/-- A dictionary of texts. -/
structure StrDict where
  items : List (String × String)
  nodup_keys : (items.map Prod.fst).Nodup
  deriving DecidableEq, Repr

namespace StrDict

/-- `dict.get(key)`. -/
def get (d : StrDict) (key : String) : Option String := d.items.lookup key

/-- `{k: v for k, v in dict.items() if k not in keys}`. -/
def without (d : StrDict) (keys : List String) : StrDict where
  items := d.items.filter fun item => item.1 ∉ keys
  nodup_keys := d.nodup_keys.sublist (List.filter_sublist.map _)

/-- A value for a key leaves the keys. -/
theorem keys_set (items : List (String × String)) (key value : String) :
    (items.map fun item => if item.1 = key then (item.1, value) else item).map Prod.fst =
      items.map Prod.fst := by
  rw [List.map_map]
  refine List.map_congr_left fun item _ => ?_
  simp only [Function.comp_apply]
  split_ifs <;> rfl

/-- `dict[key] = value` for a key that is there. -/
def set (d : StrDict) (key value : String) : StrDict where
  items := d.items.map fun item => if item.1 = key then (item.1, value) else item
  nodup_keys := (keys_set d.items key value).symm ▸ d.nodup_keys

end StrDict

end Logit.Python
