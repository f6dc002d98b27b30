import Mathlib.Data.Rat.Defs

/-!
# JSON

A value as a parser builds it. The fields of an object keep their order.
-/

inductive Json
  | null
  | bool (b : Bool)
  | int (n : ℤ)
  | float (x : ℚ)
  | str (s : String)
  | arr (values : List Json)
  | obj (fields : List (String × Json))

namespace Json

def get : Json → String → Option Json
  | .obj fields, key => (fields.find? (·.1 = key)).map (·.2)
  | _, _ => none

def asStr : Json → Option String
  | .str s => some s
  | _ => none

def asArray : Json → Option (List Json)
  | .arr values => some values
  | _ => none

@[simp]
theorem asStr_str (s : String) : (str s).asStr = some s := rfl

theorem asStr_eq_none {v : Json} (h : ∀ s, v ≠ .str s) : v.asStr = none := by
  cases v with
  | str s => exact absurd rfl (h s)
  | _ => rfl

end Json
