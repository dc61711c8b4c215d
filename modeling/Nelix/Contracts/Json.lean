import Mathlib.Data.Rat.Defs

/-! A decoded JSON value, as the operator and the reaper look into it. -/
namespace Nelix.Contracts

inductive Json
  | null
  | bool (value : Bool)
  | int (value : ℤ)
  | number (value : ℚ)
  | text (value : String)
  | list (items : List Json)
  | object (fields : List (String × Json))

namespace Json

/-- Python's truth of the value. -/
def truthy : Json → Bool
  | null => false
  | bool value => value
  | int value => value ≠ 0
  | number value => value ≠ 0
  | text value => value ≠ ""
  | list items => !items.isEmpty
  | object fields => !fields.isEmpty

/-- `value == 0`: a bool is an int to Python. -/
def isZero : Json → Bool
  | bool value => !value
  | int value => value = 0
  | number value => value = 0
  | _ => false

/-- `dict.get(key)`; none where the value is no dict. -/
def get? (key : String) : Json → Option Json
  | object fields => fields.lookup key
  | _ => none

/-- `dict.get(key) == expected` for a str. -/
def hasText (value : Json) (key expected : String) : Bool :=
  match value.get? key with
  | some (text given) => given = expected
  | _ => false

def isObject : Json → Bool
  | object _ => true
  | _ => false

/-- An int that is positive and is not a bool. -/
def positive? : Json → Option ℤ
  | int value => if 0 < value then some value else none
  | _ => none

end Json

end Nelix.Contracts
