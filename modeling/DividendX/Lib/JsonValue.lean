import DividendX.Lib.Record
import Mathlib.Data.Rat.Defs

/-!
# JSON values

What `JSON.parse` returns: the members of an object in order, no name twice. A member that is not
there reads as `undefined`, which is `none` here.
-/

/-- A parsed JSON value. -/
inductive JsonValue
  | null
  | bool (b : Bool)
  | number (n : Rat)
  | string (s : String)
  | array (items : List JsonValue)
  | object (members : List (String × JsonValue))

namespace JsonValue

/-- `value.name`; a value that is not an object has no members. -/
def get? (value : JsonValue) (name : String) : Option JsonValue :=
  match value with
  | .object members => Record.find name members
  | _ => none

/-- A value that is a string, or nothing. -/
def string? : Option JsonValue → Option String
  | some (.string s) => some s
  | _ => none

/-- `typeof value === 'object'`, not `null` and not an array. -/
def isPlain : JsonValue → Bool
  | .object _ => true
  | _ => false

/-- `value === true`. -/
def isTrue : Option JsonValue → Bool
  | some (.bool b) => b
  | _ => false

/-- `value === null`. -/
def isNull : Option JsonValue → Bool
  | some .null => true
  | _ => false

/-- `value === n` for a number. -/
def isNumber (n : Rat) : Option JsonValue → Bool
  | some (.number m) => m = n
  | _ => false

/-- `value === s` for a string. -/
def isString (s : String) (value : Option JsonValue) : Bool := string? value = some s

/-- `!!value`. -/
def truthy : Option JsonValue → Bool
  | none | some .null => false
  | some (.bool b) => b
  | some (.number n) => n ≠ 0
  | some (.string s) => s ≠ ""
  | some (.array _) | some (.object _) => true

/-- `Number.isSafeInteger(value)`, with its value. -/
def safeInteger? : JsonValue → Option Int
  | .number n => if n.den = 1 ∧ -(2 ^ 53 - 1) ≤ n.num ∧ n.num ≤ 2 ^ 53 - 1 then some n.num else none
  | _ => none

/-- `Object.keys(value).sort().join(',') === keys.join(',')`, for keys in order. -/
def hasExactly (keys : List String) (members : List (String × JsonValue)) : Bool :=
  ",".intercalate ((members.map Prod.fst).mergeSort fun a b => decide (a ≤ b))
    = ",".intercalate keys

end JsonValue
