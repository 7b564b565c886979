import Mathlib.Algebra.Group.Int.Defs
import Mathlib.Algebra.Group.Nat.Defs
import Mathlib.Data.List.Infix
import Mathlib.Data.Rat.Defs

/-!
# Spec/Json — the document values of the JSON library

A `nlohmann::json` value as the spec code reads it.  An integer literal is kept as written; reading
it as `int64_t` wraps (`getInt64`), and reading it as `double` rounds to 53 bits (`getDouble`).
An object lists its members in iteration order.
-/

namespace AxonVex

/-- `nlohmann::json`. -/
inductive Json
  | null
  | boolean (b : Bool)
  /-- `number_integer` and `number_unsigned` -/
  | integer (z : ℤ)
  /-- `number_float`, a finite `double` -/
  | float (v : ℚ)
  | string (s : String)
  | array (elements : List Json)
  | object (members : List (String × Json))

/-- `static_cast` to a signed integer of `bits` bits. -/
def wrapSigned (bits : ℕ) (z : ℤ) : ℤ := z.bmod (2 ^ bits)

/-- The integer nearest to `z` with a mantissa of 53 bits, ties to even. -/
def nearestDouble (z : ℤ) : ℤ :=
  let unit := 2 ^ (z.natAbs.log2 + 1 - 53)
  let quotient := z.natAbs / unit
  let rest := z.natAbs % unit
  let rounded :=
    if unit < 2 * rest ∨ 2 * rest = unit ∧ quotient % 2 = 1 then quotient + 1 else quotient
  z.sign * (rounded * unit : ℕ)

namespace Json

/-- `type_name()`. -/
def typeName : Json → String
  | null => "null"
  | boolean _ => "boolean"
  | integer _ => "number"
  | float _ => "number"
  | string _ => "string"
  | array _ => "array"
  | object _ => "object"

/-- `is_null()`. -/
def isNull : Json → Bool
  | null => true
  | _ => false

/-- `is_boolean()`. -/
def isBoolean : Json → Bool
  | boolean _ => true
  | _ => false

/-- `is_number_integer()`. -/
def isNumberInteger : Json → Bool
  | integer _ => true
  | _ => false

/-- `is_number()`. -/
def isNumber : Json → Bool
  | integer _ => true
  | float _ => true
  | _ => false

/-- `is_string()`. -/
def isString : Json → Bool
  | string _ => true
  | _ => false

/-- `is_array()`. -/
def isArray : Json → Bool
  | array _ => true
  | _ => false

/-- `is_object()`. -/
def isObject : Json → Bool
  | object _ => true
  | _ => false

/-- `get<bool>()`, of a boolean. -/
def getBool : Json → Bool
  | boolean b => b
  | _ => false

/-- `get<int64_t>()`, of an integer. -/
def getInt64 : Json → ℤ
  | integer z => wrapSigned 64 z
  | _ => 0

/-- `get<double>()`, of a number. -/
def getDouble : Json → ℚ
  | integer z => nearestDouble z
  | float v => v
  | _ => 0

/-- `get<std::string>()`, of a string. -/
def getString : Json → String
  | string s => s
  | _ => ""

/-- The elements of an array. -/
def elements : Json → List Json
  | array xs => xs
  | _ => []

/-- The members of an object, in iteration order. -/
def members : Json → List (String × Json)
  | object ms => ms
  | _ => []

/-- `find(key)`, and `contains(key)` followed by `at(key)`. -/
def find? (key : String) (j : Json) : Option Json := j.members.lookup key

/-- `contains(key)`. -/
def contains (key : String) (j : Json) : Bool := (j.find? key).isSome

/-- `json::object()`. -/
def emptyObject : Json := object []

/-- `a == b` where `b` is a string. -/
def isTheString (s : String) : Json → Bool
  | string t => t == s
  | _ => false

end Json

/-- A number of at most 53 bits is a `double`. -/
example : nearestDouble (2 ^ 53) = 2 ^ 53 ∧ nearestDouble (2 ^ 53 + 1) = 2 ^ 53 ∧
    nearestDouble (-(2 ^ 53 + 3)) = -(2 ^ 53 + 4) := by decide

end AxonVex
