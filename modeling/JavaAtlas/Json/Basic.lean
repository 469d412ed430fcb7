import JavaAtlas.Data.Dict
import JavaAtlas.Number.Double

set_option autoImplicit false

/-! # JSON values

Objects keep their members in order, as a list of pairs; the readers never produce two members of
one name. A number is an integer when it was written as one. -/

namespace JavaAtlas

/-- A JSON value. -/
inductive Json where
  | null
  | bool (value : Bool)
  | int (value : Int)
  | float (value : Double)
  | string (value : String)
  | array (items : List Json)
  | object (members : List (String × Json))
deriving Inhabited

namespace Json

/-- Whether the value is `null`. -/
def isNull : Json → Bool
  | null => true
  | _ => false

/-- Whether the value is a string. -/
def isString : Json → Bool
  | string _ => true
  | _ => false

/-- Whether the value is an object. -/
def isObject : Json → Bool
  | object _ => true
  | _ => false

/-- The string that the value is. -/
def asString? : Json → Option String
  | string s => some s
  | _ => none

/-- The truth value that the value is. -/
def asBool? : Json → Option Bool
  | bool b => some b
  | _ => none

/-- The integer that the value is, if it is one of 64 bits with sign. -/
def asInt64? : Json → Option Int64
  | int n =>
    if Int64.minValue.toInt ≤ n ∧ n ≤ Int64.maxValue.toInt then some (Int64.ofInt n) else none
  | _ => none

/-- The items of an array. -/
def asArray? : Json → Option (List Json)
  | array items => some items
  | _ => none

/-- The members of an object. -/
def asObject? : Json → Option (List (String × Json))
  | object members => some members
  | _ => none

/-- The member of an object under `name`. -/
def member? (name : String) : Json → Option Json
  | object members => Assoc.find? name members
  | _ => none

end Json

end JavaAtlas
