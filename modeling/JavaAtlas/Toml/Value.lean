import JavaAtlas.Data.Sorted
import JavaAtlas.Number.Double
import JavaAtlas.Toml.Datetime

set_option autoImplicit false

/-! # TOML values

The values of the TOML data format. The entries of a table are kept in the order of their keys. -/

namespace JavaAtlas.Toml

/-- A TOML value. -/
inductive Value where
  | string (text : String)
  | integer (n : Int64)
  | float (x : Double)
  | boolean (b : Bool)
  | datetime (d : Datetime)
  | array (items : List Value)
  | table (entries : List (String × Value))
deriving Inhabited

/-- The entries of a table in the order of their keys. -/
abbrev Table := List (String × Value)

namespace Value

/-- Whether the value is a table. -/
def isTable : Value → Bool
  | table _ => true
  | _ => false

/-- The string that the value is. -/
def asString? : Value → Option String
  | string text => some text
  | _ => none

mutual

/-- Applies a function to every string inside a value; the keys of tables are not values. -/
def mapStrings (f : String → String) : Value → Value
  | string text => string (f text)
  | array items => array (mapItems f items)
  | table entries => table (mapEntries f entries)
  | value => value

/-- Applies a function to every string inside the items. -/
def mapItems (f : String → String) : List Value → List Value
  | [] => []
  | item :: rest => mapStrings f item :: mapItems f rest

/-- Applies a function to every string inside the values of the entries. -/
def mapEntries (f : String → String) : List (String × Value) → List (String × Value)
  | [] => []
  | (key, value) :: rest => (key, mapStrings f value) :: mapEntries f rest

end

end Value

end JavaAtlas.Toml
