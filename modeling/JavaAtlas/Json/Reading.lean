import JavaAtlas.Json.Outline
import JavaAtlas.Json.Printer
import JavaAtlas.Text.Quoted

set_option autoImplicit false

/-! # Reading typed values from JSON text

A type says in its `ReadJson` instance how its values are read from an outline. Reading goes through
the text from front to back and stops at the first fault, so the error describes that fault: a value
of the wrong kind is reported as soon as its beginning shows the kind, and what no reader asks for
is only checked against the grammar. -/

namespace JavaAtlas.Json

/-! ## Errors -/

/-- What stands where a value of another kind is expected. -/
inductive Found where
  | null
  | boolean (value : Bool)
  | integer (value : Int)
  | floating (value : Double)
  | text (value : String)
  | sequence
  | map
deriving DecidableEq, Repr

/-- Why a text cannot be read. -/
inductive ReadError where
  | malformed
  | mismatch (found : Found) (expected : String)
  | outOfRange (value : Int) (expected : String)
  | wrongLength (length : Nat) (record : String) (size : Nat)
  | unknownVariant (name : String) (known : List String)
  | duplicateMember (name : String)
  | missingMember (name : String)
deriving DecidableEq, Repr

namespace Found

/-- The description of what was found. -/
def describe : Found → String
  | null => "null"
  | boolean b => if b then "boolean `true`" else "boolean `false`"
  | integer n => "integer `" ++ String.ofList (intChars n) ++ "`"
  | floating x => "floating point `" ++ Layout.json.text x ++ "`"
  | text s => "string " ++ Text.quote s
  | sequence => "sequence"
  | map => "map"

end Found

namespace ReadError

/-- Several names as a choice: `one of` is said from three names on. -/
def oneOf (names : List String) : String :=
  let quoted := names.map fun name => "`" ++ name ++ "`"
  match quoted with
  | [a] => a
  | [a, b] => a ++ " or " ++ b
  | names => "one of " ++ ", ".intercalate names

/-- The text of the error. -/
def message : ReadError → String
  | malformed => "<syntax>"
  | mismatch found expected => "invalid type: " ++ found.describe ++ ", expected " ++ expected
  | outOfRange n expected =>
    "invalid value: integer `" ++ String.ofList (intChars n) ++ "`, expected " ++ expected
  | wrongLength length record size =>
    "invalid length " ++ toString length ++ ", expected struct " ++ record ++ " with " ++
      toString size ++ (if size = 1 then " element" else " elements")
  | unknownVariant name known => "unknown variant `" ++ name ++ "`, expected " ++ oneOf known
  | duplicateMember name => "duplicate field `" ++ name ++ "`"
  | missingMember name => "missing field `" ++ name ++ "`"

end ReadError

/-- The error of finding an outline where something else is expected. Scalars must be readable
before they can be described; of a container only the opening bracket counts. -/
def Outline.mismatch (expected : String) : Outline → ReadError
  | .broken => .malformed
  | .null => .mismatch .null expected
  | .bool b => .mismatch (.boolean b) expected
  | .number numeral => match numeral.read? with
    | none => .malformed
    | some (.int n) => .mismatch (.integer n) expected
    | some (.float x) => .mismatch (.floating x) expected
  | .string none => .malformed
  | .string (some s) => .mismatch (.text s) expected
  | .array _ => .mismatch .sequence expected
  | .object _ => .mismatch .map expected

/-! ## The reader class -/

/-- A type whose values can be read from an outline. The number bounds how many containers may be
open around what is read. -/
class ReadJson (α : Type) where
  read : Nat → Outline → Except ReadError α

/-- The number of containers that may be nested in one another. -/
def nestingLimit : Nat := 127

/-- Goes on inside a container, if one more may be opened. -/
def enter {α : Type} (depth : Nat) (inside : Nat → Except ReadError α) : Except ReadError α :=
  match depth with
  | 0 => .error .malformed
  | depth + 1 => inside depth

/-- The value that a text holds, and nothing else. -/
def readText {α : Type} [ReadJson α] (text : String) : Except ReadError α := do
  let document := Document.ofText text
  let value ← ReadJson.read nestingLimit document.outline
  if document.complete then .ok value else .error .malformed

/-! ## Scalars -/

instance : ReadJson String where
  read _
    | .string (some s) => .ok s
    | outline => .error (outline.mismatch "a string")

instance : ReadJson Bool where
  read _
    | .bool b => .ok b
    | outline => .error (outline.mismatch "a boolean")

/-- An integer from a range with a name. -/
def readInteger {α : Type} (expected : String) (low high : Int) (ofInt : Int → α) :
    Outline → Except ReadError α
  | .number numeral => match numeral.read? with
    | some (.int n) =>
      if low ≤ n ∧ n ≤ high then .ok (ofInt n) else .error (.outOfRange n expected)
    | _ => .error ((Outline.number numeral).mismatch expected)
  | outline => .error (outline.mismatch expected)

instance : ReadJson Int64 where
  read _ := readInteger "i64" Int64.minValue.toInt Int64.maxValue.toInt Int64.ofInt

instance : ReadJson Int32 where
  read _ := readInteger "i32" Int32.minValue.toInt Int32.maxValue.toInt Int32.ofInt

/-- One of several named constants: its name as a string, or an object that maps the name to
`null`. -/
def readVariant {α : Type} (known : List (String × α)) (depth : Nat) :
    Outline → Except ReadError α
  | .string (some name) => variant name
  | .object ((some name, value) :: rest) => enter depth fun _ => do
    let found ← variant name
    match value, rest with
    | .null, [] => .ok found
    | .null, _ => .error .malformed
    | value, _ => .error (value.mismatch "unit")
  | _ => .error .malformed
where
  variant (name : String) : Except ReadError α :=
    match Assoc.find? name known with
    | some found => .ok found
    | none => .error (.unknownVariant name (Assoc.keys known))

/-! ## Containers -/

/-- `null` is an absent value. -/
instance {α : Type} [ReadJson α] : ReadJson (Option α) where
  read depth
    | .null => .ok none
    | outline => (ReadJson.read depth outline).map some

instance {α : Type} [ReadJson α] : ReadJson (List α) where
  read depth
    | .array items => enter depth fun depth => items.mapM (ReadJson.read depth)
    | outline => .error (outline.mismatch "a sequence")

/-- The members of a map, put into `d` one after the other. -/
def readEntries {α : Type} (read : Outline → Except ReadError α) :
    List (Option String × Outline) → Dict String α → Except ReadError (Dict String α)
  | [], d => .ok d
  | (none, _) :: _, _ => .error .malformed
  | (some name, value) :: rest, d => do
    let value ← read value
    readEntries read rest (d.insert name value)

/-- In a map a repeated name keeps its first place and takes its last value. -/
instance {α : Type} [ReadJson α] : ReadJson (Dict String α) where
  read depth
    | .object members => enter depth fun depth => readEntries (ReadJson.read depth) members .empty
    | outline => .error (outline.mismatch "a map")

/-! ## Arbitrary values -/

mutual

/-- The value that an outline denotes; `none` when it cannot be read. -/
def Outline.value? (depth : Nat) : Outline → Option Json
  | .broken => none
  | .null => some .null
  | .bool b => some (.bool b)
  | .number numeral => numeral.read?.map fun
    | .int n => .int n
    | .float x => .float x
  | .string s => s.map .string
  | .array items => match depth with
    | 0 => none
    | depth + 1 => (itemValues? depth items).map .array
  | .object members => match depth with
    | 0 => none
    | depth + 1 => (memberValues? depth members []).map .object

/-- The values of the items of an array. -/
def itemValues? (depth : Nat) : List Outline → Option (List Json)
  | [] => some []
  | item :: rest => do
    let value ← item.value? depth
    let values ← itemValues? depth rest
    some (value :: values)

/-- The members of an object, put into `members` one after the other. -/
def memberValues? (depth : Nat) :
    List (Option String × Outline) → List (String × Json) → Option (List (String × Json))
  | [], members => some members
  | (name, value) :: rest, members => do
    let name ← name
    let value ← value.value? depth
    memberValues? depth rest (Assoc.insert name value members)

end

instance : ReadJson Json where
  read depth outline := match outline.value? depth with
    | some value => .ok value
    | none => .error .malformed

end JavaAtlas.Json
