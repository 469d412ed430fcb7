import JavaAtlas.Record.Schema

set_option autoImplicit false

/-! # Parameters and descriptors of operations

A descriptor says what an operation is called, what it takes and what it answers. From it come the
record that lists the operation and the JSON Schema of its arguments. -/

namespace JavaAtlas

/-! ## Parameters -/

/-- The kind of value that a parameter takes. -/
inductive ParameterKind where
  | text
  | flag
  | textList
deriving DecidableEq, Repr

namespace ParameterKind

/-- The name of the kind. -/
def name : ParameterKind → String
  | text => "string"
  | flag => "boolean"
  | textList => "string_list"

/-- The JSON Schema type of the kind. -/
def jsonType : ParameterKind → String
  | text => "string"
  | flag => "boolean"
  | textList => "array"

/-- Whether a value is of the kind. -/
def accepts : ParameterKind → Json → Bool
  | text, .string _ => true
  | flag, .bool _ => true
  | textList, .array items => items.all Json.isString
  | _, _ => false

end ParameterKind

/-- The value of an optional parameter that is left out. -/
inductive DefaultValue where
  | null
  | flag (value : Bool)
deriving DecidableEq, Repr

namespace DefaultValue

/-- The default as a value. -/
def toJson : DefaultValue → Json
  | null => .null
  | flag value => .bool value

end DefaultValue

/-- One declared parameter. -/
structure Parameter where
  name : String
  kind : ParameterKind
  required : Bool
  default : Option DefaultValue
  description : String
deriving DecidableEq, Repr

namespace Parameter

/-- A parameter that must be given. -/
def needed (name : String) (kind : ParameterKind) (description : String) : Parameter :=
  ⟨name, kind, true, none, description⟩

/-- A parameter that may be left out. -/
def withDefault (name : String) (kind : ParameterKind) (default : DefaultValue)
    (description : String) : Parameter :=
  ⟨name, kind, false, some default, description⟩

/-- The value that stands for the parameter when it is left out. -/
def fallback (p : Parameter) : Json := (p.default.map DefaultValue.toJson).getD .null

instance : WriteJson Parameter where
  write p := .object [
    ("name", .string p.name),
    ("kind", .string p.kind.name),
    ("required", .bool p.required),
    ("default", p.fallback),
    ("description", .string p.description)]

/-- The JSON Schema of the parameter. -/
def schema (p : Parameter) : Json :=
  let items := if p.kind = .textList then [("items", .object [("type", .string "string")])] else []
  let default := match p.default with
    | some value => [("default", value.toJson)]
    | none => []
  .object ([("type", .string p.kind.jsonType)] ++ items ++
    [("description", .string p.description)] ++ default)

end Parameter

/-! ## Descriptors -/

/-- Whether an operation queries the analysis or explains one of its record types. -/
inductive OperationKind where
  | tool
  | explainer
deriving DecidableEq, Repr

namespace OperationKind

/-- The name of the kind. -/
def name : OperationKind → String
  | tool => "tool"
  | explainer => "explainer"

/-- The kind of an operation by the end of its name. -/
def ofName? (name : String) : Option OperationKind :=
  if "_tool".toList.isSuffixOf name.toList then some tool
  else if "_explainer".toList.isSuffixOf name.toList then some explainer
  else none

end OperationKind

/-- The shape of an operation's result. -/
inductive ResultShape where
  | scalar
  | record
  | list
  | mapping
  | graph
deriving DecidableEq, Repr

namespace ResultShape

/-- The name of the shape. -/
def name : ResultShape → String
  | scalar => "scalar"
  | record => "record"
  | list => "list"
  | mapping => "mapping"
  | graph => "graph"

end ResultShape

/-- The public description of an operation. -/
structure Descriptor where
  name : String
  kind : OperationKind
  parameters : List Parameter
  shape : ResultShape
  description : String
deriving DecidableEq, Repr

namespace Descriptor

/-- The first parameter with a name. -/
def parameter? (d : Descriptor) (name : String) : Option Parameter :=
  d.parameters.find? (·.name = name)

instance : WriteJson Descriptor where
  write d := .object [
    ("name", .string d.name),
    ("kind", .string d.kind.name),
    ("params", WriteJson.write d.parameters),
    ("shape", .string d.shape.name),
    ("description", .string d.description)]

/-- The JSON Schema of the operation's arguments: an object with the declared parameters and no
others. -/
def inputSchema (d : Descriptor) : Json :=
  let properties : Dict String Json := .ofList (d.parameters.map fun p => (p.name, p.schema))
  let needed := d.parameters.filter Parameter.required
  .object [
    ("type", .string "object"),
    ("properties", .object properties.entries),
    ("required", .array (needed.map fun p => .string p.name)),
    ("additionalProperties", .bool false)]

end Descriptor

end JavaAtlas
