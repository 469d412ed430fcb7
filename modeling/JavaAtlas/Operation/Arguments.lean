import JavaAtlas.Failure
import JavaAtlas.Operation.Parameter

set_option autoImplicit false

/-! # Arguments of an invocation

Arguments are checked against the parameters of an operation before it runs. Afterwards every
declared parameter has a value: the argument that was given, or the parameter's default. -/

namespace JavaAtlas

/-- What is wrong with arguments. -/
inductive ArgumentFault where
  | notAnObject
  | unexpected (name : String)
  | missing (name : String)
  | wrongKind (name : String) (kind : ParameterKind)
  | unreadable (name : String) (kind : ParameterKind)
deriving DecidableEq, Repr

namespace ArgumentFault

/-- The text of the fault. -/
def message : ArgumentFault → String
  | notAnObject => "arguments must be an object"
  | unexpected name => "unexpected argument '" ++ name ++ "'"
  | missing name => "missing required argument '" ++ name ++ "'"
  | wrongKind name kind => "argument '" ++ name ++ "' must be of type " ++ kind.jsonType
  | unreadable name kind => "argument '" ++ name ++ "' is not a " ++ kind.jsonType

/-- The fault as a failure of an operation. -/
def toFailure (operation : String) (fault : ArgumentFault) : Failure :=
  .invalidArguments operation fault.message

end ArgumentFault

/-- Checked arguments of one operation. -/
structure Arguments where
  operation : String
  values : Dict String Json

namespace Arguments

/-- The members of an arguments value: nothing and `null` stand for no arguments. -/
def members (operation : String) : Option Json → Except Failure (List (String × Json))
  | none | some .null => .ok []
  | some (.object members) => .ok members
  | some _ => .error (ArgumentFault.notAnObject.toFailure operation)

/-- The value of one parameter among the raw arguments. -/
def valueOf (p : Parameter) (raw : List (String × Json)) : Except ArgumentFault Json :=
  match Assoc.find? p.name raw with
  | none | some .null => if p.required then .error (.missing p.name) else .ok p.fallback
  | some value => if p.kind.accepts value then .ok value else .error (.wrongKind p.name p.kind)

/-- The values of the parameters in order. Each takes its argument out of the raw arguments. -/
def valuesOf : List Parameter → List (String × Json) → Dict String Json →
    Except ArgumentFault (Dict String Json)
  | [], _, values => .ok values
  | p :: parameters, raw, values => do
    let value ← valueOf p raw
    valuesOf parameters (Assoc.erase p.name raw) (values.insert p.name value)

/-- Checks raw arguments: none may be undeclared, the required ones must be there and not `null`,
and each must be of its parameter's kind. -/
def check (d : Descriptor) (raw : List (String × Json)) : Except ArgumentFault (Dict String Json) :=
  match (Assoc.keys raw).find? fun name => (d.parameter? name).isNone with
  | some name => .error (.unexpected name)
  | none => valuesOf d.parameters raw .empty

/-- The checked arguments of an operation. -/
def validate (d : Descriptor) (raw : List (String × Json)) : Except Failure Arguments :=
  match check d raw with
  | .ok values => .ok ⟨d.name, values⟩
  | .error fault => .error (fault.toFailure d.name)

/-- No arguments. -/
def none (operation : String) : Arguments := ⟨operation, .empty⟩

/-- The failure of reading an argument as a kind. -/
def unreadable (arguments : Arguments) (name : String) (kind : ParameterKind) : Failure :=
  (ArgumentFault.unreadable name kind).toFailure arguments.operation

/-- A string argument, if it has one. -/
def text? (arguments : Arguments) (name : String) : Option String :=
  (arguments.values.get? name).bind Json.asString?

/-- A string argument. -/
def text (arguments : Arguments) (name : String) : Except Failure String :=
  match arguments.text? name with
  | some s => .ok s
  | Option.none => .error (arguments.unreadable name .text)

/-- A truth value. -/
def flag (arguments : Arguments) (name : String) : Except Failure Bool :=
  match (arguments.values.get? name).bind Json.asBool? with
  | some b => .ok b
  | Option.none => .error (arguments.unreadable name .flag)

/-- A list of strings; nothing and `null` read as the empty list. -/
def textList (arguments : Arguments) (name : String) : Except Failure (List String) :=
  match arguments.values.get? name with
  | Option.none | some .null => .ok []
  | some (.array items) => items.mapM fun item => match item.asString? with
    | some s => .ok s
    | Option.none => .error (arguments.unreadable name .textList)
  | some _ => .error (arguments.unreadable name .textList)

end Arguments

end JavaAtlas
