import JavaAtlas.Atlas.Calls
import JavaAtlas.Operation.Arguments

set_option autoImplicit false

/-! # The registry of operations

The registry holds operations in the order of their names, at most one under each name. Candidates
are discovered by the end of their names, which gives their kind; discovery does not depend on the
order in which they are offered. -/

namespace JavaAtlas

/-- What an operation does: it answers from the atlas and the files with a value that may have no
wire form. -/
abbrev Action := Atlas → FileSystem → Arguments → Except Failure Encoded

/-- An operation offered for registration. -/
structure Candidate where
  name : String
  description : String
  parameters : List Parameter
  shape : ResultShape
  action : Action

/-- A registered operation. -/
structure Operation where
  descriptor : Descriptor
  action : Action

namespace Operation

/-- The name of the operation. -/
def name (operation : Operation) : String := operation.descriptor.name

/-- A candidate registered as a kind. -/
def ofCandidate (kind : OperationKind) (c : Candidate) : Operation where
  descriptor := ⟨c.name, kind, c.parameters, c.shape, c.description⟩
  action := c.action

end Operation

/-- Operations in the order of their names. -/
structure Registry where
  operations : List Operation
deriving Inhabited

namespace Registry

/-- The registry without operations. -/
def empty : Registry := ⟨[]⟩

/-- The operation with a name. -/
def find? (registry : Registry) (name : String) : Option Operation :=
  registry.operations.find? (·.name = name)

/-- Puts an operation before the first one with a greater name. -/
def insertInOrder (operation : Operation) : List Operation → List Operation
  | [] => [operation]
  | other :: rest =>
    if operation.name < other.name then operation :: other :: rest
    else other :: insertInOrder operation rest

/-- Registers a candidate, unless its name is taken. -/
def register (registry : Registry) (kind : OperationKind) (c : Candidate) :
    Except Failure Registry :=
  match registry.find? c.name with
  | some _ => .error (.duplicateName c.name)
  | none => .ok ⟨insertInOrder (.ofCandidate kind c) registry.operations⟩

/-- The registry of the candidates whose names say what they are. -/
def discover (candidates : List Candidate) : Except Failure Registry :=
  let matching := candidates.filterMap fun c => (OperationKind.ofName? c.name).map (·, c)
  (sortByText (fun entry => entry.2.name) matching).foldlM
    (fun registry entry => registry.register entry.1 entry.2) empty

/-- The operation with a name, which must be there. -/
def resolve (registry : Registry) (name : String) : Except Failure Operation :=
  match registry.find? name with
  | some operation => .ok operation
  | none => .error (.unknownOperation name)

/-- The descriptors in the order of their names. -/
def list (registry : Registry) : List Descriptor :=
  registry.operations.map Operation.descriptor

/-- The names in order. -/
def names (registry : Registry) : List String := registry.operations.map Operation.name

/-- The number of operations. -/
def size (registry : Registry) : Nat := registry.operations.length

end Registry

end JavaAtlas
