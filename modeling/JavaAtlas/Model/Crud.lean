import JavaAtlas.Record.Schema

set_option autoImplicit false

/-! # Persistence operations

Operations and queries on persistent data that the analyzer finds in method bodies. -/

namespace JavaAtlas

/-- What a persistence operation does. -/
inductive CrudKind where
  | create
  | read
  | update
  | delete
deriving DecidableEq, Repr

namespace CrudKind

/-- Every kind with its name. -/
def table : List (String × CrudKind) :=
  [("CREATE", create), ("READ", read), ("UPDATE", update), ("DELETE", delete)]

/-- The name of the kind. -/
def name : CrudKind → String
  | create => "CREATE"
  | read => "READ"
  | update => "UPDATE"
  | delete => "DELETE"

theorem find?_name (kind : CrudKind) : Assoc.find? kind.name table = some kind := by
  cases kind <;> rfl

instance : WriteJson CrudKind := ⟨writeVariant table⟩

instance : Encode CrudKind := ⟨fun kind => .ok (.string kind.name)⟩

instance : WireKey CrudKind := ⟨name⟩

instance : Json.ReadJson CrudKind := ⟨Json.readVariant table⟩

end CrudKind

/-- What a query does with the persistent data. -/
inductive QueryKind where
  | read
  | write
  | named
deriving DecidableEq, Repr

namespace QueryKind

/-- Every kind with its name. -/
def table : List (String × QueryKind) := [("READ", read), ("WRITE", write), ("NAMED", named)]

/-- The name of the kind. -/
def name : QueryKind → String
  | read => "READ"
  | write => "WRITE"
  | named => "NAMED"

theorem find?_name (kind : QueryKind) : Assoc.find? kind.name table = some kind := by
  cases kind <;> rfl

instance : WriteJson QueryKind := ⟨writeVariant table⟩

instance : Encode QueryKind := ⟨fun kind => .ok (.string kind.name)⟩

instance : Json.ReadJson QueryKind := ⟨Json.readVariant table⟩

end QueryKind

/-- A persistence operation at a line. -/
structure CrudOperation where
  lineNumber : Int64 := 0
  operationType : Option CrudKind := none
deriving Inhabited

instance : Record CrudOperation where
  schema := {
    title := "JCRUDOperation"
    blank := {}
    members := [
      .of "line_number" (·.lineNumber) (fun v r => { r with lineNumber := v }),
      .of "operation_type" (·.operationType) (fun v r => { r with operationType := v })]
    fields := [
      .of "line_number" (·.lineNumber),
      .of "operation_type" (·.operationType)]
  }

/-- A query handed to a persistence interface at a line. -/
structure CrudQuery where
  lineNumber : Int64 := 0
  queryArguments : Option (List String) := none
  queryType : Option QueryKind := none
deriving Inhabited

instance : Record CrudQuery where
  schema := {
    title := "JCRUDQuery"
    blank := {}
    members := [
      .of "line_number" (·.lineNumber) (fun v r => { r with lineNumber := v }),
      .of "query_arguments" (·.queryArguments) (fun v r => { r with queryArguments := v }),
      .of "query_type" (·.queryType) (fun v r => { r with queryType := v })]
    fields := [
      .of "line_number" (·.lineNumber),
      .of "query_arguments" (·.queryArguments),
      .of "query_type" (·.queryType)]
  }

end JavaAtlas
