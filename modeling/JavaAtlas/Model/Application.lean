import JavaAtlas.Model.TypeDeclaration

set_option autoImplicit false

/-! # Methods in context, edges and the application

Edges join methods that are resolved to their declarations, and the application is the symbol table
with the two edge lists. -/

namespace JavaAtlas

/-- A callable with its declaration and the class that owns it. -/
structure MethodDetail where
  methodDeclaration : String := ""
  className : String := ""
  method : Callable := {}
deriving Inhabited

instance : Record MethodDetail where
  schema := {
    title := "JMethodDetail"
    blank := {}
    members := [
      .of "method_declaration" (·.methodDeclaration) (fun v r => { r with methodDeclaration := v }),
      .of "klass" (·.className) (fun v r => { r with className := v }),
      .of "method" (·.method) (fun v r => { r with method := v })]
    fields := [
      .of "method_declaration" (·.methodDeclaration),
      .of "klass" (·.className),
      .of "method" (·.method)]
  }

namespace MethodDetail

/-- The key of a method in call graphs: its class and its signature. -/
def keyOf (className signature : String) : String := className ++ "#" ++ signature

/-- The key of the method. -/
def key (m : MethodDetail) : String := keyOf m.className m.method.signature

end MethodDetail

/-- An edge of the call graph or the dependency graph between two resolved methods. -/
structure DependencyEdge where
  source : MethodDetail := {}
  target : MethodDetail := {}
  edgeType : String := ""
  weight : String := ""
  sourceKind : Option String := none
  destinationKind : Option String := none
deriving Inhabited

instance : Record DependencyEdge where
  schema := {
    title := "JGraphEdges"
    blank := {}
    members := [
      .of "source" (·.source) (fun v r => { r with source := v }) .required,
      .of "target" (·.target) (fun v r => { r with target := v }) .required,
      .of "type" (·.edgeType) (fun v r => { r with edgeType := v }) .required,
      .of "weight" (·.weight) (fun v r => { r with weight := v }) .required,
      .of "source_kind" (·.sourceKind) (fun v r => { r with sourceKind := v }) .optionalInObject,
      .of "destination_kind" (·.destinationKind)
        (fun v r => { r with destinationKind := v }) .optionalInObject]
    fields := [
      .of "source" (·.source),
      .of "target" (·.target),
      .of "type" (·.edgeType),
      .of "weight" (·.weight),
      .of "source_kind" (·.sourceKind),
      .of "destination_kind" (·.destinationKind)]
  }

/-- The whole analyzed application. -/
structure Application where
  symbolTable : Dict String CompilationUnit := .empty
  callGraph : List DependencyEdge := []
  systemDependencyGraph : List DependencyEdge := []
deriving Inhabited

instance : Record Application where
  schema := {
    title := "JApplication"
    blank := {}
    members := [
      .of "symbol_table" (·.symbolTable) (fun v r => { r with symbolTable := v }),
      .of "call_graph" (·.callGraph) (fun v r => { r with callGraph := v }),
      .of "system_dependency_graph" (·.systemDependencyGraph)
        (fun v r => { r with systemDependencyGraph := v })]
    fields := [
      .of "symbol_table" (·.symbolTable),
      .of "call_graph" (·.callGraph),
      .of "system_dependency_graph" (·.systemDependencyGraph)]
  }

end JavaAtlas
