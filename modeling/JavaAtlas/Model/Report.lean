import JavaAtlas.Model.Application

set_option autoImplicit false

/-! # The output of the analyzer

The analyzer reports the symbol table in full and names the ends of edges; its edges are resolved
against the symbol table later. -/

namespace JavaAtlas

/-- An end of an edge as the analyzer names it. -/
structure ReportedMethod where
  filePath : String := ""
  typeDeclaration : String := ""
  signature : String := ""
  callableDeclaration : String := ""
deriving Inhabited

instance : Record ReportedMethod where
  schema := {
    title := "RawEndpoint"
    blank := {}
    members := [
      .of "file_path" (·.filePath) (fun v r => { r with filePath := v }),
      .of "type_declaration" (·.typeDeclaration) (fun v r => { r with typeDeclaration := v }),
      .of "signature" (·.signature) (fun v r => { r with signature := v }),
      .of "callable_declaration" (·.callableDeclaration)
        (fun v r => { r with callableDeclaration := v })]
  }

/-- The weight of an edge as text. The analyzer writes weights as strings or as numbers: a string
stands for itself, `null` for the empty text, and any other value for its compact text. -/
structure WeightText where
  text : String := ""
deriving Inhabited

namespace WeightText

/-- The text that a weight value stands for. -/
def ofJson : Json → WeightText
  | .string s => ⟨s⟩
  | .null => ⟨""⟩
  | value => ⟨value.compact⟩

instance : WriteJson WeightText := ⟨fun w => .string w.text⟩

instance : Encode WeightText := ⟨fun w => .ok (.string w.text)⟩

instance : Json.ReadJson WeightText where
  read depth outline := (Json.ReadJson.read depth outline).map ofJson

end WeightText

/-- An edge as the analyzer names it. -/
structure ReportedEdge where
  source : ReportedMethod := {}
  target : ReportedMethod := {}
  edgeType : String := ""
  weight : WeightText := {}
  sourceKind : Option String := none
  destinationKind : Option String := none
deriving Inhabited

instance : Record ReportedEdge where
  schema := {
    title := "RawGraphEdge"
    blank := {}
    members := [
      .of "source" (·.source) (fun v r => { r with source := v }),
      .of "target" (·.target) (fun v r => { r with target := v }),
      .of "type" (·.edgeType) (fun v r => { r with edgeType := v }),
      .of "weight" (·.weight) (fun v r => { r with weight := v }),
      .of "source_kind" (·.sourceKind) (fun v r => { r with sourceKind := v }),
      .of "destination_kind" (·.destinationKind) (fun v r => { r with destinationKind := v })]
  }

/-- The output of the analyzer. -/
structure Report where
  symbolTable : Dict String CompilationUnit := .empty
  callGraph : Option (List ReportedEdge) := none
  systemDependencyGraph : Option (List ReportedEdge) := none
deriving Inhabited

instance : Record Report where
  schema := {
    title := "RawApplication"
    blank := {}
    members := [
      .of "symbol_table" (·.symbolTable) (fun v r => { r with symbolTable := v }),
      .of "call_graph" (·.callGraph) (fun v r => { r with callGraph := v }),
      .of "system_dependency_graph" (·.systemDependencyGraph)
        (fun v r => { r with systemDependencyGraph := v })]
  }

end JavaAtlas
