import JavaAtlas.Model.Report
import JavaAtlas.Number.Literal
import JavaAtlas.Text.Blank
import JavaAtlas.Wire.Graph

set_option autoImplicit false

/-! # Call graphs

There are two call graphs over the methods of a program. One is drawn from the edges that the
analyzer resolved; the other is derived from the call sites in the symbol table whose callee is a
method of the program. In both a node is a method under the key of its class and signature, and an
edge carries the lines of the calls. -/

namespace JavaAtlas

/-! ## The symbol index -/

/-- The symbol table together with the file that each class is looked up in. -/
structure SymbolIndex where
  table : Dict String CompilationUnit
  /-- The first file that declares a class, by qualified name. -/
  classFiles : Dict String String
deriving Inhabited

namespace SymbolIndex

/-- The classes of a table, each with the first file that declares it. -/
def filesOfClasses (table : Dict String CompilationUnit) : Dict String String :=
  table.entries.foldl (fun files (file, unit) =>
    unit.typeDeclarations.keys.foldl (fun files name => files.insertNew name file) files) .empty

/-- The index of a table. -/
def ofTable (table : Dict String CompilationUnit) : SymbolIndex :=
  ⟨table, filesOfClasses table⟩

/-- The declaration of a class in the file that the index has for it. -/
def declaration? (index : SymbolIndex) (name : String) : Option TypeDeclaration := do
  let file ← index.classFiles.get? name
  let unit ← index.table.get? file
  unit.typeDeclarations.get? name

/-- The method of a class with a signature. -/
def callable? (index : SymbolIndex) (className signature : String) : Option Callable := do
  let type ← index.declaration? className
  type.callableDeclarations.get? signature

/-- A method that is named from outside: the declared method if there is one, else a stand-in that
has only a signature and a declaration. -/
def resolve (index : SymbolIndex) (reported : ReportedMethod) : MethodDetail :=
  let declared := reported.callableDeclaration
  let method := (index.callable? reported.typeDeclaration reported.signature).getD
    { signature := reported.signature, declaration := declared }
  { methodDeclaration := if declared.isEmpty then method.declaration else declared
    className := reported.typeDeclaration
    method := method }

/-- An edge with both of its ends resolved. -/
def resolveEdge (index : SymbolIndex) (edge : ReportedEdge) : DependencyEdge where
  source := index.resolve edge.source
  target := index.resolve edge.target
  edgeType := edge.edgeType
  weight := edge.weight.text
  sourceKind := edge.sourceKind
  destinationKind := edge.destinationKind

end SymbolIndex

/-! ## Graphs -/

/-- A call graph: its nodes are methods. -/
abbrev CallGraph := Graph MethodDetail

/-- Where the edges of a call graph come from. -/
inductive GraphSource where
  | analyzer
  | symbolTable
deriving DecidableEq, Repr

namespace CallGraph

/-- The name of the attribute that holds the lines of the calls. -/
def linesAttribute : String := "calling_lines"

/-- The type of the edges that are derived from call sites. -/
def callEdgeType : String := "CALL_DEP"

/-- Lines as an attribute. -/
def linesToJson (lines : List Int64) : Json := .array (lines.map fun line => .int line.toInt)

/-- The lines that an edge carries. -/
def edgeLines (edge : Edge) : List Int64 :=
  match (edge.attributes.get? linesAttribute).bind Json.asArray? with
  | some items => items.filterMap Json.asInt64?
  | none => []

/-- The lines on which a method calls a method with the given signature. -/
def callingLines (caller : Callable) (signature : String) : List Int64 :=
  (caller.callSites.filter (·.calleeSignature = signature)).map CallSite.startLine

/-! ### From the analyzer's edges -/

/-- The graph edge for a resolved edge. -/
def edgeOf (e : DependencyEdge) : Edge :=
  let edge : Edge :=
    { source := e.source.key
      target := e.target.key
      edgeType := e.edgeType
      weight := Literal.double? (Text.trim e.weight) }
  ((edge.withAttribute? "source_kind" (e.sourceKind.map .string)).withAttribute?
    "destination_kind" (e.destinationKind.map .string)).withAttribute linesAttribute
      (linesToJson (callingLines e.source.method e.target.method.signature))

/-- Adds a resolved edge and its ends to a graph. -/
def addResolved (graph : CallGraph) (e : DependencyEdge) : CallGraph :=
  ((graph.addNode e.source.key e.source).addNode e.target.key e.target).addEdge (edgeOf e)

/-- The graph of the edges that the analyzer resolved. -/
def ofEdges (edges : List DependencyEdge) : CallGraph :=
  edges.foldl addResolved .empty

/-! ### From call sites -/

/-- A method of a class as a node. -/
def methodDetail (className : String) (method : Callable) : MethodDetail where
  methodDeclaration := method.declaration
  className := className
  method := method

/-- The class and the method that a call site in class `className` refers to, if the program
declares that method. A site without a receiver type refers to its own class. -/
def targetOf (index : SymbolIndex) (className : String) (site : CallSite) :
    Option (String × Callable) :=
  if site.calleeSignature.isEmpty then none
  else
    let owner := if site.receiverType.isEmpty then className else site.receiverType
    (index.callable? owner site.calleeSignature).map fun method => (owner, method)

/-- The methods that the call sites refer to, each under its key with the lines of its calls. -/
def callTargets (index : SymbolIndex) (className : String) (sites : List CallSite) :
    Dict String (MethodDetail × List Int64) :=
  sites.foldl (fun targets site =>
    match targetOf index className site with
    | none => targets
    | some (owner, method) =>
      targets.alter (MethodDetail.keyOf owner method.signature) fun
        | none => (methodDetail owner method, [site.startLine])
        | some (detail, lines) => (detail, lines ++ [site.startLine]))
    .empty

/-- The edge from a caller to a method that it calls on some lines. -/
def callEdge (source target : String) (lines : List Int64) : Edge :=
  Edge.withAttribute
    { source := source, target := target, edgeType := callEdgeType
      weight := some (.ofNat lines.length) }
    linesAttribute (linesToJson lines)

/-- Adds the calls of one method to a graph. -/
def addCalls (index : SymbolIndex) (className signature : String) (method : Callable)
    (graph : CallGraph) : CallGraph :=
  let targets := callTargets index className method.callSites
  if targets.isEmpty then graph
  else
    let source := MethodDetail.keyOf className signature
    targets.entries.foldl
      (fun graph (target, detail, lines) =>
        (graph.addNode target detail).addEdge (callEdge source target lines))
      (graph.addNode source (methodDetail className method))

/-- The graph of the calls in the symbol table. -/
def ofSymbols (index : SymbolIndex) : CallGraph :=
  index.table.values.foldl (fun graph unit =>
    unit.typeDeclarations.entries.foldl (fun graph (className, type) =>
      type.callableDeclarations.entries.foldl (fun graph (signature, method) =>
        addCalls index className signature method graph) graph) graph) .empty

end CallGraph

end JavaAtlas
