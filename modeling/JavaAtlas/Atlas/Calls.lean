import JavaAtlas.Atlas.Basic

set_option autoImplicit false

/-! # Queries over the call graphs

Callers, callees and the calls of a class are views of one relation, the edges of a call graph: an
edge counts when both of its ends are nodes. -/

namespace JavaAtlas

/-- A method at the other end of a call, with the lines of the call. -/
structure CallRelation where
  method : MethodDetail
  callingLines : List Int64

instance : Encode CallRelation where
  encode relation := encodeRecord [
    ("method", encode relation.method),
    ("calling_lines", encode relation.callingLines)]

/-- The methods that call a method. -/
structure MethodCallers where
  target : MethodDetail
  callers : List CallRelation

instance : Encode MethodCallers where
  encode relation := encodeRecord [
    ("target_method", encode relation.target),
    ("caller_details", encode relation.callers)]

/-- The methods that a method calls. -/
structure MethodCallees where
  source : MethodDetail
  callees : List CallRelation

instance : Encode MethodCallees where
  encode relation := encodeRecord [
    ("source_method", encode relation.source),
    ("callee_details", encode relation.callees)]

/-- One edge of a call graph with its ends spelled out. -/
structure CallEdgeSummary where
  source : MethodDetail
  target : MethodDetail
  weight : Option Double

instance : Encode CallEdgeSummary where
  encode summary := encodeRecord [
    ("source_class", encode summary.source.className),
    ("source_method_signature", encode summary.source.method.signature),
    ("source_method_body", encode summary.source.method.code),
    ("target_class", encode summary.target.className),
    ("target_method_signature", encode summary.target.method.signature),
    ("target_method_body", encode summary.target.method.code),
    ("weight", encode summary.weight)]

namespace Atlas

/-- The edges of the analyzer's graph. -/
def callGraphEdges (atlas : Atlas) : List CallEdgeSummary :=
  let graph := atlas.analyzerGraph
  graph.edges.filterMap fun edge => do
    let source ← graph.node? edge.source
    let target ← graph.node? edge.target
    some ⟨source, target, edge.weight⟩

/-- A method with its class. -/
def methodDetail (atlas : Atlas) (className signature : String) : Answer MethodDetail := do
  .ok (CallGraph.methodDetail className (← atlas.method className signature))

/-- The methods that call a method. -/
def callers (atlas : Atlas) (className signature : String) (source : GraphSource) :
    Answer MethodCallers := do
  let target ← atlas.methodDetail className signature
  let graph := atlas.callGraph source
  let edges := graph.inEdges (MethodDetail.keyOf className signature)
  .ok ⟨target, edges.filterMap fun edge =>
    (graph.node? edge.source).map fun caller => ⟨caller, CallGraph.edgeLines edge⟩⟩

/-- The methods that a method calls. -/
def callees (atlas : Atlas) (className signature : String) (source : GraphSource) :
    Answer MethodCallees := do
  let caller ← atlas.methodDetail className signature
  let graph := atlas.callGraph source
  let edges := graph.outEdges (MethodDetail.keyOf className signature)
  .ok ⟨caller, edges.filterMap fun edge =>
    (graph.node? edge.target).map fun callee => ⟨callee, CallGraph.edgeLines edge⟩⟩

/-- The calls out of one method, as pairs of caller and callee. -/
def callsOf (graph : CallGraph) (className signature : String) :
    List (MethodDetail × MethodDetail) :=
  (graph.outEdges (MethodDetail.keyOf className signature)).filterMap fun edge => do
    let caller ← graph.node? edge.source
    let callee ← graph.node? edge.target
    some (caller, callee)

/-- The calls out of a class, or out of one of its methods only. -/
def classCalls (atlas : Atlas) (className : String) (signature : Option String)
    (source : GraphSource) : Answer (List (MethodDetail × MethodDetail)) := do
  let type ← atlas.classNamed className
  let signatures ← match signature with
    | some signature => do
      let _ ← atlas.method className signature
      .ok [signature]
    | none => .ok type.callableDeclarations.keys
  .ok (signatures.flatMap (callsOf (atlas.callGraph source) className))

end Atlas

end JavaAtlas
