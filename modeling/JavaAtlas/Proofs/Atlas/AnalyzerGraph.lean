import JavaAtlas.Proofs.Atlas.GraphEncoding
import JavaAtlas.Proofs.Number.Literal

set_option autoImplicit false

/-! # The graph of the analyzer's edges

Every reported edge becomes one edge of the graph, and its ends become nodes, each under the key of
its class and signature. The first end with a key counts: it is the method that the symbol table
declares or a stand-in for it. The tie between an edge and its nodes is that resolving an end does
not change its key (`key_resolve`). -/

namespace JavaAtlas

/-! ## Ends of reported edges -/

/-- The key under which an end of an edge is named. -/
def ReportedMethod.key (reported : ReportedMethod) : String :=
  MethodDetail.keyOf reported.typeDeclaration reported.signature

/-- The ends of edges, in the order in which they come into a graph. -/
def reportedEnds (edges : List ReportedEdge) : List ReportedMethod :=
  edges.flatMap fun edge => [edge.source, edge.target]

/-- Whether the declaration of a class that counts has the method that an end names. -/
def DeclaredMethod.IsNamedBy (table : Dict String CompilationUnit) (d : DeclaredMethod)
    (reported : ReportedMethod) : Prop :=
  d ∈ SymbolIndex.declaredMethods table ∧ d.IsFirst table ∧
    d.className = reported.typeDeclaration ∧ d.signature = reported.signature

/-- What the node for an end of an edge is: the method that the symbol table has for it, or a
stand-in with the signature and the declaration that are reported. -/
structure StandsFor (table : Dict String CompilationUnit) (reported : ReportedMethod)
    (node : MethodDetail) : Prop where
  className : node.className = reported.typeDeclaration
  declared : ∀ d : DeclaredMethod, d.IsNamedBy table reported → node.method = d.method
  undeclared : (∀ d : DeclaredMethod, ¬d.IsNamedBy table reported) → node.method =
    { signature := reported.signature, declaration := reported.callableDeclaration }
  methodDeclaration : node.methodDeclaration =
    if reported.callableDeclaration.isEmpty then node.method.declaration
    else reported.callableDeclaration

namespace SymbolIndex

variable {table : Dict String CompilationUnit}

theorem callable?_eq_none_iff {reported : ReportedMethod} :
    (ofTable table).callable? reported.typeDeclaration reported.signature = none ↔
      ∀ d : DeclaredMethod, ¬d.IsNamedBy table reported := by
  constructor
  · rintro hnone d ⟨hd, hfirst, hclass, hsignature⟩
    rw [callable?_eq_some_iff.2 ⟨d, hd, hfirst, hclass, hsignature, rfl⟩] at hnone
    exact absurd hnone (by simp)
  · intro h
    refine Option.eq_none_iff_forall_ne_some.2 fun method hmethod => ?_
    obtain ⟨d, hd, hfirst, hclass, hsignature, -⟩ := callable?_eq_some_iff.1 hmethod
    exact h d ⟨hd, hfirst, hclass, hsignature⟩

theorem standsFor_resolve (reported : ReportedMethod) :
    StandsFor table reported ((ofTable table).resolve reported) where
  className := rfl
  declared := by
    rintro d ⟨hd, hfirst, hclass, hsignature⟩
    simp only [resolve]
    rw [callable?_eq_some_iff.2 ⟨d, hd, hfirst, hclass, hsignature, rfl⟩, Option.getD_some]
  undeclared := by
    intro hnone
    simp only [resolve]
    rw [callable?_eq_none_iff.2 hnone, Option.getD_none]
  methodDeclaration := rfl

/-- Resolving an end does not change its signature. -/
theorem signature_resolve (hkeyed : SignaturesKeyed table) (reported : ReportedMethod) :
    ((ofTable table).resolve reported).method.signature = reported.signature := by
  simp only [resolve]
  cases hmethod : (ofTable table).callable? reported.typeDeclaration reported.signature with
  | none => rfl
  | some method =>
    obtain ⟨d, hd, -, -, hsignature, rfl⟩ := callable?_eq_some_iff.1 hmethod
    exact (hkeyed d hd).trans hsignature

/-- Resolving an end does not change its key. -/
theorem key_resolve (hkeyed : SignaturesKeyed table) (reported : ReportedMethod) :
    ((ofTable table).resolve reported).key = reported.key :=
  congrArg (MethodDetail.keyOf reported.typeDeclaration) (signature_resolve hkeyed reported)

end SymbolIndex

/-! ## Edges -/

/-- Whether an edge of a graph draws an edge that was reported. -/
structure Draws (reported : ReportedEdge) (edge : Edge) : Prop where
  source : edge.source = reported.source.key
  target : edge.target = reported.target.key
  edgeType : edge.edgeType = reported.edgeType
  weight : ∀ x, edge.weight = some x ↔
    Literal.Spells (Text.trim reported.weight.text).toList x
  sourceKind : edge.attributes.get? "source_kind" = reported.sourceKind.map .string
  destinationKind : edge.attributes.get? "destination_kind" = reported.destinationKind.map .string

namespace CallGraph

open SymbolIndex

variable {table : Dict String CompilationUnit}

theorem kinds_edgeOf (e : DependencyEdge) :
    (edgeOf e).attributes.get? "source_kind" = e.sourceKind.map .string ∧
      (edgeOf e).attributes.get? "destination_kind" = e.destinationKind.map .string := by
  unfold edgeOf linesAttribute
  simp [Edge.get?_withAttribute, Edge.get?_withAttribute?]

theorem edgeType_edgeOf (e : DependencyEdge) : (edgeOf e).edgeType = e.edgeType := by
  unfold edgeOf
  cases e.sourceKind <;> cases e.destinationKind <;> rfl

theorem draws_edgeOf (hkeyed : SignaturesKeyed table) (reported : ReportedEdge) :
    Draws reported (edgeOf ((ofTable table).resolveEdge reported)) := by
  obtain ⟨hsource, htarget⟩ := Prod.mk.inj (ends_edgeOf ((ofTable table).resolveEdge reported))
  obtain ⟨hsourceKind, hdestinationKind⟩ := kinds_edgeOf ((ofTable table).resolveEdge reported)
  refine ⟨hsource.trans (key_resolve hkeyed _), htarget.trans (key_resolve hkeyed _),
    edgeType_edgeOf _, ?_, hsourceKind, hdestinationKind⟩
  intro x
  rw [weight_edgeOf, Literal.double?_eq_some_iff]
  rfl

/-! ## Nodes -/

theorem nodes_ofEdges_resolved (hkeyed : SignaturesKeyed table) (reported : List ReportedEdge) :
    (ofEdges (reported.map (ofTable table).resolveEdge)).nodes =
      Dict.empty.insertAllNew ((reportedEnds reported).map fun r =>
        (r.key, (ofTable table).resolve r)) := by
  unfold reportedEnds
  rw [nodes_ofEdges, List.flatMap_map, List.map_flatMap]
  congr 2
  funext edge
  show [(MethodDetail.key _, _), (MethodDetail.key _, _)] = _
  rw [resolveEdge, key_resolve hkeyed, key_resolve hkeyed]
  rfl

theorem keys_ofEdges (hkeyed : SignaturesKeyed table) (reported : List ReportedEdge) :
    (ofEdges (reported.map (ofTable table).resolveEdge)).nodes.keys =
      ((reportedEnds reported).map ReportedMethod.key).eraseDups := by
  rw [nodes_ofEdges_resolved hkeyed, Dict.keys_insertAllNew, Assoc.keys, List.map_map]
  rfl

/-- The node under a key is the first end with that key. -/
theorem node?_ofEdges (hkeyed : SignaturesKeyed table) (reported : List ReportedEdge)
    (key : String) :
    (ofEdges (reported.map (ofTable table).resolveEdge)).node? key =
      ((reportedEnds reported).find? (·.key = key)).map (ofTable table).resolve := by
  unfold Graph.node?
  rw [nodes_ofEdges_resolved hkeyed, Dict.get?_insertAllNew, Dict.get?_empty, Option.none_or,
    Assoc.find?_map]

theorem EndNamesPlain.of_mem_ends {reported : List ReportedEdge} (h : EndNamesPlain reported)
    {r : ReportedMethod} (hr : r ∈ reportedEnds reported) : '#' ∉ r.typeDeclaration.toList := by
  obtain ⟨edge, hedge, hr⟩ := List.mem_flatMap.1 hr
  obtain ⟨hsource, htarget⟩ := h edge hedge
  rcases List.mem_cons.1 hr with rfl | hr
  · exact hsource
  · exact List.mem_singleton.1 hr ▸ htarget

/-- Ends whose classes have no separator in their names have different keys if they name different
methods. -/
theorem named_eq_of_key_eq {reported : List ReportedEdge} (hnames : EndNamesPlain reported)
    {first second : ReportedMethod} (hfirst : first ∈ reportedEnds reported)
    (hsecond : second ∈ reportedEnds reported) (hkey : first.key = second.key) :
    first.typeDeclaration = second.typeDeclaration ∧ first.signature = second.signature :=
  keyOf_inj (hnames.of_mem_ends hfirst) (hnames.of_mem_ends hsecond) hkey

/-- If keys name methods, the node for an end is the method that the end names. -/
theorem exists_node?_of_mem_ends (hkeyed : SignaturesKeyed table) {reported : List ReportedEdge}
    (hnames : EndNamesPlain reported) {named : ReportedMethod}
    (hnamed : named ∈ reportedEnds reported) :
    ∃ node, (ofEdges (reported.map (ofTable table).resolveEdge)).node? named.key = some node ∧
      node.className = named.typeDeclaration ∧
        ∀ d : DeclaredMethod, d.IsNamedBy table named → node.method = d.method := by
  have hsome : ((reportedEnds reported).find? (·.key = named.key)).isSome = true :=
    List.find?_isSome.2 ⟨named, hnamed, decide_eq_true rfl⟩
  obtain ⟨first, hfirst⟩ := Option.isSome_iff_exists.1 hsome
  have hkey : first.key = named.key := by simpa using List.find?_some hfirst
  obtain ⟨hclass, hsignature⟩ :=
    named_eq_of_key_eq hnames (List.mem_of_find?_eq_some hfirst) hnamed hkey
  refine ⟨_, (node?_ofEdges hkeyed reported named.key).trans (congrArg _ hfirst), hclass, ?_⟩
  rintro d ⟨hd, hdfirst, hdclass, hdsignature⟩
  exact (standsFor_resolve first).declared d
    ⟨hd, hdfirst, hdclass.trans hclass.symm, hdsignature.trans hsignature.symm⟩

end CallGraph

/-! ## Flattened edges -/

/-- Whether a flattened edge spells out an edge of a graph. -/
structure CallEdgeSummary.Spells (edge : Edge) (summary : CallEdgeSummary) : Prop where
  source : MethodDetail.keyOf summary.source.className summary.source.method.signature = edge.source
  target : MethodDetail.keyOf summary.target.className summary.target.method.signature = edge.target
  weight : summary.weight = edge.weight

namespace Atlas

open SymbolIndex CallGraph

/-- In a closed graph whose nodes stand under their own keys, flattening drops no edge. -/
theorem forall₂_callGraphEdges {atlas : Atlas} (hclosed : atlas.analyzerGraph.IsClosed)
    (hkeys : ∀ key node, atlas.analyzerGraph.node? key = some node → node.key = key) :
    List.Forall₂ CallEdgeSummary.Spells atlas.analyzerGraph.edges atlas.callGraphEdges := by
  unfold callGraphEdges
  refine Lists.forall₂_filterMap fun edge hedge => ?_
  obtain ⟨source, target, hsource, htarget⟩ := hclosed.exists_nodes hedge
  rw [hsource, htarget]
  exact ⟨⟨source, target, edge.weight⟩, rfl, hkeys _ _ hsource, hkeys _ _ htarget, rfl⟩

/-- **The graph of the analyzer's edges is exact.** It draws every reported edge, in order. Its
nodes are the ends of the edges, each under its own key, and the first end with a key is the one
that counts: the method that the symbol table has for it, or a stand-in. Flattening the edges loses
none of them. Without reported edges, queries do not depend on the source of the graph. -/
theorem analyzerGraph_exact (root : Path) (report : Report) :
    let atlas := ofReport root report
    let table := report.symbolTable
    let graph := atlas.callGraph .analyzer
    (∀ reported, report.callGraph = some reported → SignaturesKeyed table →
      List.Forall₂ Draws reported graph.edges ∧
      graph.nodes.keys = ((reportedEnds reported).map ReportedMethod.key).eraseDups ∧
      (∀ key node, graph.node? key = some node → node.key = key ∧
        ∃ first, (reportedEnds reported).find? (·.key = key) = some first ∧
          StandsFor table first node) ∧
      (EndNamesPlain reported → ∀ named ∈ reportedEnds reported,
        ∃ node, graph.node? named.key = some node ∧ node.className = named.typeDeclaration ∧
          ∀ d : DeclaredMethod, d.IsNamedBy table named → node.method = d.method) ∧
      List.Forall₂ CallEdgeSummary.Spells graph.edges atlas.callGraphEdges) ∧
    (report.callGraph = none → atlas.application.callGraph = [] ∧
      ∀ source other : GraphSource, atlas.callGraph source = atlas.callGraph other ∧
        ∀ className signature,
          atlas.callers className signature source = atlas.callers className signature other ∧
          atlas.callees className signature source = atlas.callees className signature other ∧
          ∀ only, atlas.classCalls className only source =
            atlas.classCalls className only other) := by
  intro atlas table graph
  constructor
  · intro reported hreported hkeyed
    have hgraph : graph = ofEdges (reported.map (ofTable table).resolveEdge) :=
      analyzerGraph_ofReport hreported
    have hnode : ∀ key node, graph.node? key = some node →
        ∃ first, (reportedEnds reported).find? (·.key = key) = some first ∧
          StandsFor table first node := by
      intro key node h
      rw [hgraph, node?_ofEdges hkeyed] at h
      obtain ⟨first, hfirst, rfl⟩ := Option.map_eq_some_iff.1 h
      exact ⟨first, hfirst, standsFor_resolve first⟩
    have hkey : ∀ key node, graph.node? key = some node → node.key = key :=
      fun key node h => key_of_node? hkeyed h
    refine ⟨?_, ?_, fun key node h => ⟨hkey key node h, hnode key node h⟩, ?_, ?_⟩
    · rw [hgraph, edges_ofEdges, List.map_map, List.forall₂_map_right_iff]
      exact List.forall₂_same.2 fun r _ => draws_edgeOf hkeyed r
    · rw [hgraph]
      exact keys_ofEdges hkeyed reported
    · intro hnames named hnamed
      rw [hgraph]
      exact exists_node?_of_mem_ends hkeyed hnames hnamed
    · exact forall₂_callGraphEdges (isPlain_callGraph .analyzer).closed hkey
  · intro hnone
    refine ⟨?_, fun source other => ?_⟩
    · simp [atlas, application, ofReport, hnone]
    · have hsame : atlas.callGraph source = atlas.callGraph other :=
        (callGraph_eq_of_none hnone source).trans (callGraph_eq_of_none hnone other).symm
      refine ⟨hsame, fun className signature => ⟨?_, ?_, fun only => ?_⟩⟩
      · unfold callers
        rw [hsame]
      · unfold callees
        rw [hsame]
      · unfold classCalls
        rw [hsame]

/-- A program with one method, and the edges that are reported for it. The method that it calls is
not declared and is reported with two declarations; the last edge is a loop. -/
def orderReport (edges : Option (List ReportedEdge)) : Report where
  symbolTable := tableOf [("Order.java", [("Order", [{ signature := "place()" }])])]
  callGraph := edges

/-- The edges that are reported for a program with one method. -/
def orderEdges : List ReportedEdge :=
  let place : ReportedMethod := { typeDeclaration := "Order", signature := "place()" }
  let take : ReportedMethod := { typeDeclaration := "Stock", signature := "take()" }
  [{ source := place, target := { take with callableDeclaration := "int take()" }
     edgeType := "CALL_DEP", weight := ⟨" 2.5e1 "⟩, sourceKind := some "class" },
   { source := place, target := { take with callableDeclaration := "void take()" }
     edgeType := "CALL_DEP", weight := ⟨"many"⟩ },
   { source := place, target := place, edgeType := "CALL_DEP" }]

theorem analyzerGraph_exact_order :
    let graph := (ofReport (.ofString "/p") (orderReport (some orderEdges))).callGraph .analyzer
    let quiet := ofReport (.ofString "/p") (orderReport none)
    SignaturesKeyed (orderReport (some orderEdges)).symbolTable ∧
      List.Forall₂ Draws orderEdges graph.edges ∧
      graph.nodes.keys = ["Order#place()", "Stock#take()"] ∧
      (∀ node, graph.node? "Stock#take()" = some node →
        node.method = { signature := "take()", declaration := "int take()" }) ∧
      quiet.callGraph .analyzer = quiet.callGraph .symbolTable := by
  intro graph quiet
  have hkeyed : SignaturesKeyed (orderReport (some orderEdges)).symbolTable := by decide +kernel
  obtain ⟨hedges, hkeys, hnodes, -⟩ :=
    (analyzerGraph_exact (.ofString "/p") (orderReport (some orderEdges))).1 orderEdges rfl hkeyed
  obtain ⟨-, hquiet⟩ := (analyzerGraph_exact (.ofString "/p") (orderReport none)).2 rfl
  refine ⟨hkeyed, hedges, hkeys.trans (by decide), ?_, (hquiet _ _).1⟩
  intro node hnode
  obtain ⟨-, first, hfirst, hstands⟩ := hnodes _ node hnode
  -- of the two reported declarations the first one counts
  have htake : (reportedEnds orderEdges).find? (·.key = "Stock#take()") = some
      { typeDeclaration := "Stock", signature := "take()", callableDeclaration := "int take()" } :=
    rfl
  obtain rfl := Option.some.inj (htake.symm.trans hfirst)
  refine hstands.undeclared ?_
  rintro d ⟨hd, -, hclass, -⟩
  have hdeclared : ∀ d ∈ declaredMethods (orderReport (some orderEdges)).symbolTable,
      d.className ≠ "Stock" := by decide +kernel
  exact hdeclared d hd hclass

end Atlas

end JavaAtlas
