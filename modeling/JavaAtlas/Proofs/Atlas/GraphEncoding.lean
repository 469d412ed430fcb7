import JavaAtlas.Proofs.Atlas.CallingLines
import JavaAtlas.Proofs.Number.Rounding
import JavaAtlas.Proofs.Record.Kinds
import JavaAtlas.Proofs.Wire.Graph

set_option autoImplicit false

/-! # Call graphs that have a wire form

Both call graphs insert the ends of an edge before the edge and give it attributes of their own
names only, so encoding can fail on a weight and on nothing else. The weights of derived edges are
counts, which are finite. The weights of reported edges are texts, and a text may well spell an
infinity or not-a-number: exactly then the graph has no wire form (`callGraphs_encode_iff`). -/

namespace JavaAtlas

namespace CallGraph

open SymbolIndex

variable {index : SymbolIndex}

/-! ## The graph of the analyzer's edges -/

theorem weight_edgeOf (e : DependencyEdge) :
    (edgeOf e).weight = Literal.double? (Text.trim e.weight) := by
  unfold edgeOf
  show (Edge.withAttribute? (Edge.withAttribute? _ _ _) _ _).weight = _
  rw [Edge.weight_withAttribute?, Edge.weight_withAttribute?]

theorem attributesFree_edgeOf (e : DependencyEdge) : (edgeOf e).AttributesFree := by
  have hnone : Edge.AttributesFree
      { source := e.source.key, target := e.target.key, edgeType := e.edgeType
        weight := Literal.double? (Text.trim e.weight) } := fun _ h => absurd h List.not_mem_nil
  have hsource := hnone.withAttribute? "source_kind" (e.sourceKind.map .string) (by decide)
  have hdestination :=
    hsource.withAttribute? "destination_kind" (e.destinationKind.map .string) (by decide)
  exact hdestination.withAttribute linesAttribute _ (by decide)

theorem containsNode_ofEdges_iff {edges : List DependencyEdge} {key : String} :
    (ofEdges edges).containsNode key = true ↔
      ∃ e ∈ edges, e.source.key = key ∨ e.target.key = key := by
  unfold Graph.containsNode Dict.contains
  rw [nodes_ofEdges, Dict.get?_insertAllNew, Dict.get?_empty, Option.none_or,
    Assoc.find?_isSome_iff]
  simp only [Assoc.keys, List.map_flatMap, List.mem_flatMap, endNodes, List.map_cons, List.map_nil,
    List.mem_cons, List.not_mem_nil, or_false, eq_comm (a := key)]

theorem isPlain_ofEdges (edges : List DependencyEdge) : (ofEdges edges).IsPlain := by
  refine ⟨?_, ?_⟩
  · intro edge hedge
    rw [edges_ofEdges] at hedge
    obtain ⟨e, he, rfl⟩ := List.mem_map.1 hedge
    obtain ⟨hsource, htarget⟩ := Prod.mk.inj (ends_edgeOf e)
    rw [hsource, htarget]
    exact ⟨containsNode_ofEdges_iff.2 ⟨e, he, .inl rfl⟩,
      containsNode_ofEdges_iff.2 ⟨e, he, .inr rfl⟩⟩
  · intro edge hedge
    rw [edges_ofEdges] at hedge
    obtain ⟨e, -, rfl⟩ := List.mem_map.1 hedge
    exact attributesFree_edgeOf e

/-! ## The graph of the symbol table -/

theorem isPlain_ofSymbols (index : SymbolIndex) : (ofSymbols index).IsPlain := by
  refine ⟨?_, ?_⟩
  · intro edge hedge
    exact ⟨containsNode_ofSymbols_iff.2 ⟨edge, hedge, .inl rfl⟩,
      containsNode_ofSymbols_iff.2 ⟨edge, hedge, .inr rfl⟩⟩
  · intro edge hedge
    rw [edges_ofSymbols] at hedge
    obtain ⟨d, -, hedge⟩ := List.mem_flatMap.1 hedge
    obtain ⟨target, detail, lines, -, rfl⟩ := mem_edgesFrom.1 hedge
    have hnone : Edge.AttributesFree
        { source := d.key, target := target, edgeType := callEdgeType
          weight := some (.ofNat lines.length) } := fun _ h => absurd h List.not_mem_nil
    exact hnone.withAttribute linesAttribute _ (by decide)

/-- No more calls are grouped under a target than there are call sites. -/
theorem length_le_of_get?_targetsOf {d : DeclaredMethod} {target : String} {detail : MethodDetail}
    {lines : List Int64} (h : (targetsOf index d).get? target = some (detail, lines)) :
    lines.length ≤ d.method.callSites.length := by
  unfold targetsOf at h
  rw [get?_callTargets] at h
  obtain ⟨_, -, -, rfl⟩ := exists_of_groupOf_eq_some h
  -- the calls of a group are among the resolved ones, and not every call site is resolved
  rw [List.length_map]
  exact Nat.le_trans (List.length_filter_le ..) (List.length_filterMap_le ..)

/-- Counts of call sites that fit into a machine word are finite weights. -/
theorem weightFinite_of_mem_ofSymbols
    (hcounts : ∀ d ∈ declaredMethods index.table, d.method.callSites.length < Nat.pow 2 64)
    {edge : Edge} (hedge : edge ∈ (ofSymbols index).edges) : edge.WeightFinite := by
  rw [edges_ofSymbols] at hedge
  obtain ⟨d, hd, hedge⟩ := List.mem_flatMap.1 hedge
  obtain ⟨target, detail, lines, hlines, rfl⟩ := mem_edgesFrom.1 hedge
  intro weight hweight
  obtain rfl : Double.ofNat lines.length = weight := Option.some.inj hweight
  exact Double.isFinite_ofNat
    (Nat.lt_of_le_of_lt (length_le_of_get?_targetsOf hlines) (hcounts d hd))

end CallGraph

/-! ## Flattened edges -/

theorem CallEdgeSummary.exists_encode_iff {summary : CallEdgeSummary} :
    (∃ json, encode summary = .ok json) ↔
      ∀ weight, summary.weight = some weight → weight.isFinite = true := by
  show (∃ json, encodeRecord _ = .ok json) ↔ _
  rw [exists_encodeRecord_iff]
  have htext : ∀ text : String, ∃ json, encode text = .ok json := exists_encode
  simp only [List.forall_mem_cons, htext, true_and, List.not_mem_nil, false_implies, implies_true,
    and_true]
  cases summary.weight with
  | none => simp [encode]
  | some weight =>
    rw [encode_some, exists_encode_double_iff]
    simp

/-! ## The graphs of a report -/

/-- Whether the text of each weight, where it spells a number, spells a finite one. -/
def Report.WeightsFinite (report : Report) : Prop :=
  ∀ edge ∈ report.callGraph.getD [],
    ∀ weight ∈ Literal.double? (Text.trim edge.weight.text), weight.isFinite = true

instance : DecidablePred Report.WeightsFinite :=
  fun report => inferInstanceAs (Decidable (∀ edge ∈ report.callGraph.getD [], _))

/-- Whether the call sites of each method can be counted in a machine word, as they always can when
they are in the memory of a machine. -/
def Report.CallSitesCountable (report : Report) : Prop :=
  ∀ d ∈ SymbolIndex.declaredMethods report.symbolTable, d.method.callSites.length < Nat.pow 2 64

instance : DecidablePred Report.CallSitesCountable :=
  fun report =>
    inferInstanceAs (Decidable (∀ d ∈ SymbolIndex.declaredMethods report.symbolTable, _))

/-- All the other members are texts. -/
theorem CallEdgeSummary.exists_weight_of_error {summary : CallEdgeSummary} {e : EncodeError}
    (h : encode summary = .error e) :
    ∃ weight, summary.weight = some weight ∧ encode weight = .error e := by
  have htext : ∀ text : String, encode text ≠ .error e := by
    intro text herror
    cases herror
  have hweight : encode summary.weight = .error e := by
    simpa [htext] using exists_of_encodeRecord_eq_error h
  cases hcases : summary.weight with
  | none =>
    rw [hcases] at hweight
    cases hweight
  | some weight =>
    rw [hcases] at hweight
    exact ⟨weight, rfl, hweight⟩

namespace Atlas

open CallGraph SymbolIndex

theorem mem_callGraphEdges {atlas : Atlas} {summary : CallEdgeSummary} :
    summary ∈ atlas.callGraphEdges ↔ ∃ edge ∈ atlas.analyzerGraph.edges,
      atlas.analyzerGraph.node? edge.source = some summary.source ∧
        atlas.analyzerGraph.node? edge.target = some summary.target ∧
          summary.weight = edge.weight := by
  unfold callGraphEdges
  simp only [List.mem_filterMap, Option.bind_eq_bind, Option.bind_eq_some_iff, Option.some.injEq]
  constructor
  · rintro ⟨edge, hedge, source, hsource, target, htarget, rfl⟩
    exact ⟨edge, hedge, hsource, htarget, rfl⟩
  · rintro ⟨edge, hedge, hsource, htarget, hweight⟩
    exact ⟨edge, hedge, _, hsource, _, htarget, by rw [← hweight]⟩

theorem exists_encode_callGraphEdges_iff {atlas : Atlas} (hclosed : atlas.analyzerGraph.IsClosed) :
    (∃ json, encode atlas.callGraphEdges = .ok json) ↔
      ∀ edge ∈ atlas.analyzerGraph.edges, edge.WeightFinite := by
  rw [exists_encode_list_iff]
  constructor
  · intro hencode edge hedge
    obtain ⟨source, target, hsource, htarget⟩ := hclosed.exists_nodes hedge
    have hmem : ⟨source, target, edge.weight⟩ ∈ atlas.callGraphEdges :=
      mem_callGraphEdges.2 ⟨edge, hedge, hsource, htarget, rfl⟩
    exact CallEdgeSummary.exists_encode_iff.1 (hencode _ hmem)
  · intro hfinite summary hsummary
    obtain ⟨edge, hedge, -, -, hweight⟩ := mem_callGraphEdges.1 hsummary
    rw [CallEdgeSummary.exists_encode_iff, hweight]
    exact hfinite edge hedge

/-- Flattened edges fail with the error of a weight. -/
theorem exists_weight_of_callGraphEdges_error {atlas : Atlas} {e : EncodeError}
    (h : encode atlas.callGraphEdges = .error e) : ∃ edge ∈ atlas.analyzerGraph.edges,
      ∃ weight, edge.weight = some weight ∧ encode weight = .error e := by
  obtain ⟨summary, hsummary, he⟩ := exists_of_encode_list_eq_error h
  obtain ⟨edge, hedge, -, -, hweight⟩ := mem_callGraphEdges.1 hsummary
  obtain ⟨weight, hsome, he⟩ := CallEdgeSummary.exists_weight_of_error he
  exact ⟨edge, hedge, weight, hweight ▸ hsome, he⟩

variable {root : Path} {report : Report}

theorem isPlain_callGraph (source : GraphSource) :
    ((ofReport root report).callGraph source).IsPlain := by
  cases source with
  | symbolTable => exact isPlain_ofSymbols _
  | analyzer =>
    cases hreported : report.callGraph with
    | some reported =>
      rw [analyzerGraph_ofReport hreported]
      exact isPlain_ofEdges _
    | none =>
      rw [callGraph_eq_of_none hreported]
      exact isPlain_ofSymbols _

theorem weightFinite_symbolGraph (hcounts : report.CallSitesCountable) {edge : Edge}
    (hedge : edge ∈ ((ofReport root report).callGraph .symbolTable).edges) :
    edge.WeightFinite := by
  refine weightFinite_of_mem_ofSymbols ?_ hedge
  exact hcounts

theorem weightFinite_analyzerGraph_iff (hcounts : report.CallSitesCountable) :
    (∀ edge ∈ ((ofReport root report).callGraph .analyzer).edges, edge.WeightFinite) ↔
      report.WeightsFinite := by
  unfold Report.WeightsFinite
  cases hreported : report.callGraph with
  | some reported =>
    rw [analyzerGraph_ofReport hreported, edges_ofEdges, List.map_map, List.forall_mem_map]
    unfold Edge.WeightFinite
    simp only [Function.comp_apply, weight_edgeOf]
    rfl
  | none =>
    -- no edge was reported, and the graph of the symbol table stands in
    have hstand : (ofReport root report).callGraph .analyzer =
        (ofReport root report).callGraph .symbolTable := callGraph_eq_of_none hreported .analyzer
    rw [hstand]
    constructor
    · intro _ edge hedge
      exact absurd hedge List.not_mem_nil
    · intro _ edge hedge
      exact weightFinite_symbolGraph hcounts hedge

/-- **When the call graphs have a wire form.** No edge of either graph misses a node or has an
attribute with the name of a fixed member, and the graph of the symbol table always has a wire form.
The analyzer's graph and its flattened edges have one exactly if every weight that the report
spells is finite. -/
theorem callGraphs_encode_iff (root : Path) (report : Report)
    (hcounts : report.CallSitesCountable) :
    let atlas := ofReport root report
    (∀ source, (atlas.callGraph source).IsClosed ∧
      ∀ edge ∈ (atlas.callGraph source).edges, edge.AttributesFree) ∧
    (∃ json, encode (atlas.callGraph .symbolTable) = .ok json) ∧
    ((∃ json, encode (atlas.callGraph .analyzer) = .ok json) ↔ report.WeightsFinite) ∧
    ((∃ json, encode atlas.callGraphEdges = .ok json) ↔ report.WeightsFinite) := by
  intro atlas
  have hplain : ∀ source, (atlas.callGraph source).IsPlain := isPlain_callGraph
  refine ⟨fun source => ⟨(hplain source).closed, (hplain source).free⟩, ?_, ?_, ?_⟩
  · exact (hplain .symbolTable).exists_encode_iff.2 fun _ => weightFinite_symbolGraph hcounts
  · rw [(hplain .analyzer).exists_encode_iff]
    exact weightFinite_analyzerGraph_iff hcounts
  · rw [exists_encode_callGraphEdges_iff (hplain .analyzer).closed]
    exact weightFinite_analyzerGraph_iff hcounts

/-- A report whose only edge has the given text as its weight. -/
def weighedReport (weight : String) : Report where
  callGraph := some [{
    source := { typeDeclaration := "Order", signature := "place()" }
    target := { typeDeclaration := "Stock", signature := "take()" }
    edgeType := "CALL_DEP"
    weight := ⟨weight⟩ }]

theorem callGraphs_encode_iff_weighed :
    (weighedReport "3").CallSitesCountable ∧ (weighedReport "3").WeightsFinite ∧
      ∃ json, encode ((ofReport (.ofString "/p") (weighedReport "3")).callGraph .analyzer) =
        .ok json := by
  have hcounts : (weighedReport "3").CallSitesCountable := by decide
  have hfinite : (weighedReport "3").WeightsFinite := by decide +kernel
  exact ⟨hcounts, hfinite, (callGraphs_encode_iff _ _ hcounts).2.2.1.2 hfinite⟩

/-- A text that the reader takes for a report, with an infinite weight. -/
def boundlessText : String := "\x7b\"call_graph\":[\x7b\"weight\":\"inf\"\x7d]\x7d"

/-- A report that is read without a complaint may have a call graph without a wire form. -/
theorem boundless_weight_not_encoded :
    ¬∀ (root : Path) (text : String) (report : Report), Json.readText text = .ok report →
      let atlas := ofReport root report
      (∃ json, encode (atlas.callGraph .analyzer) = .ok json) ∧
        (∃ json, encode (atlas.callGraph .symbolTable) = .ok json) ∧
          ∃ json, encode atlas.callGraphEdges = .ok json := by
  intro hencode
  -- reading the text and judging the report is one computation, so the report is not written out
  have hread : (Json.readText boundlessText : Except Json.ReadError Report).toOption.any
      (fun report => decide (report.CallSitesCountable ∧ ¬report.WeightsFinite)) = true := by
    decide +kernel
  cases hreport : (Json.readText boundlessText : Except Json.ReadError Report) with
  | error e =>
    rw [hreport] at hread
    exact absurd hread (by simp [Except.toOption])
  | ok report =>
    rw [hreport] at hread
    obtain ⟨hcounts, hinfinite⟩ := of_decide_eq_true hread
    have hgraph := (hencode default boundlessText report hreport).1
    rw [(isPlain_callGraph .analyzer).exists_encode_iff,
      weightFinite_analyzerGraph_iff hcounts] at hgraph
    exact hinfinite hgraph

end Atlas

end JavaAtlas
