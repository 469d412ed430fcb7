import JavaAtlas.Atlas.Calls
import JavaAtlas.Proofs.Atlas.SymbolGraph
import JavaAtlas.Proofs.Data.Except

set_option autoImplicit false

/-! # The lines of a call in the two graphs

The graph of the analyzer's edges takes the lines of a call from every call site with the signature
of the callee; the graph of the symbol table takes only those that refer to the callee. The lines
agree exactly if the caller has no other use for the signature (`callingLines_eq_linesTo_iff`). -/

namespace JavaAtlas

/-- Whether the caller calls no method with the signature of the callee but the callee. -/
def DeclaredMethod.UsesSignatureFor (caller callee : DeclaredMethod) : Prop :=
  ∀ site ∈ caller.method.callSites, site.calleeSignature = callee.signature →
    site.RefersTo caller.className callee.className callee.signature

instance (caller callee : DeclaredMethod) : Decidable (caller.UsesSignatureFor callee) :=
  inferInstanceAs (Decidable (∀ site ∈ caller.method.callSites, _ → _))

namespace CallGraph

open SymbolIndex

variable {table : Dict String CompilationUnit}

theorem callingLines_eq_linesTo_iff (caller callee : DeclaredMethod) :
    callingLines caller.method callee.signature = caller.linesTo callee ↔
      caller.UsesSignatureFor callee := by
  unfold callingLines DeclaredMethod.linesTo DeclaredMethod.UsesSignatureFor
  have hsublist : (caller.method.callSites.filter
        (CallSite.RefersTo caller.className callee.className callee.signature ·)).Sublist
      (caller.method.callSites.filter (·.calleeSignature = callee.signature)) :=
    List.monotone_filter_right _ fun _ href => decide_eq_true (of_decide_eq_true href).1
  constructor
  · intro hlines site hsite hsignature
    -- lists of sites of one length, one of which is a part of the other
    have hlength := congrArg List.length hlines
    rw [List.length_map, List.length_map] at hlength
    have hmem : site ∈ caller.method.callSites.filter (·.calleeSignature = callee.signature) :=
      List.mem_filter.2 ⟨hsite, decide_eq_true hsignature⟩
    rw [← hsublist.eq_of_length hlength.symm] at hmem
    exact of_decide_eq_true (List.mem_filter.1 hmem).2
  · intro huses
    congr 1
    refine List.filter_congr fun site hsite => decide_eq_decide.2 ⟨huses site hsite, And.left⟩

/-! ## The graph of the analyzer's edges -/

/-- The ends of a resolved edge under their keys. -/
def endNodes (e : DependencyEdge) : List (String × MethodDetail) :=
  [(e.source.key, e.source), (e.target.key, e.target)]

theorem foldl_addResolved (edges : List DependencyEdge) (graph : CallGraph) :
    edges.foldl addResolved graph =
      { nodes := graph.nodes.insertAllNew (edges.flatMap endNodes)
        edges := graph.edges ++ edges.map edgeOf } := by
  induction edges generalizing graph with
  | nil => simp
  | cons e rest ih =>
    rw [List.foldl_cons, ih]
    simp [addResolved, endNodes, Graph.addNode, Graph.addEdge, Dict.insertAllNew]

theorem edges_ofEdges (edges : List DependencyEdge) : (ofEdges edges).edges = edges.map edgeOf := by
  unfold ofEdges
  rw [foldl_addResolved]
  rfl

theorem nodes_ofEdges (edges : List DependencyEdge) :
    (ofEdges edges).nodes = Dict.empty.insertAllNew (edges.flatMap endNodes) := by
  unfold ofEdges
  rw [foldl_addResolved]
  rfl

theorem key_of_node?_ofEdges {edges : List DependencyEdge} {key : String} {node : MethodDetail}
    (h : (ofEdges edges).node? key = some node) : node.key = key := by
  rw [Graph.node?, nodes_ofEdges, Dict.get?_insertAllNew] at h
  have hmem := Assoc.mem_of_find?_eq_some h
  simp only [endNodes, List.mem_flatMap, List.mem_cons, List.not_mem_nil, or_false,
    Prod.mk.injEq] at hmem
  obtain ⟨_, _, ⟨rfl, rfl⟩ | ⟨rfl, rfl⟩⟩ := hmem <;> rfl

theorem ends_edgeOf (e : DependencyEdge) : ends (edgeOf e) = (e.source.key, e.target.key) := by
  unfold edgeOf
  cases e.sourceKind <;> cases e.destinationKind <;> rfl

theorem edgeLines_edgeOf (e : DependencyEdge) :
    edgeLines (edgeOf e) = callingLines e.source.method e.target.method.signature := by
  apply edgeLines_of_get?
  unfold edgeOf Edge.withAttribute
  rw [Dict.get?_insert, if_pos rfl]

/-- A reported method under the key of a declared one is that method. -/
theorem resolve_method_eq (hkeyed : SignaturesKeyed table) (honce : ClassesDeclaredOnce table)
    (hplain : ClassNamesPlain table) {reported : ReportedMethod}
    (hname : '#' ∉ reported.typeDeclaration.toList) {d : DeclaredMethod}
    (hd : d ∈ declaredMethods table) (hkey : ((ofTable table).resolve reported).key = d.key) :
    ((ofTable table).resolve reported).method = d.method := by
  obtain ⟨hclass, hsignature⟩ := keyOf_inj hname (hplain.of_mem hd) hkey
  simp only [resolve] at hclass hsignature ⊢
  have hfound : (ofTable table).callable? d.className d.signature = some d.method :=
    callable?_eq_some_iff.2 ⟨d, hd, honce.isFirst hd, rfl, rfl, rfl⟩
  cases hmethod : (ofTable table).callable? reported.typeDeclaration reported.signature with
  | none =>
    -- a stand-in has the reported signature, and the program declares a method with it
    rw [hmethod, Option.getD_none] at hsignature
    rw [hclass, show reported.signature = d.signature from hsignature, hfound] at hmethod
    exact absurd hmethod (Option.some_ne_none _)
  | some method =>
    rw [hmethod, Option.getD_some] at hsignature
    obtain ⟨e, he, hefirst, heclass, hesignature, rfl⟩ := callable?_eq_some_iff.1 hmethod
    rw [hkeyed e he] at hsignature
    rw [Option.getD_some, eq_of_isFirst he hd hefirst (honce.isFirst hd) (heclass.trans hclass)
      hsignature]

/-- No reported edge has the separator of method keys in the name of a class. -/
def EndNamesPlain (reported : List ReportedEdge) : Prop :=
  ∀ edge ∈ reported, '#' ∉ edge.source.typeDeclaration.toList ∧
    '#' ∉ edge.target.typeDeclaration.toList

instance (reported : List ReportedEdge) : Decidable (EndNamesPlain reported) :=
  inferInstanceAs (Decidable (∀ edge ∈ reported, _))

theorem edgeLines_ofEdges (hkeyed : SignaturesKeyed table) (honce : ClassesDeclaredOnce table)
    (hplain : ClassNamesPlain table) {reported : List ReportedEdge}
    (hnames : EndNamesPlain reported) {edge : Edge}
    (hedge : edge ∈ (ofEdges (reported.map (ofTable table).resolveEdge)).edges)
    {caller callee : DeclaredMethod} (hcaller : caller ∈ declaredMethods table)
    (hcallee : callee ∈ declaredMethods table) (hends : ends edge = (caller.key, callee.key)) :
    edgeLines edge = callingLines caller.method callee.signature := by
  rw [edges_ofEdges, List.map_map, List.mem_map] at hedge
  obtain ⟨r, hr, rfl⟩ := hedge
  obtain ⟨hsource, htarget⟩ := hnames r hr
  rw [Function.comp_apply, ends_edgeOf] at hends
  obtain ⟨hskey, htkey⟩ := Prod.mk.inj hends
  rw [Function.comp_apply, edgeLines_edgeOf]
  simp only [resolveEdge] at hskey htkey ⊢
  rw [resolve_method_eq hkeyed honce hplain hsource hcaller hskey,
    resolve_method_eq hkeyed honce hplain htarget hcallee htkey, hkeyed callee hcallee]

/-- A caller stands under its key as a declaration, a callee under the key of its node. -/
theorem key_of_node?_ofTable (hkeyed : SignaturesKeyed table) {key : String} {node : MethodDetail}
    (h : (ofSymbols (ofTable table)).node? key = some node) : node.key = key := by
  rw [node?_ofSymbols] at h
  have hmem := Assoc.mem_of_find?_eq_some h
  simp only [List.mem_flatMap, mem_nodesFrom] at hmem
  obtain ⟨d, hd, _, _, _, htarget, ⟨rfl, rfl⟩ | ⟨rfl, rfl⟩⟩ := hmem
  · exact hkeyed.key_detail hd
  · exact key_of_get?_callTargets htarget

end CallGraph

/-! ## The two graphs of an atlas -/

namespace Atlas

open SymbolIndex CallGraph

theorem mem_callers {atlas : Atlas} {className signature : String} {source : GraphSource}
    {answer : MethodCallers} (h : atlas.callers className signature source = .ok answer)
    {relation : CallRelation} (hmem : relation ∈ answer.callers) :
    ∃ edge ∈ (atlas.callGraph source).edges,
      edge.target = MethodDetail.keyOf className signature ∧
        (atlas.callGraph source).node? edge.source = some relation.method ∧
          relation.callingLines = edgeLines edge := by
  unfold callers at h
  obtain ⟨target, _, h⟩ := Fallible.bind_eq_ok_iff.1 h
  obtain rfl := Except.ok.inj h
  obtain ⟨edge, hedge, hrelation⟩ := List.mem_filterMap.1 hmem
  obtain ⟨hedge, hend⟩ := List.mem_filter.1 hedge
  obtain ⟨caller, hcaller, rfl⟩ := Option.map_eq_some_iff.1 hrelation
  exact ⟨edge, hedge, of_decide_eq_true hend, hcaller, rfl⟩

theorem mem_callees {atlas : Atlas} {className signature : String} {source : GraphSource}
    {answer : MethodCallees} (h : atlas.callees className signature source = .ok answer)
    {relation : CallRelation} (hmem : relation ∈ answer.callees) :
    ∃ edge ∈ (atlas.callGraph source).edges,
      edge.source = MethodDetail.keyOf className signature ∧
        (atlas.callGraph source).node? edge.target = some relation.method ∧
          relation.callingLines = edgeLines edge := by
  unfold callees at h
  obtain ⟨caller, _, h⟩ := Fallible.bind_eq_ok_iff.1 h
  obtain rfl := Except.ok.inj h
  obtain ⟨edge, hedge, hrelation⟩ := List.mem_filterMap.1 hmem
  obtain ⟨hedge, hend⟩ := List.mem_filter.1 hedge
  obtain ⟨callee, hcallee, rfl⟩ := Option.map_eq_some_iff.1 hrelation
  exact ⟨edge, hedge, of_decide_eq_true hend, hcallee, rfl⟩

variable {root : Path} {report : Report} {reported : List ReportedEdge}

theorem analyzerGraph_ofReport (hreported : report.callGraph = some reported) :
    (ofReport root report).callGraph .analyzer =
      ofEdges (reported.map (ofTable report.symbolTable).resolveEdge) := by
  simp only [ofReport, callGraph, hreported, Option.isSome_some, if_true, Option.getD_some]

/-- Two edges with the same ends, one from each graph, join declared methods; their lines agree
exactly if the caller uses the signature of the callee for the callee only. -/
theorem edgeLines_agree_iff (hreported : report.callGraph = some reported)
    (hkeyed : SignaturesKeyed report.symbolTable) (honce : ClassesDeclaredOnce report.symbolTable)
    (hplain : ClassNamesPlain report.symbolTable) (hnames : EndNamesPlain reported)
    {analyzed derived : Edge}
    (hanalyzed : analyzed ∈ ((ofReport root report).callGraph .analyzer).edges)
    (hderived : derived ∈ ((ofReport root report).callGraph .symbolTable).edges)
    (hends : ends analyzed = ends derived) :
    ∃ caller ∈ declaredMethods report.symbolTable, ∃ callee ∈ declaredMethods report.symbolTable,
      ends derived = (caller.key, callee.key) ∧
        (edgeLines analyzed = edgeLines derived ↔ caller.UsesSignatureFor callee) := by
  rw [analyzerGraph_ofReport hreported] at hanalyzed
  obtain ⟨caller, hcaller, callee, hcallee, _, _, rfl⟩ :=
    (mem_edges_ofTable hkeyed hplain).1 hderived
  refine ⟨caller, hcaller, callee, hcallee, rfl, ?_⟩
  rw [edgeLines_ofEdges hkeyed honce hplain hnames hanalyzed hcaller hcallee hends,
    edgeLines_callEdge, callingLines_eq_linesTo_iff]

/-- Without reported edges the graph of the symbol table stands in. -/
theorem callGraph_eq_of_none (hnone : report.callGraph = none) (source : GraphSource) :
    (ofReport root report).callGraph source = ofSymbols (ofTable report.symbolTable) := by
  cases source with
  | symbolTable => rfl
  | analyzer =>
    simp only [callGraph, ofReport, hnone, Option.isSome_none, Bool.false_eq_true, if_false]

/-- The key of a node, wherever a graph of the atlas has it, is the key of its method. -/
theorem key_of_node? (hkeyed : SignaturesKeyed report.symbolTable) {source : GraphSource}
    {key : String} {node : MethodDetail}
    (h : ((ofReport root report).callGraph source).node? key = some node) : node.key = key := by
  cases source with
  | symbolTable => exact key_of_node?_ofTable hkeyed h
  | analyzer =>
    cases hreported : report.callGraph with
    | some reported =>
      rw [analyzerGraph_ofReport hreported] at h
      exact key_of_node?_ofEdges h
    | none =>
      rw [callGraph_eq_of_none hreported] at h
      exact key_of_node?_ofTable hkeyed h

/-- **When the two graphs agree on lines.** For a caller and a callee that both graphs join, the
lines are the same exactly if the caller uses the signature of the callee for calls to the callee
only. This holds of the edges and of the answers about callers and callees. -/
theorem callingLines_agree_iff (root : Path) (report : Report) (reported : List ReportedEdge)
    (hreported : report.callGraph = some reported) (hkeyed : SignaturesKeyed report.symbolTable)
    (honce : ClassesDeclaredOnce report.symbolTable) (hplain : ClassNamesPlain report.symbolTable)
    (hnames : EndNamesPlain reported) :
    let atlas := ofReport root report
    let declared := declaredMethods report.symbolTable
    (∀ analyzed ∈ (atlas.callGraph .analyzer).edges,
      ∀ derived ∈ (atlas.callGraph .symbolTable).edges,
        analyzed.source = derived.source → analyzed.target = derived.target →
          ∃ caller ∈ declared, ∃ callee ∈ declared,
            derived.source = caller.key ∧ derived.target = callee.key ∧
              (edgeLines analyzed = edgeLines derived ↔ caller.UsesSignatureFor callee)) ∧
    (∀ className signature analyzed derived,
      atlas.callers className signature .analyzer = .ok analyzed →
      atlas.callers className signature .symbolTable = .ok derived →
        ∀ ra ∈ analyzed.callers, ∀ rd ∈ derived.callers, ra.method.key = rd.method.key →
          ∃ caller ∈ declared, ∃ callee ∈ declared, rd.method.key = caller.key ∧
            MethodDetail.keyOf className signature = callee.key ∧
              (ra.callingLines = rd.callingLines ↔ caller.UsesSignatureFor callee)) ∧
    (∀ className signature analyzed derived,
      atlas.callees className signature .analyzer = .ok analyzed →
      atlas.callees className signature .symbolTable = .ok derived →
        ∀ ra ∈ analyzed.callees, ∀ rd ∈ derived.callees, ra.method.key = rd.method.key →
          ∃ caller ∈ declared, ∃ callee ∈ declared,
            MethodDetail.keyOf className signature = caller.key ∧ rd.method.key = callee.key ∧
              (ra.callingLines = rd.callingLines ↔ caller.UsesSignatureFor callee)) := by
  intro atlas declared
  have hagree : ∀ analyzed ∈ (atlas.callGraph .analyzer).edges,
      ∀ derived ∈ (atlas.callGraph .symbolTable).edges,
        analyzed.source = derived.source → analyzed.target = derived.target →
          ∃ caller ∈ declared, ∃ callee ∈ declared,
            derived.source = caller.key ∧ derived.target = callee.key ∧
              (edgeLines analyzed = edgeLines derived ↔ caller.UsesSignatureFor callee) := by
    intro analyzed hanalyzed derived hderived hsource htarget
    obtain ⟨caller, hcaller, callee, hcallee, hends, hlines⟩ := edgeLines_agree_iff hreported hkeyed
      honce hplain hnames hanalyzed hderived (Prod.ext hsource htarget)
    obtain ⟨hskey, htkey⟩ := Prod.mk.inj hends
    exact ⟨caller, hcaller, callee, hcallee, hskey, htkey, hlines⟩
  refine ⟨hagree, ?_, ?_⟩
  · intro className signature analyzed derived hanalyzed hderived ra hra rd hrd hkey
    obtain ⟨a, ha, hatarget, hanode, halines⟩ := mem_callers hanalyzed hra
    obtain ⟨b, hb, hbtarget, hbnode, hblines⟩ := mem_callers hderived hrd
    rw [key_of_node? hkeyed hanode, key_of_node? hkeyed hbnode]
      at hkey
    rw [halines, hblines, key_of_node? hkeyed hbnode, ← hbtarget]
    exact hagree a ha b hb hkey (hatarget.trans hbtarget.symm)
  · intro className signature analyzed derived hanalyzed hderived ra hra rd hrd hkey
    obtain ⟨a, ha, hasource, hanode, halines⟩ := mem_callees hanalyzed hra
    obtain ⟨b, hb, hbsource, hbnode, hblines⟩ := mem_callees hderived hrd
    rw [key_of_node? hkeyed hanode, key_of_node? hkeyed hbnode]
      at hkey
    rw [halines, hblines, key_of_node? hkeyed hbnode, ← hbsource]
    exact hagree a ha b hb (hasource.trans hbsource.symm) hkey

/-- A client that starts an engine and a pump by methods with one signature. The analyzer reports
the call to the engine. -/
def starterReport : Report where
  symbolTable := tableOf [("Client.java", [
    ("Client", [{
      signature := "run()"
      callSites := [
        { receiverType := "Engine", calleeSignature := "start()", startLine := 5 },
        { receiverType := "Pump", calleeSignature := "start()", startLine := 6 }] }]),
    ("Engine", [{ signature := "start()" }]),
    ("Pump", [{ signature := "start()" }])])]
  callGraph := some [{
    source := { typeDeclaration := "Client", signature := "run()" }
    target := { typeDeclaration := "Engine", signature := "start()" }
    edgeType := "CALL_DEP" }]

theorem callingLines_agree_iff_starter :
    ∃ reported, starterReport.callGraph = some reported ∧
      SignaturesKeyed starterReport.symbolTable ∧ ClassesDeclaredOnce starterReport.symbolTable ∧
      ClassNamesPlain starterReport.symbolTable ∧ EndNamesPlain reported ∧
      ∀ analyzed ∈ ((ofReport (.ofString "/p") starterReport).callGraph .analyzer).edges,
        ∀ derived ∈ ((ofReport (.ofString "/p") starterReport).callGraph .symbolTable).edges,
          analyzed.source = derived.source → analyzed.target = derived.target →
            ∃ caller ∈ declaredMethods starterReport.symbolTable,
              ∃ callee ∈ declaredMethods starterReport.symbolTable,
                derived.source = caller.key ∧ derived.target = callee.key ∧
                  (edgeLines analyzed = edgeLines derived ↔ caller.UsesSignatureFor callee) := by
  have hkeyed : SignaturesKeyed starterReport.symbolTable := by decide +kernel
  have honce : ClassesDeclaredOnce starterReport.symbolTable := by decide +kernel
  have hplain : ClassNamesPlain starterReport.symbolTable := by decide +kernel
  have hnames : EndNamesPlain (starterReport.callGraph.getD []) := by decide +kernel
  obtain ⟨hedges, _⟩ := callingLines_agree_iff (.ofString "/p") starterReport _ rfl hkeyed honce
    hplain hnames
  exact ⟨_, rfl, hkeyed, honce, hplain, hnames, hedges⟩

/-- The edge that the analyzer reports has the line of the call to the pump too. -/
theorem callingLines_differ_starter :
    SignaturesKeyed starterReport.symbolTable ∧ ClassesDeclaredOnce starterReport.symbolTable ∧
    ClassNamesPlain starterReport.symbolTable ∧
    EndNamesPlain (starterReport.callGraph.getD []) ∧
    (((ofReport (.ofString "/p") starterReport).callGraph .analyzer).edgesBetween
      "Client#run()" "Engine#start()").map edgeLines = [[5, 6]] ∧
    (((ofReport (.ofString "/p") starterReport).callGraph .symbolTable).edgesBetween
      "Client#run()" "Engine#start()").map edgeLines = [[5]] := by
  decide +kernel

end Atlas

end JavaAtlas
