import JavaAtlas.Proofs.Atlas.GraphEncoding
import JavaAtlas.Proofs.Atlas.Shadowing

set_option autoImplicit false

/-! # Views of one relation

The callers of a method, its callees and the calls out of a class are all read off the edges of one
graph. An edge would be dropped if one of its ends were not a node, but both graphs are closed, and
a node has the key under which it stands. So each view goes in step with the edges that it is about
(`forall₂_callers`, `forall₂_callees`, `forall₂_callsOf`). -/

namespace JavaAtlas

open CallGraph

/-- Whether an entry shows an edge from one of its ends: the method at the other end, which stands
under a key, and the lines of the edge. -/
structure CallRelation.Shows (graph : CallGraph) (key : String) (edge : Edge)
    (relation : CallRelation) : Prop where
  node : graph.node? key = some relation.method
  key : relation.method.key = key
  lines : relation.callingLines = edgeLines edge

namespace Graph

variable {ν : Type}

theorem filter_outEdges (g : Graph ν) (source target : String) :
    (g.outEdges source).filter (·.target = target) = g.edgesBetween source target := by
  unfold outEdges edgesBetween
  rw [List.filter_filter]
  refine List.filter_congr fun edge _ => ?_
  rw [← Bool.decide_and]
  exact decide_eq_decide.2 and_comm

theorem filter_inEdges (g : Graph ν) (source target : String) :
    (g.inEdges target).filter (·.source = source) = g.edgesBetween source target := by
  unfold inEdges edgesBetween
  rw [List.filter_filter]
  refine List.filter_congr fun edge _ => ?_
  rw [← Bool.decide_and]

end Graph

namespace Atlas

open SymbolIndex

variable {atlas : Atlas} {source : GraphSource} {className signature : String}

/-! ## Answers of queries -/

theorem callers_eq {method : Callable} (h : atlas.method className signature = .ok method) :
    atlas.callers className signature source = .ok
      ⟨CallGraph.methodDetail className method,
        ((atlas.callGraph source).inEdges (MethodDetail.keyOf className signature)).filterMap
          fun edge => ((atlas.callGraph source).node? edge.source).map
            fun caller => ⟨caller, edgeLines edge⟩⟩ := by
  unfold callers methodDetail
  rw [h]
  rfl

theorem callees_eq {method : Callable} (h : atlas.method className signature = .ok method) :
    atlas.callees className signature source = .ok
      ⟨CallGraph.methodDetail className method,
        ((atlas.callGraph source).outEdges (MethodDetail.keyOf className signature)).filterMap
          fun edge => ((atlas.callGraph source).node? edge.target).map
            fun callee => ⟨callee, edgeLines edge⟩⟩ := by
  unfold callees methodDetail
  rw [h]
  rfl

theorem method_eq_ok_of_mem_keys {type : TypeDeclaration}
    (htype : atlas.classNamed className = .ok type)
    (hsignature : signature ∈ type.callableDeclarations.keys) :
    ∃ method, atlas.method className signature = .ok method := by
  obtain ⟨method, hmethod⟩ := Dict.mem_keys_iff.1 hsignature
  refine ⟨method, Fallible.bind_eq_ok_iff.2 ⟨type, htype, ?_⟩⟩
  rw [hmethod]

theorem classCalls_some_eq {method : Callable}
    (h : atlas.method className signature = .ok method) :
    atlas.classCalls className (some signature) source =
      .ok (callsOf (atlas.callGraph source) className signature) := by
  obtain ⟨type, htype, -⟩ := Fallible.bind_eq_ok_iff.1 h
  refine Fallible.bind_eq_ok_iff.2 ⟨type, htype, Fallible.bind_eq_ok_iff.2 ⟨method, h, ?_⟩⟩
  show Except.ok ([signature].flatMap _) = _
  rw [List.flatMap_singleton]

/-- The calls out of a class are those of its methods, one method after the other. -/
theorem classCalls_none_eq {type : TypeDeclaration}
    (htype : atlas.classNamed className = .ok type) :
    ∃ parts, (type.callableDeclarations.keys.mapM fun signature =>
        atlas.classCalls className (some signature) source) = .ok parts ∧
      atlas.classCalls className none source = .ok parts.flatten := by
  refine ⟨type.callableDeclarations.keys.map (callsOf (atlas.callGraph source) className), ?_, ?_⟩
  · rw [Fallible.mapM_eq_ok_iff, List.forall₂_map_right_iff]
    refine List.forall₂_same.2 fun signature hsignature => ?_
    obtain ⟨method, hmethod⟩ := method_eq_ok_of_mem_keys htype hsignature
    exact classCalls_some_eq hmethod
  · unfold classCalls
    rw [htype, ← List.flatMap_def]
    rfl

end Atlas

/-! ## Views in step with the edges -/

namespace CallGraph

/-- Whether every edge joins two nodes and every node has the key under which it stands. -/
structure IsSound (graph : CallGraph) : Prop where
  closed : graph.IsClosed
  keyed : ∀ key node, graph.node? key = some node → node.key = key

variable {graph : CallGraph}

/-- The entry that shows an edge from one of its ends. -/
theorem IsSound.exists_shows (h : IsSound graph) {key : String} {edge : Edge}
    (hkey : graph.containsNode key = true) :
    ∃ relation : CallRelation, (graph.node? key).map (fun method => ⟨method, edgeLines edge⟩) =
      some relation ∧ relation.Shows graph key edge := by
  obtain ⟨node, hnode⟩ := Graph.exists_node?_iff.2 hkey
  rw [hnode]
  exact ⟨⟨node, edgeLines edge⟩, rfl, hnode, h.keyed key node hnode, rfl⟩

end CallGraph

namespace Atlas

open SymbolIndex

variable {atlas : Atlas} {source : GraphSource} {className signature : String}

theorem forall₂_callers (hsound : IsSound (atlas.callGraph source)) {answer : MethodCallers}
    (h : atlas.callers className signature source = .ok answer) :
    List.Forall₂ (fun edge relation => relation.Shows (atlas.callGraph source) edge.source edge)
      ((atlas.callGraph source).inEdges (MethodDetail.keyOf className signature))
      answer.callers := by
  obtain ⟨target, -, h⟩ := Fallible.bind_eq_ok_iff.1 h
  obtain rfl := Except.ok.inj h
  refine Lists.forall₂_filterMap fun edge hedge => ?_
  exact hsound.exists_shows (hsound.closed edge (List.mem_filter.1 hedge).1).1

theorem forall₂_callees (hsound : IsSound (atlas.callGraph source)) {answer : MethodCallees}
    (h : atlas.callees className signature source = .ok answer) :
    List.Forall₂ (fun edge relation => relation.Shows (atlas.callGraph source) edge.target edge)
      ((atlas.callGraph source).outEdges (MethodDetail.keyOf className signature))
      answer.callees := by
  obtain ⟨target, -, h⟩ := Fallible.bind_eq_ok_iff.1 h
  obtain rfl := Except.ok.inj h
  refine Lists.forall₂_filterMap fun edge hedge => ?_
  exact hsound.exists_shows (hsound.closed edge (List.mem_filter.1 hedge).1).2

theorem forall₂_callsOf {graph : CallGraph} (hsound : IsSound graph) :
    List.Forall₂ (fun edge pair => graph.node? edge.source = some pair.1 ∧
        graph.node? edge.target = some pair.2)
      (graph.outEdges (MethodDetail.keyOf className signature))
      (callsOf graph className signature) := by
  refine Lists.forall₂_filterMap fun edge hedge => ?_
  obtain ⟨caller, callee, hcaller, hcallee⟩ :=
    hsound.closed.exists_nodes (List.mem_filter.1 hedge).1
  rw [hcaller, hcallee]
  exact ⟨(caller, callee), rfl, rfl, rfl⟩

/-- The calls out of a method are its callees, each with the method itself. -/
theorem forall₂_callsOf_callees (hsound : IsSound (atlas.callGraph source)) {answer : MethodCallees}
    (h : atlas.callees className signature source = .ok answer) :
    List.Forall₂ (fun pair relation => pair.2 = relation.method ∧
        (atlas.callGraph source).node? (MethodDetail.keyOf className signature) = some pair.1)
      (callsOf (atlas.callGraph source) className signature) answer.callees := by
  obtain ⟨target, -, h⟩ := Fallible.bind_eq_ok_iff.1 h
  obtain rfl := Except.ok.inj h
  refine Lists.forall₂_filterMap_filterMap fun edge hedge => ?_
  obtain ⟨hedge, hstart⟩ := List.mem_filter.1 hedge
  obtain ⟨caller, callee, hcaller, hcallee⟩ := hsound.closed.exists_nodes hedge
  rw [of_decide_eq_true hstart] at hcaller
  rw [of_decide_eq_true hstart, hcaller, hcallee]
  exact ⟨(caller, callee), ⟨callee, edgeLines edge⟩, rfl, rfl, rfl, rfl⟩

/-! ## One relation -/

/-- The entries that a filter by key leaves carry the lines of the edges to that key. -/
theorem lines_of_forall₂_shows {graph : CallGraph} {edges : List Edge} {other : Edge → String}
    {relations : List CallRelation} (key : String)
    (h : List.Forall₂ (fun edge relation => relation.Shows graph (other edge) edge) edges
      relations) :
    (relations.filter (·.method.key = key)).map CallRelation.callingLines =
      (edges.filter (other · = key)).map edgeLines := by
  refine (Lists.map_filter_eq_of_forall₂ (h.imp ?_)).symm
  intro edge relation hshows
  exact ⟨by rw [hshows.key], hshows.lines.symm⟩

/-- The lines that callees and callers have for a pair of methods are those of the edges that join
the pair. -/
theorem lines_agree (hsound : IsSound (atlas.callGraph source))
    {className signature other otherSignature : String} {callees : MethodCallees}
    {callers : MethodCallers} (hcallees : atlas.callees className signature source = .ok callees)
    (hcallers : atlas.callers other otherSignature source = .ok callers) :
    (callees.callees.filter (·.method.key = MethodDetail.keyOf other otherSignature)).map
        CallRelation.callingLines =
      (callers.callers.filter (·.method.key = MethodDetail.keyOf className signature)).map
        CallRelation.callingLines := by
  rw [lines_of_forall₂_shows _ (forall₂_callees hsound hcallees), Graph.filter_outEdges,
    lines_of_forall₂_shows _ (forall₂_callers hsound hcallers), Graph.filter_inEdges]

theorem isSound_callGraph {root : Path} {report : Report}
    (hkeyed : SignaturesKeyed report.symbolTable) (source : GraphSource) :
    IsSound ((ofReport root report).callGraph source) where
  closed := (isPlain_callGraph source).closed
  keyed := fun _ _ => key_of_node? hkeyed

/-- **Callers, callees and the calls of a class are views of one relation.** For a method that the
atlas has, they all have answers, and these go in step with the edges at the method, of which none
is dropped: each call out of a method is one of its callees together with the method itself. Callees
and callers have the same lines for a pair of methods, in the same order, and the calls out of a
class are those of its methods, in the order of declaration. -/
theorem callViews_agree (root : Path) (report : Report)
    (hkeyed : SignaturesKeyed report.symbolTable) (source : GraphSource) :
    let atlas := ofReport root report
    let graph := atlas.callGraph source
    (∀ className signature method, atlas.method className signature = .ok method →
      let key := MethodDetail.keyOf className signature
      ∃ callers callees calls,
        atlas.callers className signature source = .ok callers ∧
        atlas.callees className signature source = .ok callees ∧
        atlas.classCalls className (some signature) source = .ok calls ∧
        List.Forall₂ (fun edge relation => relation.Shows graph edge.source edge)
          (graph.inEdges key) callers.callers ∧
        List.Forall₂ (fun edge relation => relation.Shows graph edge.target edge)
          (graph.outEdges key) callees.callees ∧
        List.Forall₂ (fun edge pair => graph.node? edge.source = some pair.1 ∧
          graph.node? edge.target = some pair.2) (graph.outEdges key) calls ∧
        List.Forall₂ (fun pair relation => pair.2 = relation.method ∧
          graph.node? key = some pair.1) calls callees.callees) ∧
    (∀ className signature callees other otherSignature callers,
      atlas.callees className signature source = .ok callees →
      atlas.callers other otherSignature source = .ok callers →
        (callees.callees.filter (·.method.key = MethodDetail.keyOf other otherSignature)).map
            CallRelation.callingLines =
          (callers.callers.filter (·.method.key = MethodDetail.keyOf className signature)).map
            CallRelation.callingLines) ∧
    (∀ className type, atlas.classNamed className = .ok type → ∃ parts,
      (type.callableDeclarations.keys.mapM fun signature =>
        atlas.classCalls className (some signature) source) = .ok parts ∧
      atlas.classCalls className none source = .ok parts.flatten) := by
  intro atlas graph
  have hsound : IsSound graph := isSound_callGraph hkeyed source
  refine ⟨?_, ?_, fun className type htype => classCalls_none_eq htype⟩
  · intro className signature method hmethod key
    have hcallers : atlas.callers className signature source = _ := callers_eq hmethod
    have hcallees : atlas.callees className signature source = _ := callees_eq hmethod
    exact ⟨_, _, _, hcallers, hcallees, classCalls_some_eq hmethod,
      forall₂_callers hsound hcallers, forall₂_callees hsound hcallees, forall₂_callsOf hsound,
      forall₂_callsOf_callees hsound hcallees⟩
  · intro className signature callees other otherSignature callers hcallees hcallers
    exact lines_agree hsound hcallees hcallers

/-- The service of `serviceTable`; the analyzer reports one of its calls twice, a call to itself and
a call to a method that is not declared. -/
def serviceReport : Report :=
  let run : ReportedMethod := { typeDeclaration := "Service", signature := "run()" }
  let helper : ReportedMethod := { typeDeclaration := "Service", signature := "helper()" }
  let add : ReportedMethod := { typeDeclaration := "java.util.List", signature := "add(E)" }
  { symbolTable := serviceTable
    callGraph := some [{ source := run, target := helper }, { source := run, target := run },
      { source := run, target := helper }, { source := run, target := add }] }

theorem callViews_agree_service :
    let atlas := ofReport (.ofString "/p") serviceReport
    SignaturesKeyed serviceReport.symbolTable ∧
      ∃ callees callers, atlas.callees "Service" "run()" .analyzer = .ok callees ∧
        atlas.callers "Service" "helper()" .analyzer = .ok callers ∧
        callees.callees.length = 4 ∧ callers.callers.length = 2 ∧
        (callees.callees.filter (·.method.key = "Service#helper()")).map
            CallRelation.callingLines =
          (callers.callers.filter (·.method.key = "Service#run()")).map
            CallRelation.callingLines := by
  intro atlas
  have hkeyed : SignaturesKeyed serviceReport.symbolTable := by decide +kernel
  have hmethod : ∀ signature ∈ ["run()", "helper()"],
      ∃ method, atlas.method "Service" signature = .ok method := by
    have hfound : ∀ signature ∈ ["run()", "helper()"],
        (atlas.index.callable? "Service" signature).isSome = true := by decide +kernel
    intro signature hsignature
    obtain ⟨method, h⟩ := Option.isSome_iff_exists.1 (hfound signature hsignature)
    exact ⟨method, method_eq_ok_iff.2 h⟩
  obtain ⟨run, hrun⟩ := hmethod "run()" (by decide)
  obtain ⟨helper, hhelper⟩ := hmethod "helper()" (by decide)
  obtain ⟨hviews, hlines, -⟩ := callViews_agree (.ofString "/p") serviceReport hkeyed .analyzer
  obtain ⟨-, callees, -, -, hcallees, -, -, hout, -⟩ := hviews _ _ run hrun
  obtain ⟨callers, -, -, hcallers, -, -, hin, -⟩ := hviews _ _ helper hhelper
  have hedges : ((atlas.callGraph .analyzer).outEdges "Service#run()").length = 4 ∧
      ((atlas.callGraph .analyzer).inEdges "Service#helper()").length = 2 := by decide +kernel
  exact ⟨hkeyed, callees, callers, hcallees, hcallers, hout.length_eq ▸ hedges.1,
    hin.length_eq ▸ hedges.2, hlines _ _ _ _ _ _ hcallees hcallers⟩

end Atlas

end JavaAtlas
