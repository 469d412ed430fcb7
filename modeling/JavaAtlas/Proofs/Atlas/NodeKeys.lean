import JavaAtlas.Proofs.Atlas.CallViews
import JavaAtlas.Proofs.Atlas.Shadowing

set_option autoImplicit false

/-! # The keys of methods whose signatures are not their own

The symbol table has every method under a signature, and the method has a signature of its own,
which may differ or be missing. A caller stands in the graph under the signature of the table, a
callee under its own. The calls of a method are found from both ends if the two signatures agree
wherever calls are made, and unless one method has the signature of another there is no other way
(`findsCalls_iff`). -/

namespace JavaAtlas

open SymbolIndex

variable {table : Dict String CompilationUnit}

/-! ## Methods that take part in calls -/

theorem DeclaredMethod.linesTo_ne_nil_iff {caller callee : DeclaredMethod} :
    caller.linesTo callee ≠ [] ↔ ∃ site ∈ caller.method.callSites,
      site.RefersTo caller.className callee.className callee.signature := by
  unfold DeclaredMethod.linesTo
  simp

/-- Whether a method has a call site that resolves to another one. -/
def DeclaredMethod.CallsTo (table : Dict String CompilationUnit) (caller callee : DeclaredMethod) :
    Prop :=
  callee.IsFirst table ∧ caller.linesTo callee ≠ []

instance (caller callee : DeclaredMethod) : Decidable (caller.CallsTo table callee) :=
  inferInstanceAs (Decidable (_ ∧ _))

/-- Whether a method calls or is called. -/
def DeclaredMethod.TakesPart (table : Dict String CompilationUnit) (d : DeclaredMethod) : Prop :=
  ∃ other ∈ declaredMethods table, d.CallsTo table other ∨ other.CallsTo table d

instance (d : DeclaredMethod) : Decidable (d.TakesPart table) :=
  inferInstanceAs (Decidable (∃ other ∈ declaredMethods table, _))

namespace SymbolIndex

/-- The methods that take part in calls stand under their own signatures. -/
def InvolvedKeyed (table : Dict String CompilationUnit) : Prop :=
  ∀ d ∈ declaredMethods table, d.TakesPart table → d.method.signature = d.signature

/-- No method has the signature under which its class has another method. -/
def SignaturesApart (table : Dict String CompilationUnit) : Prop :=
  ∀ d ∈ declaredMethods table, ∀ other ∈ declaredMethods table, d.className = other.className →
    d.method.signature = other.signature → d.method.signature = d.signature

instance (table : Dict String CompilationUnit) : Decidable (InvolvedKeyed table) :=
  inferInstanceAs (Decidable (∀ d ∈ declaredMethods table, _))

instance (table : Dict String CompilationUnit) : Decidable (SignaturesApart table) :=
  inferInstanceAs (Decidable (∀ d ∈ declaredMethods table, _))

theorem InvolvedKeyed.key_detail (h : InvolvedKeyed table) {d : DeclaredMethod}
    (hd : d ∈ declaredMethods table) (hpart : d.TakesPart table) : d.detail.key = d.key := by
  unfold MethodDetail.key DeclaredMethod.detail DeclaredMethod.key
  rw [h d hd hpart]

end SymbolIndex

/-! ## The graph, whatever the signatures -/

namespace CallGraph

theorem exists_get?_targetsOf {caller callee : DeclaredMethod}
    (hcallee : callee ∈ declaredMethods table) (hcalls : caller.CallsTo table callee) :
    ∃ detail lines,
      (targetsOf (ofTable table) caller).get? callee.detail.key = some (detail, lines) := by
  obtain ⟨hfirst, hlines⟩ := hcalls
  obtain ⟨site, hsite, href⟩ := DeclaredMethod.linesTo_ne_nil_iff.1 hlines
  have hcall := resolvedCall?_eq_some_iff_detail.2 ⟨callee, hcallee, hfirst, href, rfl⟩
  unfold targetsOf
  rw [get?_callTargets]
  refine exists_groupOf_eq_some (List.mem_filter.2 ⟨List.mem_filterMap.2 ⟨site, hsite, hcall⟩, ?_⟩)
  exact decide_eq_true rfl

theorem exists_of_get?_targetsOf {caller : DeclaredMethod} {target : String} {detail : MethodDetail}
    {lines : List Int64}
    (h : (targetsOf (ofTable table) caller).get? target = some (detail, lines)) :
    ∃ callee ∈ declaredMethods table, caller.CallsTo table callee ∧ callee.detail = detail ∧
      callee.detail.key = target := by
  unfold targetsOf at h
  rw [get?_callTargets] at h
  obtain ⟨call, hcall, rfl, -⟩ := exists_of_groupOf_eq_some h
  obtain ⟨hcall, htarget⟩ := List.mem_filter.1 hcall
  obtain ⟨site, hsite, hcall⟩ := List.mem_filterMap.1 hcall
  obtain ⟨callee, hcallee, hfirst, href, rfl⟩ := resolvedCall?_eq_some_iff_detail.1 hcall
  exact ⟨callee, hcallee, ⟨hfirst, DeclaredMethod.linesTo_ne_nil_iff.2 ⟨site, hsite, href⟩⟩, rfl,
    of_decide_eq_true htarget⟩

/-- Every call has an edge, from the key of the caller in the table to the callee's own key. -/
theorem exists_edge_of_callsTo {caller callee : DeclaredMethod}
    (hcaller : caller ∈ declaredMethods table) (hcallee : callee ∈ declaredMethods table)
    (hcalls : caller.CallsTo table callee) :
    ∃ edge ∈ (ofSymbols (ofTable table)).edges,
      edge.source = caller.key ∧ edge.target = callee.detail.key := by
  obtain ⟨detail, lines, hget⟩ := exists_get?_targetsOf hcallee hcalls
  refine ⟨callEdge caller.key callee.detail.key lines, ?_, rfl, rfl⟩
  rw [edges_ofSymbols]
  exact List.mem_flatMap.2 ⟨caller, hcaller, mem_edgesFrom.2 ⟨_, detail, lines, hget, rfl⟩⟩

theorem exists_callsTo_of_mem_edges {edge : Edge}
    (hedge : edge ∈ (ofSymbols (ofTable table)).edges) :
    ∃ caller ∈ declaredMethods table, ∃ callee ∈ declaredMethods table,
      caller.CallsTo table callee ∧ edge.source = caller.key ∧
        edge.target = callee.detail.key := by
  rw [edges_ofSymbols] at hedge
  obtain ⟨caller, hcaller, hedge⟩ := List.mem_flatMap.1 hedge
  obtain ⟨target, detail, lines, hget, rfl⟩ := mem_edgesFrom.1 hedge
  obtain ⟨callee, hcallee, hcalls, -, hkey⟩ := exists_of_get?_targetsOf hget
  exact ⟨caller, hcaller, callee, hcallee, hcalls, rfl, hkey.symm⟩

/-- Every node is a method that takes part in calls, under one of its keys. -/
theorem exists_takesPart_of_node? {key : String} {node : MethodDetail}
    (h : (ofSymbols (ofTable table)).node? key = some node) :
    ∃ d ∈ declaredMethods table, d.TakesPart table ∧ node = d.detail ∧
      (key = d.key ∨ key = d.detail.key) := by
  rw [node?_ofSymbols] at h
  obtain ⟨caller, hcaller, hnode⟩ := List.mem_flatMap.1 (Assoc.mem_of_find?_eq_some h)
  obtain ⟨target, detail, lines, hget, hnode⟩ := mem_nodesFrom.1 hnode
  obtain ⟨callee, hcallee, hcalls, rfl, rfl⟩ := exists_of_get?_targetsOf hget
  rcases hnode with ⟨rfl, rfl⟩ | ⟨rfl, rfl⟩
  · exact ⟨caller, hcaller, ⟨callee, hcallee, .inl hcalls⟩, rfl, .inl rfl⟩
  · exact ⟨callee, hcallee, ⟨caller, hcaller, .inr hcalls⟩, rfl, .inr rfl⟩

/-- If the methods that take part in calls stand under their own signatures, each is the node under
its key. -/
theorem node?_of_involvedKeyed (honce : ClassesDeclaredOnce table) (hplain : ClassNamesPlain table)
    (hkeyed : InvolvedKeyed table) {d : DeclaredMethod} (hd : d ∈ declaredMethods table)
    (hnode : (ofSymbols (ofTable table)).containsNode d.key = true) :
    (ofSymbols (ofTable table)).node? d.key = some d.detail := by
  obtain ⟨node, hnode⟩ := Graph.exists_node?_iff.2 hnode
  obtain ⟨e, he, hpart, rfl, hkey⟩ := exists_takesPart_of_node? hnode
  rw [hkeyed.key_detail he hpart, or_self] at hkey
  rw [hnode, eq_of_key_eq honce hplain hd he hkey]

/-- Then every call has an edge between the nodes of its two methods. -/
theorem exists_edge_of_involvedKeyed (honce : ClassesDeclaredOnce table)
    (hplain : ClassNamesPlain table) (hkeyed : InvolvedKeyed table) {caller callee : DeclaredMethod}
    (hcaller : caller ∈ declaredMethods table) (hcallee : callee ∈ declaredMethods table)
    (hlines : caller.linesTo callee ≠ []) :
    ∃ edge ∈ (ofSymbols (ofTable table)).edges, edge.source = caller.key ∧
      edge.target = callee.key ∧
      (ofSymbols (ofTable table)).node? edge.source = some caller.detail ∧
      (ofSymbols (ofTable table)).node? edge.target = some callee.detail := by
  have hcalls : caller.CallsTo table callee := ⟨honce.isFirst hcallee, hlines⟩
  obtain ⟨edge, hedge, hsource, htarget⟩ := exists_edge_of_callsTo hcaller hcallee hcalls
  rw [hkeyed.key_detail hcallee ⟨caller, hcaller, .inr hcalls⟩] at htarget
  refine ⟨edge, hedge, hsource, htarget, ?_, ?_⟩
  · rw [hsource]
    exact node?_of_involvedKeyed honce hplain hkeyed hcaller
      (containsNode_ofSymbols_iff.2 ⟨edge, hedge, .inl hsource⟩)
  · rw [htarget]
    exact node?_of_involvedKeyed honce hplain hkeyed hcallee
      (containsNode_ofSymbols_iff.2 ⟨edge, hedge, .inr htarget⟩)

end CallGraph

/-! ## Calls found from both ends -/

namespace Atlas

open CallGraph

/-- Whether the graph of the symbol table has every method under one key: each call between declared
methods is found from the callee and from the caller, and a node stands under its own key. -/
structure FindsCalls (atlas : Atlas) : Prop where
  callers : ∀ caller ∈ declaredMethods atlas.symbolTable,
    ∀ callee ∈ declaredMethods atlas.symbolTable, caller.linesTo callee ≠ [] → ∃ answer,
      atlas.callers callee.className callee.signature .symbolTable = .ok answer ∧
        ∃ relation ∈ answer.callers, relation.method = caller.detail
  callees : ∀ caller ∈ declaredMethods atlas.symbolTable,
    ∀ callee ∈ declaredMethods atlas.symbolTable, caller.linesTo callee ≠ [] → ∃ answer,
      atlas.callees caller.className caller.signature .symbolTable = .ok answer ∧
        ∃ relation ∈ answer.callees, relation.method = callee.detail
  keyed : ∀ key node, (atlas.callGraph .symbolTable).node? key = some node → node.key = key

variable {root : Path} {report : Report}

theorem method_of_isFirst {d : DeclaredMethod} (hd : d ∈ declaredMethods report.symbolTable)
    (hfirst : d.IsFirst report.symbolTable) :
    (ofReport root report).method d.className d.signature = .ok d.method :=
  method_eq_ok_iff.2 (callable?_eq_some_iff.2 ⟨d, hd, hfirst, rfl, rfl, rfl⟩)

theorem findsCalls_of_involvedKeyed (honce : ClassesDeclaredOnce report.symbolTable)
    (hplain : ClassNamesPlain report.symbolTable) (hkeyed : InvolvedKeyed report.symbolTable) :
    (ofReport root report).FindsCalls where
  callers caller hcaller callee hcallee hlines := by
    obtain ⟨edge, hedge, -, htarget, hnode, -⟩ :=
      exists_edge_of_involvedKeyed honce hplain hkeyed hcaller hcallee hlines
    refine ⟨_, callers_eq (method_of_isFirst hcallee (honce.isFirst hcallee)),
      ⟨caller.detail, edgeLines edge⟩, List.mem_filterMap.2 ⟨edge, ?_, ?_⟩, rfl⟩
    · exact List.mem_filter.2 ⟨hedge, decide_eq_true htarget⟩
    · exact congrArg (Option.map _) hnode
  callees caller hcaller callee hcallee hlines := by
    obtain ⟨edge, hedge, hsource, -, -, hnode⟩ :=
      exists_edge_of_involvedKeyed honce hplain hkeyed hcaller hcallee hlines
    refine ⟨_, callees_eq (method_of_isFirst hcaller (honce.isFirst hcaller)),
      ⟨callee.detail, edgeLines edge⟩, List.mem_filterMap.2 ⟨edge, ?_, ?_⟩, rfl⟩
    · exact List.mem_filter.2 ⟨hedge, decide_eq_true hsource⟩
    · exact congrArg (Option.map _) hnode
  keyed key node hnode := by
    obtain ⟨d, hd, hpart, rfl, hkey⟩ := exists_takesPart_of_node? hnode
    rw [hkeyed.key_detail hd hpart, or_self] at hkey
    rw [hkeyed.key_detail hd hpart, hkey]

/-- A caller that is found from the callee shows that both stand under their own signatures, unless
one method has the signature of another. -/
theorem signatures_of_findsCalls (honce : ClassesDeclaredOnce report.symbolTable)
    (hplain : ClassNamesPlain report.symbolTable)
    (hapart : SignaturesApart report.symbolTable)
    (hfinds : (ofReport root report).FindsCalls) {caller callee : DeclaredMethod}
    (hcaller : caller ∈ declaredMethods report.symbolTable)
    (hcallee : callee ∈ declaredMethods report.symbolTable) (hlines : caller.linesTo callee ≠ []) :
    caller.method.signature = caller.signature ∧ callee.method.signature = callee.signature := by
  obtain ⟨answer, hanswer, relation, hrelation, hmethod⟩ :=
    hfinds.callers caller hcaller callee hcallee hlines
  obtain ⟨edge, hedge, htarget, hnode, -⟩ := mem_callers hanswer hrelation
  -- the edge may be the one for a call between two other methods
  obtain ⟨caller', hcaller', callee', hcallee', -, hsource', htarget'⟩ :=
    exists_callsTo_of_mem_edges hedge
  constructor
  · have hkey : caller.detail.key = caller'.key := by
      rw [← hmethod, hfinds.keyed _ _ hnode, hsource']
    obtain ⟨hclass, hsignature⟩ := keyOf_inj (hplain.of_mem hcaller) (hplain.of_mem hcaller') hkey
    exact hapart caller hcaller caller' hcaller' hclass hsignature
  · have hkey : callee'.detail.key = callee.key := htarget'.symm.trans htarget
    obtain ⟨hclass, hsignature⟩ := keyOf_inj (hplain.of_mem hcallee') (hplain.of_mem hcallee) hkey
    have hown := hapart callee' hcallee' callee hcallee hclass hsignature
    have hsame : callee' = callee := eq_of_isFirst hcallee' hcallee (honce.isFirst hcallee')
      (honce.isFirst hcallee) hclass (hown.symm.trans hsignature)
    exact hsame ▸ hown

/-- **When a method has one key.** Let every class be declared once and have a plain name. If the
methods that take part in calls stand under their own signatures, every call is found from both of
its ends and every node stands under its own key. Unless some method has the signature under which
its class has another one, this is so only if they do. -/
theorem findsCalls_iff (root : Path) (report : Report)
    (honce : ClassesDeclaredOnce report.symbolTable)
    (hplain : ClassNamesPlain report.symbolTable) :
    let atlas := ofReport root report
    let table := report.symbolTable
    (InvolvedKeyed table → atlas.FindsCalls) ∧
      (SignaturesApart table → (atlas.FindsCalls ↔ InvolvedKeyed table)) := by
  intro atlas table
  have hfound : InvolvedKeyed table → atlas.FindsCalls :=
    findsCalls_of_involvedKeyed honce hplain
  refine ⟨hfound, fun hapart => ⟨fun hfinds d hd hpart => ?_, hfound⟩⟩
  obtain ⟨other, hother, hcalls | hcalls⟩ := hpart
  · exact (signatures_of_findsCalls honce hplain hapart hfinds hd hother hcalls.2).1
  · exact (signatures_of_findsCalls honce hplain hapart hfinds hother hd hcalls.2).2

/-- A service whose helper has the signature that is given, and a method without one that nobody
calls. -/
def helpedTable (signature : String) : Dict String CompilationUnit := .ofList [
  ("Service.java", { typeDeclarations := .ofList [
    ("Service", { callableDeclarations := .ofList [
      ("run()", {
        signature := "run()"
        callSites := [{ calleeSignature := "helper()", startLine := 4 }] }),
      ("helper()", { signature := signature }),
      ("idle()", {})] })] })]

theorem findsCalls_iff_helped :
    ClassesDeclaredOnce (helpedTable "helper()") ∧ ClassNamesPlain (helpedTable "helper()") ∧
      InvolvedKeyed (helpedTable "helper()") ∧
      (ofReport (.ofString "/p") { symbolTable := helpedTable "helper()" }).FindsCalls := by
  have honce : ClassesDeclaredOnce (helpedTable "helper()") := by decide +kernel
  have hplain : ClassNamesPlain (helpedTable "helper()") := by decide +kernel
  have hkeyed : InvolvedKeyed (helpedTable "helper()") := by decide +kernel
  obtain ⟨hfound, -⟩ := findsCalls_iff (.ofString "/p") { symbolTable := helpedTable "helper()" }
    honce hplain
  exact ⟨honce, hplain, hkeyed, hfound hkeyed⟩

/-- A helper without a signature has a caller that is not found. -/
theorem unsigned_helper_not_found :
    let table := helpedTable ""
    let atlas := ofReport (.ofString "/p") { symbolTable := table }
    ClassesDeclaredOnce table ∧ ClassNamesPlain table ∧ SignaturesApart table ∧
      (∃ caller ∈ declaredMethods table, ∃ callee ∈ declaredMethods table,
        callee.signature = "helper()" ∧ caller.linesTo callee = [4]) ∧
      (atlas.callers "Service" "helper()" .symbolTable).toOption.map (·.callers.length) = some 0 ∧
      (atlas.callGraph .symbolTable).nodes.keys = ["Service#run()", "Service#"] := by
  decide +kernel

end Atlas

end JavaAtlas
