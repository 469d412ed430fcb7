import JavaAtlas.Proofs.Atlas.ResolvedCalls
import JavaAtlas.Proofs.Data.Lists

set_option autoImplicit false

/-! # The graph of the symbol table, exactly

A call site refers to one class and one signature, and if the program declares that method the site
counts towards the one edge to it. `mem_edges_ofTable` and `exists_of_node?_ofTable` say this of the
whole graph in terms of declared methods; keys are injective, so one pair of keys has at most one
edge. -/

namespace JavaAtlas

/-! ## What a call site refers to -/

/-- Whether a call site in class `className` refers to the method of class `owner` with a signature:
by its receiver type, or, without one, within its own class. -/
def CallSite.RefersTo (className owner signature : String) (site : CallSite) : Prop :=
  site.calleeSignature = signature ∧ signature ≠ "" ∧
    (site.receiverType ≠ "" ∧ site.receiverType = owner ∨
      site.receiverType = "" ∧ owner = className)

instance (className owner signature : String) :
    DecidablePred (CallSite.RefersTo className owner signature) :=
  fun _ => inferInstanceAs (Decidable (_ ∧ _))

/-- The lines on which a method calls another one, in the order of call sites. -/
def DeclaredMethod.linesTo (caller callee : DeclaredMethod) : List Int64 :=
  (caller.method.callSites.filter
    (CallSite.RefersTo caller.className callee.className callee.signature ·)).map CallSite.startLine

/-- The edges from one key to another, in order. -/
def Graph.edgesBetween {ν : Type} (g : Graph ν) (source target : String) : List Edge :=
  g.edges.filter fun edge => edge.source = source ∧ edge.target = target

namespace CallGraph

open SymbolIndex

variable {table : Dict String CompilationUnit}

theorem targetOf_eq_some_iff {index : SymbolIndex} {className owner : String} {site : CallSite}
    {method : Callable} :
    targetOf index className site = some (owner, method) ↔
      site.RefersTo className owner site.calleeSignature ∧
        index.callable? owner site.calleeSignature = some method := by
  unfold targetOf CallSite.RefersTo
  simp only [String.isEmpty_iff]
  by_cases hsignature : site.calleeSignature = ""
  · simp [hsignature]
  · by_cases hreceiver : site.receiverType = ""
    · simp only [if_neg hsignature, if_pos hreceiver, Option.map_eq_some_iff, Prod.mk.injEq]
      constructor
      · rintro ⟨method', hmethod, rfl, rfl⟩
        exact ⟨⟨trivial, hsignature, .inr ⟨hreceiver, rfl⟩⟩, hmethod⟩
      · rintro ⟨⟨_, _, ⟨hne, _⟩ | ⟨_, rfl⟩⟩, hmethod⟩
        · exact absurd hreceiver hne
        · exact ⟨method, hmethod, rfl, rfl⟩
    · simp only [if_neg hsignature, if_neg hreceiver, Option.map_eq_some_iff, Prod.mk.injEq]
      constructor
      · rintro ⟨method', hmethod, rfl, rfl⟩
        exact ⟨⟨trivial, hsignature, .inl ⟨hreceiver, rfl⟩⟩, hmethod⟩
      · rintro ⟨⟨_, _, ⟨_, rfl⟩ | ⟨heq, _⟩⟩, hmethod⟩
        · exact ⟨method, hmethod, rfl, rfl⟩
        · exact absurd heq hreceiver

/-- A site makes a call exactly when it refers to a method of a first declaration. The target is the
key of that method as a node. -/
theorem resolvedCall?_eq_some_iff_detail {className : String} {site : CallSite}
    {call : ResolvedCall} :
    resolvedCall? (ofTable table) className site = some call ↔
      ∃ callee ∈ declaredMethods table, callee.IsFirst table ∧
        site.RefersTo className callee.className callee.signature ∧
          call = ⟨callee.detail.key, callee.detail, site.startLine⟩ := by
  unfold resolvedCall?
  simp only [Option.map_eq_some_iff, Prod.exists, targetOf_eq_some_iff, callable?_eq_some_iff]
  constructor
  · rintro ⟨owner, method, ⟨href, callee, hcallee, hfirst, rfl, hsignature, rfl⟩, rfl⟩
    exact ⟨callee, hcallee, hfirst, hsignature ▸ href, rfl⟩
  · rintro ⟨callee, hcallee, hfirst, href, rfl⟩
    exact ⟨callee.className, callee.method, ⟨href.1 ▸ href, callee, hcallee, hfirst, rfl,
      href.1.symm, rfl⟩, rfl⟩

/-- If methods stand under their own signatures, the target is the key of the declared method. -/
theorem resolvedCall?_eq_some_iff (hkeyed : SignaturesKeyed table) {className : String}
    {site : CallSite} {call : ResolvedCall} :
    resolvedCall? (ofTable table) className site = some call ↔
      ∃ callee ∈ declaredMethods table, callee.IsFirst table ∧
        site.RefersTo className callee.className callee.signature ∧
          call = ⟨callee.key, callee.detail, site.startLine⟩ := by
  rw [resolvedCall?_eq_some_iff_detail]
  refine exists_congr fun callee => and_congr_right fun hcallee => ?_
  rw [hkeyed.key_detail hcallee]

/-! ## What the calls of one method amount to -/

/-- The calls under the key of a method are the calls of the sites that refer to it. -/
theorem filter_resolvedCalls (hkeyed : SignaturesKeyed table) (hplain : ClassNamesPlain table)
    {callee : DeclaredMethod} (hcallee : callee ∈ declaredMethods table)
    (hfirst : callee.IsFirst table) (className : String) (sites : List CallSite) :
    (resolvedCalls (ofTable table) className sites).filter (·.target = callee.key) =
      (sites.filter (CallSite.RefersTo className callee.className callee.signature ·)).map
        fun site => ⟨callee.key, callee.detail, site.startLine⟩ := by
  induction sites with
  | nil => rfl
  | cons site rest ih =>
    unfold resolvedCalls at ih ⊢
    by_cases href : site.RefersTo className callee.className callee.signature
    · have hcall := (resolvedCall?_eq_some_iff hkeyed).2 ⟨callee, hcallee, hfirst, href, rfl⟩
      rw [List.filterMap_cons_some hcall, List.filter_cons_of_pos (by simp),
        List.filter_cons_of_pos (by simpa using href), List.map_cons, ih]
    · rw [List.filter_cons_of_neg (by simpa using href), ← ih]
      cases hcall : resolvedCall? (ofTable table) className site with
      | none => rw [List.filterMap_cons_none hcall]
      | some call =>
        obtain ⟨other, hother, hofirst, horef, rfl⟩ := (resolvedCall?_eq_some_iff hkeyed).1 hcall
        -- the site leads to another method, whose key is another one too
        have hne : other.key ≠ callee.key := by
          intro hkey
          obtain ⟨hclass, hsignature⟩ := hplain.key_inj hother hcallee hkey
          exact href (hclass ▸ hsignature ▸ horef)
        rw [List.filterMap_cons_some hcall, List.filter_cons_of_neg (by simpa using hne)]

theorem get?_targetsOf (hkeyed : SignaturesKeyed table) (hplain : ClassNamesPlain table)
    {callee : DeclaredMethod} (hcallee : callee ∈ declaredMethods table)
    (hfirst : callee.IsFirst table) (caller : DeclaredMethod) :
    (targetsOf (ofTable table) caller).get? callee.key =
      if caller.linesTo callee = [] then none
      else some (callee.detail, caller.linesTo callee) := by
  unfold targetsOf DeclaredMethod.linesTo
  rw [get?_callTargets, filter_resolvedCalls hkeyed hplain hcallee hfirst]
  cases caller.method.callSites.filter
    (CallSite.RefersTo caller.className callee.className callee.signature ·) with
  | nil => rfl
  | cons site rest => simp [groupOf, Function.comp_def]

/-- The targets of a method are the methods of first declarations to which it has calls. -/
theorem get?_targetsOf_eq_some_iff (hkeyed : SignaturesKeyed table)
    (hplain : ClassNamesPlain table) {caller : DeclaredMethod} {target : String}
    {detail : MethodDetail} {lines : List Int64} :
    (targetsOf (ofTable table) caller).get? target = some (detail, lines) ↔
      ∃ callee ∈ declaredMethods table, callee.IsFirst table ∧ callee.key = target ∧
        callee.detail = detail ∧ caller.linesTo callee = lines ∧ lines ≠ [] := by
  constructor
  · intro h
    have hgroup := h
    unfold targetsOf at hgroup
    rw [get?_callTargets] at hgroup
    -- the first call of the group leads to a declared method
    obtain ⟨call, hcall, -, -⟩ := exists_of_groupOf_eq_some hgroup
    obtain ⟨hcall, htarget⟩ := List.mem_filter.1 hcall
    obtain ⟨site, _, hsite⟩ := List.mem_filterMap.1 hcall
    obtain ⟨callee, hcallee, hfirst, _, rfl⟩ := (resolvedCall?_eq_some_iff hkeyed).1 hsite
    have hkey : callee.key = target := of_decide_eq_true htarget
    rw [← hkey, get?_targetsOf hkeyed hplain hcallee hfirst] at h
    split at h
    · exact absurd h (by simp)
    · next hlines =>
      simp only [Option.some.injEq, Prod.mk.injEq] at h
      exact ⟨callee, hcallee, hfirst, hkey, h.1, h.2, h.2 ▸ hlines⟩
  · rintro ⟨callee, hcallee, hfirst, rfl, rfl, rfl, hlines⟩
    rw [get?_targetsOf hkeyed hplain hcallee hfirst, if_neg hlines]

/-! ## The nodes and the edges of the graph -/

theorem mem_edges_ofTable (hkeyed : SignaturesKeyed table) (hplain : ClassNamesPlain table)
    {edge : Edge} :
    edge ∈ (ofSymbols (ofTable table)).edges ↔ ∃ caller ∈ declaredMethods table,
      ∃ callee ∈ declaredMethods table, callee.IsFirst table ∧ caller.linesTo callee ≠ [] ∧
        edge = callEdge caller.key callee.key (caller.linesTo callee) := by
  simp only [edges_ofSymbols, List.mem_flatMap, mem_edgesFrom,
    get?_targetsOf_eq_some_iff hkeyed hplain]
  constructor
  · rintro ⟨caller, hcaller, _, _, _, ⟨callee, hcallee, hfirst, rfl, rfl, rfl, hlines⟩, rfl⟩
    exact ⟨caller, hcaller, callee, hcallee, hfirst, hlines, rfl⟩
  · rintro ⟨caller, hcaller, callee, hcallee, hfirst, hlines, rfl⟩
    exact ⟨caller, hcaller, _, _, _, ⟨callee, hcallee, hfirst, rfl, rfl, rfl, hlines⟩, rfl⟩

/-- Every node is a declared method under its key. -/
theorem exists_of_node?_ofTable (hkeyed : SignaturesKeyed table) (hplain : ClassNamesPlain table)
    {key : String} {node : MethodDetail} (h : (ofSymbols (ofTable table)).node? key = some node) :
    ∃ d ∈ declaredMethods table, key = d.key ∧ node = d.detail := by
  rw [node?_ofSymbols] at h
  have hmem := Assoc.mem_of_find?_eq_some h
  simp only [List.mem_flatMap, mem_nodesFrom, get?_targetsOf_eq_some_iff hkeyed hplain] at hmem
  obtain ⟨d, hd, _, _, _, ⟨callee, hcallee, _, rfl, rfl, _⟩, hself | hcallee'⟩ := hmem
  · exact ⟨d, hd, hself⟩
  · exact ⟨callee, hcallee, hcallee'⟩

/-! ## One edge for a pair of keys -/

/-- The keys of the two ends of an edge. -/
def ends (edge : Edge) : String × String := (edge.source, edge.target)

/-- If methods are told apart by their keys, no two edges have the same ends. -/
theorem nodup_ends {index : SymbolIndex}
    (hkey : ∀ d ∈ declaredMethods index.table, ∀ e ∈ declaredMethods index.table,
      d.key = e.key → d = e) :
    ((ofSymbols index).edges.map ends).Nodup := by
  rw [edges_ofSymbols, List.map_flatMap]
  refine List.nodup_flatMap.2 ⟨?_, (nodup_declaredMethods index.table).imp_of_mem ?_⟩
  · -- the edges of one method differ in their targets, those of two methods in their sources
    intro d _
    have hkeys := (targetsOf index d).nodup
    refine List.Nodup.of_map Prod.snd ?_
    simpa [edgesFrom, ends, callEdge, Edge.withAttribute, Assoc.keys, Function.comp_def] using hkeys
  · intro d e hd he hne pair hpd hpe
    obtain ⟨edge, hedge, rfl⟩ := List.mem_map.1 hpd
    obtain ⟨edge', hedge', hends⟩ := List.mem_map.1 hpe
    obtain ⟨_, _, _, _, rfl⟩ := mem_edgesFrom.1 hedge
    obtain ⟨_, _, _, _, rfl⟩ := mem_edgesFrom.1 hedge'
    exact hne (hkey d hd e he (congrArg Prod.fst hends).symm)

theorem edgesBetween_eq_singleton {graph : CallGraph} {edge : Edge}
    (hnodup : (graph.edges.map ends).Nodup) (hedge : edge ∈ graph.edges) :
    graph.edgesBetween edge.source edge.target = [edge] := by
  have h := Lists.filter_eq_singleton hnodup hedge
  unfold Graph.edgesBetween
  simpa only [ends, Prod.mk.injEq] using h

theorem edgesBetween_ofTable (hkeyed : SignaturesKeyed table) (honce : ClassesDeclaredOnce table)
    (hplain : ClassNamesPlain table) {caller callee : DeclaredMethod}
    (hcaller : caller ∈ declaredMethods table) (hcallee : callee ∈ declaredMethods table) :
    (ofSymbols (ofTable table)).edgesBetween caller.key callee.key =
      if caller.linesTo callee = [] then []
      else [callEdge caller.key callee.key (caller.linesTo callee)] := by
  split
  · next hlines =>
    refine List.filter_eq_nil_iff.2 fun edge hedge hends => ?_
    obtain ⟨d, hd, e, he, _, hne, rfl⟩ := (mem_edges_ofTable hkeyed hplain).1 hedge
    obtain ⟨hsource, htarget⟩ := of_decide_eq_true hends
    obtain rfl := eq_of_key_eq honce hplain hd hcaller hsource
    obtain rfl := eq_of_key_eq honce hplain he hcallee htarget
    exact hne hlines
  · next hlines =>
    have hedge := (mem_edges_ofTable hkeyed hplain).2
      ⟨caller, hcaller, callee, hcallee, honce.isFirst hcallee, hlines, rfl⟩
    exact edgesBetween_eq_singleton
      (nodup_ends fun d hd e he => eq_of_key_eq honce hplain hd he) hedge

/-! ## The lines on an edge -/

theorem asInt64?_toInt (line : Int64) : Json.asInt64? (.int line.toInt) = some line := by
  simp only [Json.asInt64?]
  rw [if_pos ⟨line.minValue_le_toInt, line.toInt_le⟩, Int64.ofInt_toInt]

theorem edgeLines_of_get? {edge : Edge} {lines : List Int64}
    (h : edge.attributes.get? linesAttribute = some (linesToJson lines)) :
    edgeLines edge = lines := by
  unfold edgeLines
  rw [h]
  simp [linesToJson, Json.asArray?, List.filterMap_map, asInt64?_toInt]

theorem edgeLines_callEdge (source target : String) (lines : List Int64) :
    edgeLines (callEdge source target lines) = lines := by
  apply edgeLines_of_get?
  unfold callEdge Edge.withAttribute
  rw [Dict.get?_insert, if_pos rfl]

end CallGraph

/-! ## Exactness -/

namespace Atlas

open SymbolIndex CallGraph

/-- **The graph of the symbol table is exact.** One method has exactly one edge to another if it has
call sites that refer to the other, and it carries the number and the lines of those sites;
otherwise it has none. No other edge exists, the nodes are the ends of the edges, and every node is
the method that the symbol table has under its key. -/
theorem symbolGraph_exact (root : Path) (report : Report)
    (hkeyed : SignaturesKeyed report.symbolTable) (honce : ClassesDeclaredOnce report.symbolTable)
    (hplain : ClassNamesPlain report.symbolTable) :
    let graph := (ofReport root report).callGraph .symbolTable
    let declared := declaredMethods report.symbolTable
    (∀ caller ∈ declared, ∀ callee ∈ declared,
      (caller.linesTo callee = [] → graph.edgesBetween caller.key callee.key = []) ∧
      (caller.linesTo callee ≠ [] → ∃ edge, graph.edgesBetween caller.key callee.key = [edge] ∧
        edge.edgeType = "CALL_DEP" ∧
        edge.weight = some (.ofNat (caller.linesTo callee).length) ∧
        edgeLines edge = caller.linesTo callee)) ∧
    (∀ edge ∈ graph.edges, ∃ caller ∈ declared, ∃ callee ∈ declared,
      edge.source = caller.key ∧ edge.target = callee.key) ∧
    (∀ key, graph.containsNode key = true ↔
      ∃ edge ∈ graph.edges, edge.source = key ∨ edge.target = key) ∧
    (∀ d ∈ declared, ∀ node, graph.node? d.key = some node → node = d.detail) := by
  intro graph declared
  refine ⟨?_, ?_, fun _ => containsNode_ofSymbols_iff, ?_⟩
  · intro caller hcaller callee hcallee
    have hbetween : graph.edgesBetween caller.key callee.key = _ :=
      edgesBetween_ofTable hkeyed honce hplain hcaller hcallee
    rw [hbetween]
    constructor
    · intro hlines
      exact if_pos hlines
    · intro hlines
      exact ⟨_, if_neg hlines, rfl, rfl, edgeLines_callEdge _ _ _⟩
  · intro edge hedge
    obtain ⟨caller, hcaller, callee, hcallee, _, _, rfl⟩ :=
      (mem_edges_ofTable hkeyed hplain).1 hedge
    exact ⟨caller, hcaller, callee, hcallee, rfl, rfl⟩
  · intro d hd node hnode
    obtain ⟨e, he, hkey, rfl⟩ := exists_of_node?_ofTable hkeyed hplain hnode
    rw [eq_of_key_eq honce hplain hd he hkey]

/-- A service that calls its helper twice and a repository once. -/
def serviceTable : Dict String CompilationUnit := tableOf [("Service.java", [
  ("Service", [
    { signature := "run()"
      callSites := [
        { calleeSignature := "helper()", startLine := 4 },
        { receiverType := "Repo", calleeSignature := "save()", startLine := 5 },
        { calleeSignature := "helper()", startLine := 6 },
        { receiverType := "java.util.List", calleeSignature := "add(E)", startLine := 7 }] },
    { signature := "helper()" }]),
  ("Repo", [{ signature := "save()" }])])]

theorem symbolGraph_exact_service :
    SignaturesKeyed serviceTable ∧ ClassesDeclaredOnce serviceTable ∧
      ClassNamesPlain serviceTable ∧
      ∃ edge, ((ofReport (.ofString "/p") { symbolTable := serviceTable }).callGraph
          .symbolTable).edgesBetween "Service#run()" "Service#helper()" = [edge] ∧
        edge.edgeType = "CALL_DEP" ∧ edge.weight = some (.ofNat 2) ∧ edgeLines edge = [4, 6] := by
  have hkeyed : SignaturesKeyed serviceTable := by decide +kernel
  have honce : ClassesDeclaredOnce serviceTable := by decide +kernel
  have hplain : ClassNamesPlain serviceTable := by decide +kernel
  obtain ⟨hedges, _⟩ := symbolGraph_exact (.ofString "/p") { symbolTable := serviceTable }
    hkeyed honce hplain
  have hcalls : ∃ caller ∈ declaredMethods serviceTable, ∃ callee ∈ declaredMethods serviceTable,
      caller.key = "Service#run()" ∧ callee.key = "Service#helper()" ∧
        caller.linesTo callee = [4, 6] := by decide +kernel
  obtain ⟨caller, hcaller, callee, hcallee, hrun, hhelper, hlines⟩ := hcalls
  have hedge := (hedges caller hcaller callee hcallee).2 (by simp [hlines])
  rw [hlines, hrun, hhelper] at hedge
  exact ⟨hkeyed, honce, hplain, hedge⟩

/-- A table with a class whose name is empty. -/
def unnamedTable : Dict String CompilationUnit := tableOf [("Main.java", [
  ("Main", [{
    signature := "run()"
    callSites := [{ calleeSignature := "save()", startLine := 3 }] }]),
  ("", [{ signature := "save()" }])])]

/-- A site without a receiver type does not refer to a class whose name is empty, although its
receiver type equals that name: it stays within its own class. -/
theorem unnamed_receiver_stays_within :
    SignaturesKeyed unnamedTable ∧ ClassesDeclaredOnce unnamedTable ∧
      ClassNamesPlain unnamedTable ∧
      ∃ caller ∈ declaredMethods unnamedTable, ∃ callee ∈ declaredMethods unnamedTable,
        (caller.method.callSites.filter fun site =>
          site.calleeSignature = callee.signature ∧ callee.signature ≠ "" ∧
            (site.receiverType = callee.className ∨
              site.receiverType = "" ∧ callee.className = caller.className)).map
          CallSite.startLine = [3] ∧
        ((ofReport (.ofString "/p") { symbolTable := unnamedTable }).callGraph
          .symbolTable).edgesBetween caller.key callee.key = [] := by
  decide +kernel

end Atlas

end JavaAtlas
