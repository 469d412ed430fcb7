import JavaAtlas.Proofs.Atlas.AnalyzerGraph
import JavaAtlas.Proofs.Atlas.Listings
import JavaAtlas.Proofs.Atlas.NodeKeys

set_option autoImplicit false

/-! # Methods that share a key

The key of a method is its class, a separator and its signature, and nothing keeps the separator out
of either. So two methods share a key if what stands between two separators may belong to the class
of the one as well as to the signature of the other (`MethodName.key_eq_iff`). The bodies of tests
and the nodes of both graphs are kept by key, and they are all there exactly if no two of the
methods share one (`methods_apart_iff`). -/

namespace JavaAtlas

open SymbolIndex

/-! ## Names of methods -/

/-- What tells a method from others: its class and its signature. -/
structure MethodName where
  className : String
  signature : String
deriving DecidableEq

/-- The name of a declared method. -/
def DeclaredMethod.name (d : DeclaredMethod) : MethodName := ⟨d.className, d.signature⟩

/-- The name of the method that an end of an edge names. -/
def ReportedMethod.name (reported : ReportedMethod) : MethodName :=
  ⟨reported.typeDeclaration, reported.signature⟩

/-- The name of a method in a graph. -/
def MethodDetail.name (m : MethodDetail) : MethodName := ⟨m.className, m.method.signature⟩

namespace MethodName

variable {first second : MethodName} {names : MethodName → Prop}

/-- The key of a method of this name. -/
def key (name : MethodName) : String := MethodDetail.keyOf name.className name.signature

/-- Whether the class of the second method goes on where that of the first ends with a separator,
and the signature of the first goes on to where that of the second begins. -/
def Overlaps (first second : MethodName) : Prop :=
  ∃ between, second.className = first.className ++ "#" ++ between ∧
    first.signature = between ++ "#" ++ second.signature

/-- Whether none of these names overlaps another. -/
def Apart (names : MethodName → Prop) : Prop :=
  ∀ first second, names first → names second → ¬first.Overlaps second

theorem overlaps_iff_toList : first.Overlaps second ↔ ∃ between : List Char,
    second.className.toList = first.className.toList ++ '#' :: between ∧
      first.signature.toList = between ++ '#' :: second.signature.toList := by
  constructor
  · rintro ⟨between, hclass, hsignature⟩
    exact ⟨between.toList, by simp [hclass], by simp [hsignature]⟩
  · rintro ⟨between, hclass, hsignature⟩
    refine ⟨String.ofList between, ?_, ?_⟩
    · simp [← String.toList_inj, hclass]
    · simp [← String.toList_inj, hsignature]

/-- Two methods share a key only if one of their names overlaps the other. -/
theorem key_eq_iff :
    first.key = second.key ↔ first = second ∨ first.Overlaps second ∨ second.Overlaps first := by
  have hname : first = second ↔ first.className.toList = second.className.toList ∧
      first.signature.toList = second.signature.toList := by
    cases first
    cases second
    simp [String.toList_inj]
  rw [overlaps_iff_toList, overlaps_iff_toList, hname, ← append_separator_eq_iff]
  unfold key MethodDetail.keyOf
  simp [← String.toList_inj]

theorem not_overlaps_self (name : MethodName) : ¬name.Overlaps name := by
  rw [overlaps_iff_toList]
  rintro ⟨between, hclass, -⟩
  have hlength := congrArg List.length hclass
  rw [List.length_append, List.length_cons] at hlength
  omega

/-- Names are apart if they can be told by their keys. -/
theorem apart_iff :
    Apart names ↔ ∀ first second, names first → names second → first.key = second.key →
      first = second := by
  constructor
  · intro hapart first second hfirst hsecond hkey
    rcases key_eq_iff.1 hkey with hname | hoverlaps | hoverlaps
    · exact hname
    · exact absurd hoverlaps (hapart first second hfirst hsecond)
    · exact absurd hoverlaps (hapart second first hsecond hfirst)
  · intro hinj first second hfirst hsecond hoverlaps
    have hname := hinj first second hfirst hsecond (key_eq_iff.2 (.inr (.inl hoverlaps)))
    exact not_overlaps_self second (hname ▸ hoverlaps)

/-- The class of a method that another one overlaps has a separator in its name. -/
theorem Overlaps.separator_mem (h : first.Overlaps second) : '#' ∈ second.className.toList := by
  obtain ⟨between, hclass, -⟩ := overlaps_iff_toList.1 h
  rw [hclass]
  simp

/-- Names are apart if no class has a separator in its name. -/
theorem apart_of_plain (hplain : ∀ name, names name → '#' ∉ name.className.toList) : Apart names :=
  fun _ second _ hsecond hoverlaps => hplain second hsecond hoverlaps.separator_mem

end MethodName

/-! ## Bodies of tests -/

/-- The test methods that count: those of first declarations. -/
def testsOf (table : Dict String CompilationUnit) : List DeclaredMethod :=
  (declaredMethods table).filter fun d =>
    d.IsFirst table ∧ d.method.annotations.any Atlas.isTestAnnotation = true

section

variable {table : Dict String CompilationUnit}

theorem mem_testsOf {d : DeclaredMethod} : d ∈ testsOf table ↔ d ∈ declaredMethods table ∧
    d.IsFirst table ∧ d.method.annotations.any Atlas.isTestAnnotation = true := by
  rw [testsOf, List.mem_filter, decide_eq_true_iff]

theorem eq_of_name_eq_of_mem_testsOf {d e : DeclaredMethod} (hd : d ∈ testsOf table)
    (he : e ∈ testsOf table) (hname : d.name = e.name) : d = e := by
  obtain ⟨hd, hdfirst, -⟩ := mem_testsOf.1 hd
  obtain ⟨he, hefirst, -⟩ := mem_testsOf.1 he
  obtain ⟨hclass, hsignature⟩ := MethodName.mk.inj hname
  exact eq_of_isFirst hd he hdfirst hefirst hclass hsignature

theorem nodup_testsOf : (testsOf table).Nodup := (nodup_declaredMethods table).filter _

/-- Tests have different keys exactly if their names are apart. -/
theorem nodup_keys_testsOf_iff : ((testsOf table).map DeclaredMethod.key).Nodup ↔
    MethodName.Apart fun name => ∃ d ∈ testsOf table, d.name = name := by
  rw [MethodName.apart_iff, List.nodup_map_iff_inj_on nodup_testsOf]
  constructor
  · rintro hinj _ _ ⟨d, hd, rfl⟩ ⟨e, he, rfl⟩ hkey
    rw [hinj d hd e he hkey]
  · intro hinj d hd e he hkey
    exact eq_of_name_eq_of_mem_testsOf hd he (hinj _ _ ⟨d, hd, rfl⟩ ⟨e, he, rfl⟩ hkey)

end

namespace Atlas

variable {root : Path} {report : Report}

/-- The tests of every class of an atlas under their names. -/
def namedTests (atlas : Atlas) : List (MethodName × Callable) :=
  atlas.classes.entries.flatMap fun (className, type) =>
    (type.callableDeclarations.entries.filter fun (_, method) =>
      method.annotations.any isTestAnnotation).map fun (signature, method) =>
        (⟨className, signature⟩, method)

theorem testMethods_eq (atlas : Atlas) :
    atlas.testMethods = .ofList (atlas.namedTests.map fun (name, method) =>
      (name.key, method.code)) := by
  unfold testMethods namedTests
  rw [List.map_flatMap]
  simp only [List.map_map, Function.comp_def, MethodName.key]

theorem mem_namedTests {name : MethodName} {method : Callable} :
    (name, method) ∈ (ofReport root report).namedTests ↔
      ∃ d ∈ testsOf report.symbolTable, d.name = name ∧ d.method = method := by
  have hlisted : (name, method) ∈ (ofReport root report).namedTests ↔
      (∃ type, (ofReport root report).classes.get? name.className = some type ∧
        type.callableDeclarations.get? name.signature = some method) ∧
          method.annotations.any isTestAnnotation = true := by
    simp only [namedTests, List.mem_flatMap, List.mem_map, List.mem_filter, Prod.exists,
      Dict.mem_entries_iff, Prod.mk.injEq]
    constructor
    · rintro ⟨className, type, htype, signature, _, ⟨hmethod, htest⟩, rfl, rfl⟩
      exact ⟨⟨type, htype, hmethod⟩, htest⟩
    · rintro ⟨⟨type, htype, hmethod⟩, htest⟩
      exact ⟨_, type, htype, _, method, ⟨hmethod, htest⟩, rfl, rfl⟩
  rw [hlisted, exists_listed_iff]
  constructor
  · rintro ⟨⟨d, hd, hfirst, hclass, hsignature, rfl⟩, htest⟩
    exact ⟨d, mem_testsOf.2 ⟨hd, hfirst, htest⟩, by rw [DeclaredMethod.name, hclass, hsignature],
      rfl⟩
  · rintro ⟨d, hd, rfl, rfl⟩
    obtain ⟨hd, hfirst, htest⟩ := mem_testsOf.1 hd
    exact ⟨⟨d, hd, hfirst, rfl, rfl, rfl⟩, htest⟩

theorem nodup_namedTests (atlas : Atlas) : atlas.namedTests.Nodup := by
  refine Dict.nodup_flatMap_entries _ _ (fun test => test.1.className) ?_ ?_
  · rintro ⟨className, type⟩ -
    refine List.Nodup.of_map (fun test => test.1.signature) ?_
    have hkeys := type.callableDeclarations.nodup.sublist (Assoc.keys_filter_sublist
      (fun (_, method) => method.annotations.any isTestAnnotation) _)
    simpa [Assoc.keys, Function.comp_def] using hkeys
  · rintro ⟨className, type⟩ - test htest
    obtain ⟨_, _, rfl⟩ := List.mem_map.1 htest
    rfl

theorem perm_namedTests (root : Path) (report : Report) : (ofReport root report).namedTests.Perm
    ((testsOf report.symbolTable).map fun d => (d.name, d.method)) := by
  refine (List.perm_ext_iff_of_nodup (nodup_namedTests _) ?_).2 ?_
  · refine nodup_testsOf.map_on fun d hd e he hpair => ?_
    exact eq_of_name_eq_of_mem_testsOf hd he (Prod.mk.inj hpair).1
  · rintro ⟨name, method⟩
    rw [mem_namedTests, List.mem_map]
    simp only [Prod.mk.injEq]

/-- Every test has its own entry exactly if no two tests share a key. -/
theorem perm_testMethods_iff :
    (ofReport root report).testMethods.entries.Perm
        ((testsOf report.symbolTable).map fun d => (d.key, d.method.code)) ↔
      ((testsOf report.symbolTable).map DeclaredMethod.key).Nodup := by
  have hperm : ((ofReport root report).namedTests.map fun (name, method) =>
      (name.key, method.code)).Perm
        ((testsOf report.symbolTable).map fun d => (d.key, d.method.code)) := by
    have hnamed := (perm_namedTests root report).map fun (name, method) =>
      (name.key, method.code)
    rwa [List.map_map] at hnamed
  have hkeys : Assoc.keys ((testsOf report.symbolTable).map fun d => (d.key, d.method.code)) =
      (testsOf report.symbolTable).map DeclaredMethod.key := by
    unfold Assoc.keys
    rw [List.map_map]
    rfl
  rw [← hkeys, testMethods_eq]
  constructor
  · intro hentries
    exact (hentries.map Prod.fst).nodup_iff.1 (Dict.nodup _)
  · intro hnodup
    rw [Dict.entries_ofList ((hperm.map Prod.fst).nodup_iff.2 hnodup)]
    exact hperm

end Atlas

/-! ## Nodes of the graphs -/

/-- Whether a method takes part in the call graph from a source: the analyzer names it, or, if the
analyzer reports no edges or is not asked, it calls or is called. -/
def Report.Involves (report : Report) (source : GraphSource) (name : MethodName) : Prop :=
  match source, report.callGraph with
  | .analyzer, some reported => ∃ r ∈ reportedEnds reported, r.name = name
  | _, _ => ∃ d ∈ declaredMethods report.symbolTable, d.TakesPart report.symbolTable ∧
    d.name = name

namespace CallGraph

/-- Whether each of these methods is the node under its key. -/
def HasNodesFor (graph : CallGraph) (names : MethodName → Prop) : Prop :=
  ∀ name, names name → ∃ node, graph.node? name.key = some node ∧ node.name = name

/-- Whether these methods, and only these, have a node under their keys. -/
structure IsOver (graph : CallGraph) (names : MethodName → Prop) : Prop where
  node : ∀ name, names name → ∃ node, graph.node? name.key = some node
  name : ∀ key node, graph.node? key = some node → names node.name ∧ node.name.key = key

/-- A graph over some methods has a node for each of them exactly if no two share a key. -/
theorem IsOver.hasNodesFor_iff {graph : CallGraph} {names : MethodName → Prop}
    (h : graph.IsOver names) : graph.HasNodesFor names ↔ MethodName.Apart names := by
  rw [MethodName.apart_iff]
  constructor
  · intro hnodes first second hfirst hsecond hkey
    obtain ⟨node, hnode, rfl⟩ := hnodes first hfirst
    obtain ⟨node', hnode', rfl⟩ := hnodes second hsecond
    rw [hkey, hnode'] at hnode
    rw [Option.some.inj hnode]
  · intro hinj name hname
    obtain ⟨node, hnode⟩ := h.node name hname
    obtain ⟨hnamed, hkey⟩ := h.name _ node hnode
    exact ⟨node, hnode, hinj _ _ hnamed hname hkey⟩

variable {table : Dict String CompilationUnit}

theorem isOver_ofSymbols (hkeyed : SignaturesKeyed table) :
    IsOver (ofSymbols (ofTable table)) fun name =>
      ∃ d ∈ declaredMethods table, d.TakesPart table ∧ d.name = name where
  node := by
    rintro _ ⟨d, hd, ⟨other, hother, hcalls | hcalls⟩, rfl⟩
    · obtain ⟨edge, hedge, hsource, -⟩ := exists_edge_of_callsTo hd hother hcalls
      exact Graph.exists_node?_iff.2 (containsNode_ofSymbols_iff.2 ⟨edge, hedge, .inl hsource⟩)
    · obtain ⟨edge, hedge, -, htarget⟩ := exists_edge_of_callsTo hother hd hcalls
      rw [hkeyed.key_detail hd] at htarget
      exact Graph.exists_node?_iff.2 (containsNode_ofSymbols_iff.2 ⟨edge, hedge, .inr htarget⟩)
  name key node hnode := by
    obtain ⟨d, hd, hpart, rfl, hkey⟩ := exists_takesPart_of_node? hnode
    have hname : d.detail.name = d.name := congrArg (MethodName.mk d.className) (hkeyed d hd)
    rw [hkeyed.key_detail hd, or_self] at hkey
    rw [hname]
    exact ⟨⟨d, hd, hpart, rfl⟩, hkey.symm⟩

theorem isOver_ofEdges (hkeyed : SignaturesKeyed table) (reported : List ReportedEdge) :
    IsOver (ofEdges (reported.map (ofTable table).resolveEdge)) fun name =>
      ∃ r ∈ reportedEnds reported, r.name = name where
  node := by
    rintro _ ⟨r, hr, rfl⟩
    have hsome : ((reportedEnds reported).find? (·.key = r.key)).isSome = true :=
      List.find?_isSome.2 ⟨r, hr, decide_eq_true rfl⟩
    obtain ⟨first, hfirst⟩ := Option.isSome_iff_exists.1 hsome
    exact ⟨_, (node?_ofEdges hkeyed reported r.key).trans (congrArg _ hfirst)⟩
  name key node hnode := by
    rw [node?_ofEdges hkeyed] at hnode
    obtain ⟨r, hr, rfl⟩ := Option.map_eq_some_iff.1 hnode
    have hname : ((ofTable table).resolve r).name = r.name :=
      congrArg (MethodName.mk r.typeDeclaration) (signature_resolve hkeyed r)
    have hkey : r.key = key := by simpa using List.find?_some hr
    rw [hname]
    exact ⟨⟨r, List.mem_of_find?_eq_some hr, rfl⟩, hkey⟩

end CallGraph

namespace Atlas

open CallGraph

theorem isOver_callGraph (root : Path) {report : Report}
    (hkeyed : SignaturesKeyed report.symbolTable) (source : GraphSource) :
    IsOver ((ofReport root report).callGraph source) (report.Involves source) := by
  cases source with
  | symbolTable => exact isOver_ofSymbols hkeyed
  | analyzer =>
    unfold Report.Involves
    cases hreported : report.callGraph with
    | none =>
      rw [callGraph_eq_of_none hreported]
      exact isOver_ofSymbols hkeyed
    | some reported =>
      rw [analyzerGraph_ofReport hreported]
      exact isOver_ofEdges hkeyed reported

/-- **Methods are told apart unless their names overlap.** Let every method stand under its own
signature. Then the bodies of tests are those of the test methods, one entry for each, exactly if no
name of a test overlaps another; and a call graph has a node of its own for every method that takes
part in it exactly if none of their names overlap. -/
theorem methods_apart_iff (root : Path) (report : Report)
    (hkeyed : SignaturesKeyed report.symbolTable) :
    let atlas := ofReport root report
    let tests := testsOf report.symbolTable
    (atlas.testMethods.entries.Perm (tests.map fun d => (d.key, d.method.code)) ↔
      MethodName.Apart fun name => ∃ d ∈ tests, d.name = name) ∧
    ∀ source, (atlas.callGraph source).HasNodesFor (report.Involves source) ↔
      MethodName.Apart (report.Involves source) := by
  intro atlas tests
  refine ⟨perm_testMethods_iff.trans nodup_keys_testsOf_iff, fun source => ?_⟩
  exact (isOver_callGraph root hkeyed source).hasNodesFor_iff

/-- A class of tests and the class that they test; the analyzer reports one of the calls. -/
def suiteReport : Report where
  symbolTable := tableOf [("Suite.java", [
    ("Suite", [
      { signature := "adds()", annotations := ["@Test"], code := "\x7b basket.add(); \x7d"
        callSites := [{ receiverType := "Basket", calleeSignature := "add()", startLine := 5 }] },
      { signature := "clears()", annotations := ["@Test"], code := "\x7b basket.clear(); \x7d" }]),
    ("Basket", [{ signature := "add()", code := "\x7b \x7d" }])])]
  callGraph := some [{
    source := { typeDeclaration := "Suite", signature := "clears()" }
    target := { typeDeclaration := "Basket", signature := "clear()" } }]

theorem methods_apart_iff_suite :
    let atlas := ofReport (.ofString "/p") suiteReport
    SignaturesKeyed suiteReport.symbolTable ∧
      atlas.testMethods.entries.Perm ((testsOf suiteReport.symbolTable).map fun d =>
        (d.key, d.method.code)) ∧
      (testsOf suiteReport.symbolTable).map DeclaredMethod.key =
        ["Suite#adds()", "Suite#clears()"] ∧
      ∀ source, (atlas.callGraph source).HasNodesFor (suiteReport.Involves source) := by
  intro atlas
  have hkeyed : SignaturesKeyed suiteReport.symbolTable := by decide +kernel
  have hplain : ClassNamesPlain suiteReport.symbolTable := by decide +kernel
  have hends : EndNamesPlain (suiteReport.callGraph.getD []) := by decide +kernel
  obtain ⟨htests, hnodes⟩ := methods_apart_iff (.ofString "/p") suiteReport hkeyed
  refine ⟨hkeyed, htests.2 (MethodName.apart_of_plain ?_), by decide +kernel,
    fun source => (hnodes source).2 (MethodName.apart_of_plain ?_)⟩
  · rintro _ ⟨d, hd, rfl⟩
    exact hplain.of_mem (mem_testsOf.1 hd).1
  · cases source with
    | symbolTable =>
      rintro _ ⟨d, hd, -, rfl⟩
      exact hplain.of_mem hd
    | analyzer =>
      rintro _ ⟨r, hr, rfl⟩
      exact hends.of_mem_ends hr

/-- Two tests that share a key, and the methods that they call. -/
def overlappingReport : Report where
  symbolTable := tableOf [("Shop.java", [
    ("Shop", [
      { signature := "cart#add()", annotations := ["@Test"], code := "\x7b open(); \x7d"
        callSites := [{ calleeSignature := "open()", startLine := 2 }] },
      { signature := "open()" }]),
    ("Shop#cart", [
      { signature := "add()", annotations := ["@Test"], code := "\x7b fill(); \x7d"
        callSites := [{ calleeSignature := "fill()", startLine := 9 }] },
      { signature := "fill()" }])])]

/-- Of two tests that share a key one body is lost, and they are one node with the calls of both. -/
theorem overlapping_methods_merged :
    let atlas := ofReport (.ofString "/p") overlappingReport
    SignaturesKeyed overlappingReport.symbolTable ∧
      (testsOf overlappingReport.symbolTable).map (·.method.code) =
        ["\x7b open(); \x7d", "\x7b fill(); \x7d"] ∧
      atlas.testMethods.entries = [("Shop#cart#add()", "\x7b fill(); \x7d")] ∧
      ((atlas.callGraph .symbolTable).node? "Shop#cart#add()").map MethodDetail.className =
        some "Shop" ∧
      (atlas.callees "Shop#cart" "add()" .symbolTable).toOption.map
          (·.callees.map (·.method.key)) = some ["Shop#open()", "Shop#cart#fill()"] := by
  decide +kernel

end Atlas

end JavaAtlas
