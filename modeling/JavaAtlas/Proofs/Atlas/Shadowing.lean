import JavaAtlas.Proofs.Atlas.SymbolGraph

set_option autoImplicit false

/-! # Classes that several files declare

The index looks a class up in the first file that declares it, but the builder of the symbol-table
graph walks every declaration. `firstDeclarations` deletes the declarations that the index never
finds; the graph stays the same exactly if no call in them resolves. -/

namespace JavaAtlas

theorem Graph.ext {ν : Type} {g h : Graph ν} (hnodes : g.nodes = h.nodes)
    (hedges : g.edges = h.edges) : g = h := by
  cases g
  cases h
  cases hnodes
  cases hedges
  rfl

namespace SymbolIndex

variable {table : Dict String CompilationUnit}

/-! ## First declarations -/

/-- The table without the declarations of classes that an earlier file declares. -/
def firstDeclarations (table : Dict String CompilationUnit) : Dict String CompilationUnit :=
  table.map fun file unit =>
    { unit with
      typeDeclarations := unit.typeDeclarations.filter fun name _ =>
        (filesOfClasses table).get? name = some file }

theorem methodsOfType_filter_isFirst (file className : String) (type : TypeDeclaration) :
    (methodsOfType file className type).filter (DeclaredMethod.IsFirst table ·) =
      if (filesOfClasses table).get? className = some file then methodsOfType file className type
      else [] := by
  have hmem : ∀ d ∈ methodsOfType file className type,
      d.IsFirst table ↔ (filesOfClasses table).get? className = some file := by
    intro d hd
    obtain ⟨_, _, rfl⟩ := List.mem_map.1 hd
    rfl
  split
  · next hfirst => exact List.filter_eq_self.2 fun d hd => decide_eq_true ((hmem d hd).2 hfirst)
  · next hfirst =>
    exact List.filter_eq_nil_iff.2 fun d hd hd' => hfirst ((hmem d hd).1 (of_decide_eq_true hd'))

theorem declaredMethods_firstDeclarations :
    declaredMethods (firstDeclarations table) =
      (declaredMethods table).filter (DeclaredMethod.IsFirst table ·) := by
  unfold declaredMethods firstDeclarations Dict.map
  rw [List.filter_flatMap, List.flatMap_map]
  congr 1
  funext ⟨file, unit⟩
  simp only [methodsOfUnit, Dict.filter, List.filter_flatMap, methodsOfType_filter_isFirst]
  exact Lists.flatMap_filter (fun entry : String × TypeDeclaration =>
    (filesOfClasses table).get? entry.1 = some file) _ _

theorem mem_declaredMethods_firstDeclarations {d : DeclaredMethod} :
    d ∈ declaredMethods (firstDeclarations table) ↔
      d ∈ declaredMethods table ∧ d.IsFirst table := by
  rw [declaredMethods_firstDeclarations, List.mem_filter, decide_eq_true_iff]

theorem classesWithFiles_firstDeclarations :
    classesWithFiles (firstDeclarations table).entries =
      (classesWithFiles table.entries).filter fun pair =>
        (filesOfClasses table).get? pair.1 = some pair.2 := by
  unfold classesWithFiles firstDeclarations Dict.map
  rw [List.filter_flatMap, List.flatMap_map]
  congr 1
  funext ⟨file, unit⟩
  simp only [Dict.filter, Dict.keys, Assoc.keys, List.filter_map, List.map_map, Function.comp_def]

theorem get?_filesOfClasses_firstDeclarations (name : String) :
    (filesOfClasses (firstDeclarations table)).get? name = (filesOfClasses table).get? name := by
  rw [get?_filesOfClasses, classesWithFiles_firstDeclarations, Assoc.find?_filter,
    get?_filesOfClasses]
  intro file hfile
  rw [decide_eq_true_iff, get?_filesOfClasses]
  exact hfile

/-- Deleting the other declarations leaves the index as it is. -/
theorem callable?_firstDeclarations (className signature : String) :
    (ofTable (firstDeclarations table)).callable? className signature =
      (ofTable table).callable? className signature := by
  refine Option.ext fun method => ?_
  simp only [callable?_eq_some_iff, mem_declaredMethods_firstDeclarations, DeclaredMethod.IsFirst,
    get?_filesOfClasses_firstDeclarations]
  constructor
  · rintro ⟨d, ⟨hd, _⟩, hrest⟩
    exact ⟨d, hd, hrest⟩
  · rintro ⟨d, hd, hfirst, hrest⟩
    exact ⟨d, ⟨hd, hfirst⟩, hfirst, hrest⟩

theorem classesDeclaredOnce_firstDeclarations :
    ClassesDeclaredOnce (firstDeclarations table) := by
  have hfile : ∀ entry ∈ (firstDeclarations table).entries,
      ∀ name ∈ entry.2.typeDeclarations.keys,
        (filesOfClasses table).get? name = some entry.1 := by
    intro entry hentry name hname
    obtain ⟨⟨file, unit⟩, _, rfl⟩ := List.mem_map.1 hentry
    obtain ⟨type, htype⟩ := Assoc.mem_keys_iff.1 hname
    exact of_decide_eq_true (List.mem_filter.1 htype).2
  intro first hfirst second hsecond name hname hname'
  exact Option.some.inj ((hfile first hfirst name hname).symm.trans
    (hfile second hsecond name hname'))

theorem SignaturesKeyed.firstDeclarations (h : SignaturesKeyed table) :
    SignaturesKeyed (firstDeclarations table) :=
  fun d hd => h d (mem_declaredMethods_firstDeclarations.1 hd).1

theorem ClassNamesPlain.firstDeclarations (h : ClassNamesPlain table) :
    ClassNamesPlain (firstDeclarations table) := by
  intro entry hentry name hname
  obtain ⟨⟨file, unit⟩, hunit, rfl⟩ := List.mem_map.1 hentry
  obtain ⟨type, htype⟩ := Assoc.mem_keys_iff.1 hname
  exact h (file, unit) hunit name (Assoc.mem_keys_iff.2 ⟨type, (List.mem_filter.1 htype).1⟩)

end SymbolIndex

namespace CallGraph

open SymbolIndex

variable {table : Dict String CompilationUnit}

/-! ## The graph of first declarations -/

/-- Whether no call in a declaration that the index never finds leads to a method of the program. -/
def ShadowedCallsUnresolved (table : Dict String CompilationUnit) : Prop :=
  ∀ d ∈ declaredMethods table, ¬d.IsFirst table →
    ∀ site ∈ d.method.callSites, targetOf (ofTable table) d.className site = none

instance (table : Dict String CompilationUnit) : Decidable (ShadowedCallsUnresolved table) :=
  inferInstanceAs (Decidable (∀ d ∈ declaredMethods table, ¬d.IsFirst table → _))

theorem targetsOf_firstDeclarations (d : DeclaredMethod) :
    targetsOf (ofTable (firstDeclarations table)) d = targetsOf (ofTable table) d := by
  unfold targetsOf callTargets targetOf
  simp only [callable?_firstDeclarations]

theorem edges_ofTable_firstDeclarations :
    (ofSymbols (ofTable (firstDeclarations table))).edges =
      ((declaredMethods table).filter (DeclaredMethod.IsFirst table ·)).flatMap
        (edgesFrom (ofTable table)) := by
  rw [edges_ofSymbols]
  show (declaredMethods (firstDeclarations table)).flatMap _ = _
  rw [declaredMethods_firstDeclarations]
  congr 1
  funext d
  unfold edgesFrom
  rw [targetsOf_firstDeclarations]

theorem nodes_ofTable_firstDeclarations :
    (ofSymbols (ofTable (firstDeclarations table))).nodes =
      Dict.empty.insertAllNew (((declaredMethods table).filter
        (DeclaredMethod.IsFirst table ·)).flatMap (nodesFrom (ofTable table))) := by
  rw [ofSymbols_eq]
  show Dict.empty.insertAllNew ((declaredMethods (firstDeclarations table)).flatMap _) = _
  rw [declaredMethods_firstDeclarations]
  congr 2
  funext d
  unfold nodesFrom
  rw [targetsOf_firstDeclarations]

/-- The graph does not see other declarations exactly if none of their calls resolves. -/
theorem ofTable_firstDeclarations_iff :
    ofSymbols (ofTable (firstDeclarations table)) = ofSymbols (ofTable table) ↔
      ShadowedCallsUnresolved table := by
  have hnone : ShadowedCallsUnresolved table ↔ ∀ d ∈ declaredMethods table,
      ¬decide (d.IsFirst table) = true → (targetsOf (ofTable table) d).isEmpty = true := by
    simp only [ShadowedCallsUnresolved, decide_eq_true_iff, targetsOf, callTargets_isEmpty_iff]
  have hedges : ∀ d, edgesFrom (ofTable table) d = [] ↔
      (targetsOf (ofTable table) d).isEmpty = true := by
    intro d
    rw [edgesFrom, List.map_eq_nil_iff, Dict.isEmpty, List.isEmpty_iff]
  rw [hnone]
  constructor
  · intro h d hd hother
    have hsame := congrArg Graph.edges h
    rw [edges_ofTable_firstDeclarations, edges_ofSymbols] at hsame
    exact (hedges d).1 (Lists.flatMap_filter_eq_iff.1 hsame d hd hother)
  · intro h
    have hsame : (ofSymbols (ofTable (firstDeclarations table))).edges =
        (ofSymbols (ofTable table)).edges := by
      rw [edges_ofTable_firstDeclarations, edges_ofSymbols]
      exact Lists.flatMap_filter_eq_iff.2 fun d hd hother => (hedges d).2 (h d hd hother)
    have hnodes : (ofSymbols (ofTable (firstDeclarations table))).nodes =
        (ofSymbols (ofTable table)).nodes := by
      rw [nodes_ofTable_firstDeclarations, ofSymbols_eq]
      refine congrArg _ (Lists.flatMap_filter_eq_iff.2 fun d hd hother => ?_)
      exact if_pos (h d hd hother)
    exact Graph.ext hnodes hsame

end CallGraph

namespace Atlas

open SymbolIndex CallGraph

theorem method_eq_ok_iff {atlas : Atlas} {className signature : String} {method : Callable} :
    atlas.method className signature = .ok method ↔
      atlas.index.callable? className signature = some method := by
  unfold Atlas.method classNamed SymbolIndex.callable?
  cases atlas.index.declaration? className with
  | none => simp [bind, Except.bind]
  | some type =>
    simp only [bind, Except.bind, Option.bind]
    cases type.callableDeclarations.get? signature <;> simp

/-- **Only first declarations count, if the calls of the others resolve to nothing.** The graph of
the symbol table is the graph of the first declarations exactly if no call site in another
declaration leads to a method of the program. Then one pair of keys has at most one edge, and every
node is the method that the atlas has for its class and signature. -/
theorem symbolGraph_firstDeclarations_iff (root : Path) (report : Report)
    (hkeyed : SignaturesKeyed report.symbolTable) (hplain : ClassNamesPlain report.symbolTable) :
    let atlas := ofReport root report
    let graph := atlas.callGraph .symbolTable
    let first := ofReport root { report with symbolTable := firstDeclarations report.symbolTable }
    (first.callGraph .symbolTable = graph ↔ ShadowedCallsUnresolved report.symbolTable) ∧
    (ShadowedCallsUnresolved report.symbolTable →
      (∀ source target, (graph.edgesBetween source target).length ≤ 1) ∧
      (∀ key node, graph.node? key = some node → node.key = key ∧
        node.methodDeclaration = node.method.declaration ∧
          atlas.method node.className node.method.signature = .ok node.method)) := by
  intro atlas graph first
  refine ⟨ofTable_firstDeclarations_iff, fun hunresolved => ?_⟩
  -- the graph is that of a table in which every class is declared once
  have hgraph : graph = ofSymbols (ofTable (firstDeclarations report.symbolTable)) :=
    (ofTable_firstDeclarations_iff.2 hunresolved).symm
  rw [hgraph]
  constructor
  · intro source target
    have hnodup : ((ofSymbols (ofTable (firstDeclarations report.symbolTable))).edges.map
        ends).Nodup := nodup_ends fun d hd e he =>
      eq_of_key_eq classesDeclaredOnce_firstDeclarations hplain.firstDeclarations hd he
    cases hedges : (ofSymbols (ofTable (firstDeclarations report.symbolTable))).edgesBetween
        source target with
    | nil => exact Nat.zero_le 1
    | cons edge rest =>
      have hmem := List.mem_filter.1 (hedges.symm ▸ List.mem_cons_self (a := edge) (l := rest))
      obtain ⟨rfl, rfl⟩ := of_decide_eq_true hmem.2
      rw [← hedges, edgesBetween_eq_singleton hnodup hmem.1]
      exact Nat.le_refl 1
  · intro key node hnode
    obtain ⟨d, hd, rfl, rfl⟩ := exists_of_node?_ofTable hkeyed.firstDeclarations
      hplain.firstDeclarations hnode
    obtain ⟨hd, hfirst⟩ := mem_declaredMethods_firstDeclarations.1 hd
    have hkey : d.method.signature = d.signature := hkeyed d hd
    refine ⟨?_, rfl, ?_⟩
    · unfold MethodDetail.key DeclaredMethod.detail DeclaredMethod.key
      rw [hkey]
    · rw [method_eq_ok_iff]
      exact callable?_eq_some_iff.2 ⟨d, hd, hfirst, rfl, hkey.symm, rfl⟩

/-- A class that two files declare; the second declaration has the call sites that are given. -/
def accountTable (sites : List CallSite) : Dict String CompilationUnit := tableOf [
  ("a/Account.java", [("Account", [{ signature := "open()" }, { signature := "close()" }])]),
  ("b/Account.java", [("Account", [{ signature := "open()", callSites := sites }])])]

theorem symbolGraph_firstDeclarations_account :
    SignaturesKeyed (accountTable []) ∧ ClassNamesPlain (accountTable []) ∧
      ((ofReport (.ofString "/p")
          { symbolTable := firstDeclarations (accountTable []) }).callGraph .symbolTable =
        (ofReport (.ofString "/p") { symbolTable := accountTable [] }).callGraph .symbolTable) ∧
      ShadowedCallsUnresolved (accountTable []) := by
  have hkeyed : SignaturesKeyed (accountTable []) := by decide +kernel
  have hplain : ClassNamesPlain (accountTable []) := by decide +kernel
  have hunresolved : ShadowedCallsUnresolved (accountTable []) := by decide +kernel
  obtain ⟨hgraph, _⟩ := symbolGraph_firstDeclarations_iff (.ofString "/p")
    { symbolTable := accountTable [] } hkeyed hplain
  exact ⟨hkeyed, hplain, hgraph.2 hunresolved, hunresolved⟩

/-- The call site of a second declaration makes an edge. -/
theorem shadowed_call_account :
    let table := accountTable [{ calleeSignature := "close()", startLine := 8 }]
    let atlas := ofReport (.ofString "/p") { symbolTable := table }
    let first := ofReport (.ofString "/p") { symbolTable := firstDeclarations table }
    SignaturesKeyed table ∧ ClassNamesPlain table ∧
      ((atlas.callGraph .symbolTable).edgesBetween "Account#open()" "Account#close()").length = 1 ∧
      (first.callGraph .symbolTable).edgesBetween "Account#open()" "Account#close()" = [] := by
  decide +kernel

end Atlas

end JavaAtlas
