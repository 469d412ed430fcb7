import Mathlib.Data.List.Induction
import JavaAtlas.Proofs.Atlas.Declarations

set_option autoImplicit false

/-! # Resolved calls and the graph they make

The builder of the symbol-table graph walks files, classes, methods and call sites. Here the walk is
undone: `get?_callTargets` says what the grouping of one method's calls holds under a key, and
`ofSymbols_eq` gives the whole graph as two lists, the nodes and the edges that each declared method
contributes in turn. -/

namespace JavaAtlas.CallGraph

open SymbolIndex

variable {index : SymbolIndex}

/-! ## Calls of one method, grouped by target -/

/-- A call to a method of the program: the key and the node of that method, and the line. -/
structure ResolvedCall where
  target : String
  detail : MethodDetail
  line : Int64

/-- The call that a site makes, if it refers to a method of the program. -/
def resolvedCall? (index : SymbolIndex) (className : String) (site : CallSite) :
    Option ResolvedCall :=
  (targetOf index className site).map fun (owner, method) =>
    ⟨MethodDetail.keyOf owner method.signature, methodDetail owner method, site.startLine⟩

/-- The calls that some sites make, in order. -/
def resolvedCalls (index : SymbolIndex) (className : String) (sites : List CallSite) :
    List ResolvedCall :=
  sites.filterMap (resolvedCall? index className)

/-- Adds a call to the group of its target. -/
def addToGroup (groups : Dict String (MethodDetail × List Int64)) (call : ResolvedCall) :
    Dict String (MethodDetail × List Int64) :=
  groups.alter call.target fun
    | none => (call.detail, [call.line])
    | some (detail, lines) => (detail, lines ++ [call.line])

/-- What calls to one target amount to: the node of the first one, and the lines of all. -/
def groupOf : List ResolvedCall → Option (MethodDetail × List Int64)
  | [] => none
  | call :: rest => some (call.detail, (call :: rest).map ResolvedCall.line)

theorem callTargets_eq_foldl (index : SymbolIndex) (className : String) (sites : List CallSite) :
    callTargets index className sites =
      (resolvedCalls index className sites).foldl addToGroup .empty := by
  unfold callTargets resolvedCalls
  rw [List.foldl_filterMap]
  congr 1
  funext groups site
  unfold resolvedCall? addToGroup
  cases targetOf index className site <;> rfl

theorem groupOf_concat (calls : List ResolvedCall) (call : ResolvedCall) :
    groupOf (calls ++ [call]) = some (match groupOf calls with
      | none => (call.detail, [call.line])
      | some (detail, lines) => (detail, lines ++ [call.line])) := by
  cases calls with
  | nil => rfl
  | cons first rest => simp [groupOf]

/-- A group has a first call. -/
theorem exists_of_groupOf_eq_some {calls : List ResolvedCall} {detail : MethodDetail}
    {lines : List Int64} (h : groupOf calls = some (detail, lines)) :
    ∃ call ∈ calls, call.detail = detail ∧ calls.map ResolvedCall.line = lines := by
  cases calls with
  | nil => exact absurd h (by simp [groupOf])
  | cons call rest =>
    obtain ⟨hdetail, hlines⟩ := Prod.mk.inj (Option.some.inj h)
    exact ⟨call, List.mem_cons_self, hdetail, hlines⟩

theorem exists_groupOf_eq_some {calls : List ResolvedCall} {call : ResolvedCall}
    (h : call ∈ calls) : ∃ detail lines, groupOf calls = some (detail, lines) := by
  cases calls with
  | nil => cases h
  | cons first rest => exact ⟨_, _, rfl⟩

theorem get?_addToGroup (groups : Dict String (MethodDetail × List Int64)) (call : ResolvedCall)
    (key : String) :
    (addToGroup groups call).get? key = if call.target = key then
        some (match groups.get? call.target with
          | none => (call.detail, [call.line])
          | some (detail, lines) => (detail, lines ++ [call.line]))
      else groups.get? key :=
  Dict.get?_insert ..

theorem get?_foldl_addToGroup (calls : List ResolvedCall) (key : String) :
    (calls.foldl addToGroup .empty).get? key = groupOf (calls.filter (·.target = key)) := by
  induction calls using List.reverseRecOn with
  | nil => rfl
  | append_singleton calls call ih =>
    -- the last call is added to the group of its target, and the other groups stay as they are
    rw [List.foldl_append, List.foldl_cons, List.foldl_nil, List.filter_append, get?_addToGroup]
    by_cases h : call.target = key
    · rw [if_pos h, List.filter_cons_of_pos (by simpa using h), List.filter_nil, groupOf_concat,
        h, ih]
    · rw [if_neg h, List.filter_cons_of_neg (by simpa using h), List.filter_nil,
        List.append_nil, ih]

/-- What the grouping of a method's calls holds under a key. -/
theorem get?_callTargets (index : SymbolIndex) (className : String) (sites : List CallSite)
    (key : String) :
    (callTargets index className sites).get? key =
      groupOf ((resolvedCalls index className sites).filter (·.target = key)) := by
  rw [callTargets_eq_foldl, get?_foldl_addToGroup]

/-- A target is grouped under the key of its own node. -/
theorem key_of_get?_callTargets {className target : String} {sites : List CallSite}
    {detail : MethodDetail} {lines : List Int64}
    (h : (callTargets index className sites).get? target = some (detail, lines)) :
    detail.key = target := by
  rw [get?_callTargets] at h
  obtain ⟨call, hcall, rfl, -⟩ := exists_of_groupOf_eq_some h
  obtain ⟨hcall, htarget⟩ := List.mem_filter.1 hcall
  obtain ⟨site, -, hcall⟩ := List.mem_filterMap.1 hcall
  obtain ⟨_, -, rfl⟩ := Option.map_eq_some_iff.1 hcall
  exact of_decide_eq_true htarget

theorem callTargets_isEmpty_iff {className : String} {sites : List CallSite} :
    (callTargets index className sites).isEmpty = true ↔
      ∀ site ∈ sites, targetOf index className site = none := by
  have hcalls : resolvedCalls index className sites = [] ↔
      ∀ site ∈ sites, targetOf index className site = none := by
    simp [resolvedCalls, resolvedCall?]
  rw [← hcalls]
  constructor
  · intro hempty
    cases hc : resolvedCalls index className sites with
    | nil => rfl
    | cons call rest =>
      have hget := get?_callTargets index className sites call.target
      rw [hc, List.filter_cons_of_pos (by simp), groupOf] at hget
      have hmem := Dict.mem_entries_iff.2 hget
      rw [List.isEmpty_iff.1 hempty] at hmem
      exact absurd hmem List.not_mem_nil
  · intro hnone
    rw [callTargets_eq_foldl, hnone]
    rfl

/-! ## The share of one method -/

/-- The calls of a declared method, grouped by target. -/
def targetsOf (index : SymbolIndex) (d : DeclaredMethod) :
    Dict String (MethodDetail × List Int64) :=
  callTargets index d.className d.method.callSites

/-- The edges for the calls of a declared method. -/
def edgesFrom (index : SymbolIndex) (d : DeclaredMethod) : List Edge :=
  (targetsOf index d).entries.map fun (target, _, lines) => callEdge d.key target lines

/-- The nodes for the calls of a declared method: itself and the methods that it calls. -/
def nodesFrom (index : SymbolIndex) (d : DeclaredMethod) : List (String × MethodDetail) :=
  if (targetsOf index d).isEmpty then []
  else (d.key, d.detail) :: (targetsOf index d).entries.map fun (target, detail, _) =>
    (target, detail)

theorem mem_edgesFrom {d : DeclaredMethod} {edge : Edge} :
    edge ∈ edgesFrom index d ↔ ∃ target detail lines,
      (targetsOf index d).get? target = some (detail, lines) ∧
        edge = callEdge d.key target lines := by
  simp only [edgesFrom, List.mem_map, Prod.exists, Dict.mem_entries_iff, eq_comm (a := edge)]

theorem mem_nodesFrom {d : DeclaredMethod} {key : String} {node : MethodDetail} :
    (key, node) ∈ nodesFrom index d ↔ ∃ target detail lines,
      (targetsOf index d).get? target = some (detail, lines) ∧
        (key = d.key ∧ node = d.detail ∨ key = target ∧ node = detail) := by
  unfold nodesFrom
  split
  · next hempty =>
    simp [← Dict.mem_entries_iff, List.isEmpty_iff.1 hempty]
  · next hempty =>
    -- there is a target, so the method itself is a node
    obtain ⟨⟨target, detail, lines⟩, hentry⟩ :=
      List.exists_mem_of_ne_nil _ fun h => hempty (List.isEmpty_iff.2 h)
    simp only [List.mem_cons, List.mem_map, Prod.exists, Prod.mk.injEq, ← Dict.mem_entries_iff]
    constructor
    · rintro (hself | ⟨target', detail', lines', hmem, rfl, rfl⟩)
      · exact ⟨target, detail, lines, hentry, .inl hself⟩
      · exact ⟨_, _, lines', hmem, .inr ⟨rfl, rfl⟩⟩
    · rintro ⟨target', detail', lines', hmem, hself | ⟨rfl, rfl⟩⟩
      · exact .inl hself
      · exact .inr ⟨_, _, lines', hmem, rfl, rfl⟩

theorem foldl_addTarget (source : String)
    (targets : List (String × MethodDetail × List Int64)) (graph : CallGraph) :
    targets.foldl (fun graph (target, detail, lines) =>
      (graph.addNode target detail).addEdge (callEdge source target lines)) graph =
    { nodes := graph.nodes.insertAllNew (targets.map fun (target, detail, _) => (target, detail))
      edges := graph.edges ++ targets.map fun (target, _, lines) =>
        callEdge source target lines } := by
  induction targets generalizing graph with
  | nil => simp
  | cons entry rest ih =>
    obtain ⟨target, detail, lines⟩ := entry
    rw [List.foldl_cons, ih]
    simp [Graph.addNode, Graph.addEdge, Dict.insertAllNew]

theorem addCalls_eq (index : SymbolIndex) (d : DeclaredMethod) (graph : CallGraph) :
    addCalls index d.className d.signature d.method graph =
      { nodes := graph.nodes.insertAllNew (nodesFrom index d)
        edges := graph.edges ++ edgesFrom index d } := by
  unfold addCalls
  show (if (targetsOf index d).isEmpty then graph else
    (targetsOf index d).entries.foldl _ (graph.addNode d.key d.detail)) = _
  unfold nodesFrom edgesFrom
  split
  · next hempty => simp [List.isEmpty_iff.1 hempty]
  · rw [foldl_addTarget]
    rfl

/-! ## The whole graph -/

theorem ofSymbols_eq_foldl (index : SymbolIndex) :
    ofSymbols index = (declaredMethods index.table).foldl
      (fun graph d => addCalls index d.className d.signature d.method graph) .empty := by
  unfold ofSymbols declaredMethods methodsOfUnit methodsOfType Dict.values
  simp only [List.foldl_map, List.foldl_flatMap]

theorem foldl_addCalls (index : SymbolIndex) (declared : List DeclaredMethod) (graph : CallGraph) :
    declared.foldl (fun graph d => addCalls index d.className d.signature d.method graph) graph =
      { nodes := graph.nodes.insertAllNew (declared.flatMap (nodesFrom index))
        edges := graph.edges ++ declared.flatMap (edgesFrom index) } := by
  induction declared generalizing graph with
  | nil => simp
  | cons d rest ih =>
    rw [List.foldl_cons, ih, addCalls_eq]
    simp [Dict.insertAllNew_append]

/-- The graph of a symbol table: every declared method adds its nodes and its edges in turn. -/
theorem ofSymbols_eq (index : SymbolIndex) :
    ofSymbols index =
      { nodes := Dict.empty.insertAllNew ((declaredMethods index.table).flatMap (nodesFrom index))
        edges := (declaredMethods index.table).flatMap (edgesFrom index) } := by
  rw [ofSymbols_eq_foldl, foldl_addCalls]
  rfl

theorem edges_ofSymbols (index : SymbolIndex) :
    (ofSymbols index).edges = (declaredMethods index.table).flatMap (edgesFrom index) := by
  rw [ofSymbols_eq]

theorem node?_ofSymbols (index : SymbolIndex) (key : String) :
    (ofSymbols index).node? key =
      Assoc.find? key ((declaredMethods index.table).flatMap (nodesFrom index)) := by
  rw [ofSymbols_eq, Graph.node?, Dict.get?_insertAllNew, Dict.get?_empty, Option.none_or]

/-- The nodes of the graph are the ends of its edges. -/
theorem containsNode_ofSymbols_iff {key : String} :
    (ofSymbols index).containsNode key = true ↔
      ∃ edge ∈ (ofSymbols index).edges, edge.source = key ∨ edge.target = key := by
  have hcontains : (ofSymbols index).containsNode key = ((ofSymbols index).node? key).isSome := rfl
  rw [hcontains, node?_ofSymbols, Assoc.find?_isSome_iff, Assoc.mem_keys_iff, edges_ofSymbols]
  simp only [List.mem_flatMap, mem_nodesFrom, mem_edgesFrom]
  constructor
  · rintro ⟨node, d, hd, target, detail, lines, hget, ⟨rfl, _⟩ | ⟨rfl, _⟩⟩
    · exact ⟨_, ⟨d, hd, target, detail, lines, hget, rfl⟩, .inl rfl⟩
    · exact ⟨_, ⟨d, hd, key, detail, lines, hget, rfl⟩, .inr rfl⟩
  · rintro ⟨_, ⟨d, hd, target, detail, lines, hget, rfl⟩, rfl | rfl⟩
    · exact ⟨d.detail, d, hd, target, detail, lines, hget, .inl ⟨rfl, rfl⟩⟩
    · exact ⟨detail, d, hd, target, detail, lines, hget, .inr ⟨rfl, rfl⟩⟩

end JavaAtlas.CallGraph
