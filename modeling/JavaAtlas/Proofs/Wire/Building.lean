import JavaAtlas.Proofs.Data.Dict
import JavaAtlas.Proofs.Wire.Graph

set_option autoImplicit false

/-! # Graphs that are built step by step

A graph is built by a run of additions of nodes and edges in any interleaving. `foldl_add` undoes
the run: the nodes of the graph are the first ones under their keys, and its edges are those of the
run. The wire form depends on nothing but the edges and the lookup of nodes (`encode_congr`), so it
does not show in which order nodes were added. -/

namespace JavaAtlas

namespace Graph

/-- One addition to a graph. -/
inductive Addition (ν : Type) where
  | node (key : String) (node : ν)
  | edge (edge : Edge)

variable {ν : Type}

/-- The graph after one more addition. -/
def add (g : Graph ν) : Addition ν → Graph ν
  | .node key node => g.addNode key node
  | .edge edge => g.addEdge edge

/-- The graph that a run of additions builds. -/
def build (run : List (Addition ν)) : Graph ν := run.foldl add .empty

/-- The nodes that a run adds, each with its key, in order. -/
def addedNodes (run : List (Addition ν)) : List (String × ν) :=
  run.filterMap fun
    | .node key node => some (key, node)
    | .edge _ => none

/-- The edges that a run adds, in order. -/
def addedEdges (run : List (Addition ν)) : List Edge :=
  run.filterMap fun
    | .node _ _ => none
    | .edge edge => some edge

/-- Whether a node is the first one that a run adds under a key. -/
def AddsFirst (run : List (Addition ν)) (key : String) (node : ν) : Prop :=
  ∃ before after, run = before ++ .node key node :: after ∧ ∀ other, .node key other ∉ before

/-- Whether a run adds no two nodes under one key. -/
def OneNodePerKey (run : List (Addition ν)) : Prop :=
  ∀ key node other, .node key node ∈ run → .node key other ∈ run → node = other

variable {run : List (Addition ν)}

/-! ## What a run builds -/

theorem foldl_add (run : List (Addition ν)) (g : Graph ν) :
    run.foldl add g =
      { nodes := g.nodes.insertAllNew (addedNodes run), edges := g.edges ++ addedEdges run } := by
  induction run generalizing g with
  | nil => simp [addedNodes, addedEdges]
  | cons addition rest ih =>
    rw [List.foldl_cons, ih]
    cases addition with
    | node key node => rfl
    | edge edge =>
      show Graph.mk _ (g.edges ++ [edge] ++ addedEdges rest) = _
      rw [List.append_assoc]
      rfl

theorem edges_build (run : List (Addition ν)) : (build run).edges = addedEdges run := by
  unfold build
  rw [foldl_add]
  rfl

theorem node?_build (run : List (Addition ν)) (key : String) :
    (build run).node? key = Assoc.find? key (addedNodes run) := by
  unfold build node?
  rw [foldl_add]
  show (Dict.empty.insertAllNew (addedNodes run)).get? key = _
  rw [Dict.get?_insertAllNew, Dict.get?_empty, Option.none_or]

theorem mem_addedNodes {key : String} {node : ν} :
    (key, node) ∈ addedNodes run ↔ .node key node ∈ run := by
  unfold addedNodes
  rw [List.mem_filterMap]
  constructor
  · rintro ⟨addition | edge, hmem, heq⟩
    · obtain ⟨rfl, rfl⟩ := Prod.mk.inj (Option.some.inj heq)
      exact hmem
    · exact absurd heq (by simp)
  · intro hmem
    exact ⟨_, hmem, rfl⟩

theorem mem_addedEdges {edge : Edge} : edge ∈ addedEdges run ↔ .edge edge ∈ run := by
  unfold addedEdges
  rw [List.mem_filterMap]
  constructor
  · rintro ⟨addition | edge', hmem, heq⟩
    · exact absurd heq (by simp)
    · obtain rfl := Option.some.inj heq
      exact hmem
  · intro hmem
    exact ⟨_, hmem, rfl⟩

theorem addsFirst_cons_iff {addition : Addition ν} {key : String} {node : ν} :
    AddsFirst (addition :: run) key node ↔
      addition = .node key node ∨
        (∀ other, addition ≠ .node key other) ∧ AddsFirst run key node := by
  constructor
  · rintro ⟨before, after, hrun, hbefore⟩
    cases before with
    | nil => exact .inl (List.cons.inj hrun).1
    | cons first before =>
      obtain ⟨rfl, hrest⟩ := List.cons.inj hrun
      refine .inr ⟨fun other heq => hbefore other (heq ▸ List.mem_cons_self), before, after, hrest,
        fun other hmem => hbefore other (List.mem_cons_of_mem _ hmem)⟩
  · rintro (rfl | ⟨hother, before, after, rfl, hbefore⟩)
    · exact ⟨[], run, rfl, fun _ => List.not_mem_nil⟩
    · refine ⟨addition :: before, after, rfl, fun other hmem => ?_⟩
      rcases List.mem_cons.1 hmem with heq | hmem
      · exact hother other heq.symm
      · exact hbefore other hmem

/-- The node under a key is the first one that was added under it. -/
theorem node?_build_eq_some_iff {key : String} {node : ν} :
    (build run).node? key = some node ↔ AddsFirst run key node := by
  rw [node?_build]
  induction run with
  | nil => simp [addedNodes, AddsFirst]
  | cons addition rest ih =>
    rw [addsFirst_cons_iff, ← ih]
    cases addition with
    | node key' node' =>
      show Assoc.find? key ((key', node') :: addedNodes rest) = _ ↔ _
      rw [Assoc.find?_cons]
      by_cases hkey : key' = key <;> simp [hkey]
    | edge edge => simp [addedNodes]

/-- If keys have one node each, the node under a key is the one that was added, wherever. -/
theorem OneNodePerKey.node?_build_eq_some_iff (hone : OneNodePerKey run) {key : String} {node : ν} :
    (build run).node? key = some node ↔ .node key node ∈ run := by
  rw [node?_build, ← mem_addedNodes]
  refine ⟨Assoc.mem_of_find?_eq_some, fun hmem => ?_⟩
  obtain ⟨other, hother⟩ :=
    Option.isSome_iff_exists.1 (Assoc.find?_isSome_iff.2 (Assoc.mem_keys_iff.2 ⟨node, hmem⟩))
  rw [hother, hone key node other (mem_addedNodes.1 hmem)
    (mem_addedNodes.1 (Assoc.mem_of_find?_eq_some hother))]

/-! ## The wire form of a graph -/

variable [Encode ν]

/-- The wire form depends on the edges and on the lookup of nodes only. -/
theorem encode_congr {g h : Graph ν} (hedges : g.edges = h.edges)
    (hnodes : ∀ key, g.node? key = h.node? key) : encode g = encode h := by
  have hdangling : g.danglingKey? = h.danglingKey? := by
    have hcontains : ∀ key, g.containsNode key = h.containsNode key :=
      fun key => congrArg Option.isSome (hnodes key)
    unfold danglingKey?
    simp only [hedges, hcontains]
  have hsorted : sortByText Prod.fst g.nodes.entries = sortByText Prod.fst h.nodes.entries := by
    refine sortByText_eq_of_mem_iff g.nodes.nodup h.nodes.nodup ?_
    rintro ⟨key, node⟩
    rw [Dict.mem_entries_iff, Dict.mem_entries_iff]
    exact iff_of_eq (congrArg (· = some node) (hnodes key))
  unfold encode instEncode
  dsimp only
  rw [hdangling, hsorted, hedges]

theorem encodeNode_eq_ok_iff {entry : String × ν} {json : Json} :
    encodeNode entry = .ok json ↔ ∃ data, encode entry.2 = .ok data ∧
      json = .object [("key", .string entry.1), ("data", data)] := by
  unfold encodeNode
  rw [Fallible.bind_eq_ok_iff]
  simp only [Except.ok.injEq, eq_comm (a := json)]

/-- What stands on the wire for the node under a key. -/
def WritesNode (g : Graph ν) (key : String) (entry : Json) : Prop :=
  ∃ node data, g.node? key = some node ∧ encode node = .ok data ∧
    entry = .object [("key", .string key), ("data", data)]

/-- What stands on the wire for an edge between two of the given keys. -/
def WritesEdge (keys : List String) (edge : Edge) (entry : Json) : Prop :=
  encode edge = .ok entry ∧ edge.source ∈ keys ∧ edge.target ∈ keys ∧
    entry.member? "source" = some (.string edge.source) ∧
      entry.member? "target" = some (.string edge.target)

theorem forall₂_writesNode {g : Graph ν} {entries : List Json}
    (h : (sortByText Prod.fst g.nodes.entries).mapM encodeNode = .ok entries) :
    List.Forall₂ g.WritesNode ((sortByText Prod.fst g.nodes.entries).map Prod.fst) entries := by
  have hstored : ∀ entry ∈ sortByText Prod.fst g.nodes.entries,
      g.node? entry.1 = some entry.2 := fun entry hentry =>
    Dict.mem_entries_iff.1 (mem_sortByText.1 hentry)
  rw [List.forall₂_map_left_iff]
  refine ((List.forall₂_and_left _ _).2 ⟨hstored, Fallible.mapM_eq_ok_iff.1 h⟩).imp ?_
  rintro ⟨key, node⟩ entry ⟨hnode, hentry⟩
  obtain ⟨data, hdata, rfl⟩ := encodeNode_eq_ok_iff.1 hentry
  exact ⟨node, data, hnode, hdata, rfl⟩

/-- The ends of an edge are written first. -/
theorem ends_of_encode_edge {edge : Edge} {entry : Json} (h : encode edge = .ok entry) :
    entry.member? "source" = some (.string edge.source) ∧
      entry.member? "target" = some (.string edge.target) := by
  obtain ⟨fixed, hfixed, h⟩ := Fallible.bind_eq_ok_iff.1 h
  obtain ⟨attributes, -, h⟩ := Fallible.bind_eq_ok_iff.1 h
  obtain rfl := Except.ok.inj h
  unfold Edge.fixedMembers at hfixed
  split at hfixed
  · obtain rfl := Except.ok.inj hfixed
    exact ⟨rfl, rfl⟩
  · obtain ⟨weight, -, hfixed⟩ := Fallible.bind_eq_ok_iff.1 hfixed
    obtain rfl := Except.ok.inj hfixed
    exact ⟨rfl, rfl⟩

/-- The keys of a graph in increasing order. -/
def sortedKeys (g : Graph ν) : List String := (sortByText Prod.fst g.nodes.entries).map Prod.fst

omit [Encode ν] in
theorem pairwise_sortedKeys (g : Graph ν) : g.sortedKeys.Pairwise (· < ·) :=
  List.pairwise_map.2 (increasingBy_sortByText g.nodes.nodup)

omit [Encode ν] in
theorem mem_sortedKeys_iff {g : Graph ν} {key : String} :
    key ∈ g.sortedKeys ↔ g.containsNode key = true := by
  unfold sortedKeys
  rw [← exists_node?_iff]
  simp only [List.mem_map, mem_sortByText, Prod.exists, exists_and_right, exists_eq_right,
    Dict.mem_entries_iff]
  rfl

/-- A wire form lists the nodes in the order of their keys and the edges in the order in which they
were added. -/
theorem exists_of_encode_eq_ok {g : Graph ν} {json : Json} (h : encode g = .ok json) :
    ∃ nodes edges, json = .object [("nodes", .array nodes), ("edges", .array edges)] ∧
      List.Forall₂ g.WritesNode g.sortedKeys nodes ∧
        List.Forall₂ (WritesEdge g.sortedKeys) g.edges edges := by
  have hclosed : g.IsClosed := (exists_encode_iff.1 ⟨json, h⟩).1
  rw [encode_eq_of_isClosed hclosed] at h
  obtain ⟨nodes, hnodes, h⟩ := Fallible.bind_eq_ok_iff.1 h
  obtain ⟨edges, hedges, h⟩ := Fallible.bind_eq_ok_iff.1 h
  refine ⟨nodes, edges, (Except.ok.inj h).symm, forall₂_writesNode hnodes, ?_⟩
  refine ((List.forall₂_and_left _ _).2 ⟨hclosed, Fallible.mapM_eq_ok_iff.1 hedges⟩).imp ?_
  rintro edge entry ⟨⟨hsource, htarget⟩, hentry⟩
  exact ⟨hentry, mem_sortedKeys_iff.2 hsource, mem_sortedKeys_iff.2 htarget,
    ends_of_encode_edge hentry⟩

/-! ## Faithful encoding -/

/-- **Encoding a graph that was built step by step.** The stored nodes are the first ones added
under their keys. The graph has a wire form exactly if both ends of every edge are stored and every
stored node and every edge has one. It then has one entry per stored key, in increasing order of
keys, with the encoding of the first node added under the key, and one entry per added edge, in the
order of addition, whose ends are keys of entries. A run that adds the same edges in the same order
and the same nodes, one per key, in any order makes the same of it. -/
theorem encode_build (run : List (Addition ν)) :
    let g := build run
    (∀ key node, g.node? key = some node ↔ AddsFirst run key node) ∧
    ((∃ json, encode g = .ok json) ↔
      (∀ edge, .edge edge ∈ run →
        g.containsNode edge.source = true ∧ g.containsNode edge.target = true) ∧
      (∀ key node, AddsFirst run key node → ∃ json, encode node = .ok json) ∧
      (∀ edge, .edge edge ∈ run → ∃ json, encode edge = .ok json)) ∧
    (∀ json, encode g = .ok json → ∃ keys nodes edges,
      json = .object [("nodes", .array nodes), ("edges", .array edges)] ∧
      keys.Pairwise (· < ·) ∧ (∀ key, key ∈ keys ↔ g.containsNode key = true) ∧
      List.Forall₂ (fun key entry => ∃ node data, AddsFirst run key node ∧
        encode node = .ok data ∧ entry = .object [("key", .string key), ("data", data)])
          keys nodes ∧
      List.Forall₂ (WritesEdge keys) (addedEdges run) edges) ∧
    (∀ other : List (Addition ν), addedEdges other = addedEdges run →
      (∀ key node, .node key node ∈ other ↔ .node key node ∈ run) → OneNodePerKey run →
        encode (build other) = encode g) := by
  intro g
  have hfirst : ∀ key node, g.node? key = some node ↔ AddsFirst run key node :=
    fun _ _ => node?_build_eq_some_iff
  have hedges : g.edges = addedEdges run := edges_build run
  refine ⟨hfirst, ?_, ?_, ?_⟩
  · rw [exists_encode_iff, IsClosed, hedges]
    simp only [mem_addedEdges, Prod.forall, Dict.mem_entries_iff]
    simp only [← hfirst]
    rfl
  · intro json hjson
    obtain ⟨nodes, edges, rfl, hnodes, hwritten⟩ := exists_of_encode_eq_ok hjson
    refine ⟨g.sortedKeys, nodes, edges, rfl, pairwise_sortedKeys g, fun _ => mem_sortedKeys_iff,
      hnodes.imp ?_, hedges ▸ hwritten⟩
    rintro key entry ⟨node, data, hnode, hdata, hentry⟩
    exact ⟨node, data, (hfirst key node).1 hnode, hdata, hentry⟩
  · intro other hsame hnodes hone
    have hone' : OneNodePerKey other := fun key node node' h h' =>
      hone key node node' ((hnodes key node).1 h) ((hnodes key node').1 h')
    refine encode_congr ((edges_build other).trans (hsame.trans hedges.symm)) fun key => ?_
    refine Option.ext fun node => ?_
    rw [hone'.node?_build_eq_some_iff, hone.node?_build_eq_some_iff]
    exact hnodes key node

/-- Two calls between three methods: nodes are added before and after the edges that touch them. -/
def callRun : List (Addition String) := [
  .node "A#run()" "run", .node "B#go()" "go",
  .edge { source := "A#run()", target := "B#go()", edgeType := "CALL_DEP" },
  .edge { source := "C#stop()", target := "B#go()", edgeType := "CALL_DEP" },
  .node "C#stop()" "stop"]

/-- The same nodes and edges; the nodes come in another order and one of them twice. -/
def callRunReordered : List (Addition String) := [
  .node "C#stop()" "stop", .node "B#go()" "go",
  .edge { source := "A#run()", target := "B#go()", edgeType := "CALL_DEP" },
  .node "A#run()" "run", .node "B#go()" "go",
  .edge { source := "C#stop()", target := "B#go()", edgeType := "CALL_DEP" }]

theorem encode_build_callRun :
    addedEdges callRunReordered = addedEdges callRun ∧
      (∀ key node, .node key node ∈ callRunReordered ↔ .node key node ∈ callRun) ∧
      OneNodePerKey callRun ∧ encode (build callRunReordered) = encode (build callRun) := by
  have hedges : addedEdges callRunReordered = addedEdges callRun := rfl
  have hnodes : ∀ key node,
      .node key node ∈ callRunReordered ↔ .node key node ∈ callRun := by
    intro key node
    simp only [callRunReordered, callRun, List.mem_cons, Addition.node.injEq, List.not_mem_nil,
      or_false, reduceCtorEq, false_or]
    tauto
  have hone : OneNodePerKey callRun := by
    have hpairs : ∀ pair ∈ addedNodes callRun, ∀ other ∈ addedNodes callRun,
        pair.1 = other.1 → pair.2 = other.2 := by decide
    intro key node other hnode hother
    exact hpairs _ (mem_addedNodes.2 hnode) _ (mem_addedNodes.2 hother) rfl
  exact ⟨hedges, hnodes, hone, (encode_build callRun).2.2.2 _ hedges hnodes hone⟩

end Graph

end JavaAtlas
