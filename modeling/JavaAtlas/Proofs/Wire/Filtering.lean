import JavaAtlas.Proofs.Wire.Building

set_option autoImplicit false

/-! # Graphs with some of their edges

A graph that is cut down to some of its edges has their ends as nodes, in the order in which the
edges first touch them (`filterEdges_eq`). Looking up a key therefore gives what the graph has under
it or nothing (`node?_filterEdges`), which makes a second cut the cut by both conditions, and since
nodes are written in the order of their keys, the wire form of the cut is a part of the wire form of
the graph. -/

namespace JavaAtlas

/-! ## Results that are kept -/

/-- The items that go in step with elements which satisfy `p`. -/
def itemsOf {α : Type} (p : α → Bool) (elements : List α) (items : List Json) : List Json :=
  ((elements.zip items).filter fun pair => p pair.1).map Prod.snd

theorem itemsOf_map {α β : Type} (f : α → β) (p : β → Bool) (elements : List α)
    (items : List Json) : itemsOf p (elements.map f) items = itemsOf (p ∘ f) elements items := by
  unfold itemsOf
  rw [List.zip_map_left, List.filter_map, List.map_map]
  rfl

/-- Leaving out elements leaves out their results. -/
theorem mapM_filter {α ε : Type} {f : α → Except ε Json} {l : List α} {items : List Json}
    (h : l.mapM f = .ok items) (p : α → Bool) : (l.filter p).mapM f = .ok (itemsOf p l items) := by
  rw [Fallible.mapM_eq_ok_iff] at h ⊢
  induction h with
  | nil => exact .nil
  | @cons a item rest items ha _ ih =>
    unfold itemsOf at ih ⊢
    rw [List.zip_cons_cons, List.filter_cons, List.filter_cons]
    split
    · exact .cons ha ih
    · exact ih

namespace Graph

variable {ν : Type} {g : Graph ν}

/-- The keys that some edges refer to, in order. -/
def endsOf (edges : List Edge) : List String := edges.flatMap fun edge => [edge.source, edge.target]

/-- The nodes under some keys, as far as there are any, in order. -/
def nodesAt (g : Graph ν) (keys : List String) : List (String × ν) :=
  keys.filterMap fun key => (g.node? key).map (key, ·)

/-! ## Copying nodes -/

theorem copyNode_eq (key : String) (sub : Graph ν) :
    g.copyNode key sub = { sub with nodes := sub.nodes.insertAllNew (g.nodesAt [key]) } := by
  unfold copyNode nodesAt
  cases hnode : g.node? key with
  | none => simp [hnode]
  | some node =>
    simp only [List.filterMap_cons, hnode, Option.map_some, List.filterMap_nil]
    rfl

theorem nodesAt_append (keys more : List String) :
    g.nodesAt (keys ++ more) = g.nodesAt keys ++ g.nodesAt more :=
  List.filterMap_append

theorem find?_nodesAt (keys : List String) (key : String) :
    Assoc.find? key (g.nodesAt keys) = if key ∈ keys then g.node? key else none := by
  induction keys with
  | nil => rfl
  | cons first rest ih =>
    unfold nodesAt at ih ⊢
    rw [List.filterMap_cons]
    by_cases hkey : first = key
    · subst hkey
      rw [if_pos List.mem_cons_self]
      cases hnode : g.node? first with
      | some node => exact if_pos rfl
      | none =>
        rw [hnode] at ih
        simpa using ih
    · have hmem : key ∈ first :: rest ↔ key ∈ rest := by simp [Ne.symm hkey]
      simp only [hmem]
      cases g.node? first with
      | none => exact ih
      | some node =>
        rw [← ih]
        exact if_neg hkey

/-! ## What is kept -/

theorem foldl_copyNode (edges : List Edge) (sub : Graph ν) :
    edges.foldl
        (fun sub edge => (g.copyNode edge.target (g.copyNode edge.source sub)).addEdge edge) sub =
      { nodes := sub.nodes.insertAllNew (g.nodesAt (endsOf edges))
        edges := sub.edges ++ edges } := by
  induction edges generalizing sub with
  | nil => simp [endsOf, nodesAt]
  | cons edge rest ih =>
    have hends : endsOf (edge :: rest) = [edge.source] ++ ([edge.target] ++ endsOf rest) := rfl
    rw [List.foldl_cons, ih, copyNode_eq, copyNode_eq, hends, nodesAt_append, nodesAt_append,
      Dict.insertAllNew_append, Dict.insertAllNew_append]
    show Graph.mk _ (sub.edges ++ [edge] ++ rest) = _
    rw [List.append_assoc]
    rfl

/-- The nodes and the edges that are kept. -/
theorem filterEdges_eq (g : Graph ν) (keep : Edge → Bool) :
    g.filterEdges keep =
      { nodes := Dict.empty.insertAllNew (g.nodesAt (endsOf (g.edges.filter keep)))
        edges := g.edges.filter keep } :=
  foldl_copyNode (g.edges.filter keep) empty

theorem edges_filterEdges (g : Graph ν) (keep : Edge → Bool) :
    (g.filterEdges keep).edges = g.edges.filter keep := by
  rw [filterEdges_eq]

theorem node?_filterEdges (g : Graph ν) (keep : Edge → Bool) (key : String) :
    (g.filterEdges keep).node? key =
      if key ∈ endsOf (g.edges.filter keep) then g.node? key else none := by
  rw [filterEdges_eq]
  show (Dict.empty.insertAllNew (g.nodesAt _)).get? key = _
  rw [Dict.get?_insertAllNew, Dict.get?_empty, Option.none_or, find?_nodesAt]

theorem mem_entries_filterEdges {keep : Edge → Bool} {entry : String × ν} :
    entry ∈ (g.filterEdges keep).nodes.entries ↔
      entry ∈ g.nodes.entries ∧ decide (entry.1 ∈ endsOf (g.edges.filter keep)) = true := by
  obtain ⟨key, node⟩ := entry
  rw [Dict.mem_entries_iff, Dict.mem_entries_iff, decide_eq_true_eq]
  show (g.filterEdges keep).node? key = some node ↔ g.node? key = some node ∧ _
  rw [node?_filterEdges]
  by_cases hkey : key ∈ endsOf (g.edges.filter keep)
  · simp [hkey]
  · simp [hkey]

theorem IsClosed.filterEdges (h : g.IsClosed) (keep : Edge → Bool) :
    (g.filterEdges keep).IsClosed := by
  intro edge hedge
  rw [edges_filterEdges] at hedge
  have hnode : ∀ key ∈ [edge.source, edge.target],
      (g.filterEdges keep).containsNode key = g.containsNode key := by
    intro key hkey
    have hend : key ∈ endsOf (g.edges.filter keep) := List.mem_flatMap.2 ⟨edge, hedge, hkey⟩
    show ((g.filterEdges keep).node? key).isSome = (g.node? key).isSome
    rw [node?_filterEdges, if_pos hend]
  rw [hnode _ (by simp), hnode _ (by simp)]
  exact h edge (List.mem_of_mem_filter hedge)

/-! ## Two cuts -/

/-- A cut has the nodes of the graph at all keys that its edges refer to. -/
theorem nodesAt_filterEdges {keep : Edge → Bool} {keys : List String}
    (h : ∀ key ∈ keys, key ∈ endsOf (g.edges.filter keep)) :
    (g.filterEdges keep).nodesAt keys = g.nodesAt keys := by
  refine List.filterMap_congr fun key hkey => ?_
  rw [node?_filterEdges, if_pos (h key hkey)]

theorem filterEdges_filterEdges (g : Graph ν) (p q : Edge → Bool) :
    (g.filterEdges q).filterEdges p = g.filterEdges fun edge => p edge && q edge := by
  have hends : ∀ key ∈ endsOf ((g.edges.filter q).filter p), key ∈ endsOf (g.edges.filter q) := by
    intro key hkey
    obtain ⟨edge, hedge, hkey⟩ := List.mem_flatMap.1 hkey
    exact List.mem_flatMap.2 ⟨edge, List.mem_of_mem_filter hedge, hkey⟩
  rw [filterEdges_eq (g.filterEdges q), edges_filterEdges, nodesAt_filterEdges hends,
    List.filter_filter, filterEdges_eq g]

/-! ## The wire form of a cut -/

variable [Encode ν]

/-- The wire form of a cut is the part of the wire form of the graph that belongs to the edges that
are kept and to their ends. -/
theorem encode_filterEdges {nodes edges : List Json} {keep : Edge → Bool}
    (h : encode g = .ok (.object [("nodes", .array nodes), ("edges", .array edges)])) :
    encode (g.filterEdges keep) = .ok (.object [
      ("nodes", .array (itemsOf (· ∈ endsOf (g.edges.filter keep)) g.sortedKeys nodes)),
      ("edges", .array (itemsOf keep g.edges edges))]) := by
  have hclosed : g.IsClosed := (exists_encode_iff.1 ⟨_, h⟩).1
  rw [encode_eq_of_isClosed hclosed] at h
  obtain ⟨nodes', hnodes, h⟩ := Fallible.bind_eq_ok_iff.1 h
  obtain ⟨edges', hedges, h⟩ := Fallible.bind_eq_ok_iff.1 h
  obtain ⟨rfl, rfl⟩ : nodes' = nodes ∧ edges' = edges := by simpa using Except.ok.inj h
  have hclosed' : (g.filterEdges keep).IsClosed := hclosed.filterEdges keep
  have hsorted : sortByText Prod.fst (g.filterEdges keep).nodes.entries =
      (sortByText Prod.fst g.nodes.entries).filter
        fun entry => decide (entry.1 ∈ endsOf (g.edges.filter keep)) :=
    sortByText_filter g.nodes.nodup (g.filterEdges keep).nodes.nodup
      fun _ => mem_entries_filterEdges
  rw [encode_eq_of_isClosed hclosed', hsorted, mapM_filter hnodes, edges_filterEdges]
  unfold encodeItems
  rw [mapM_filter hedges, sortedKeys, itemsOf_map]
  rfl

/-- **Cutting a graph down to some of its edges.** A graph that has a wire form still has one when
it is cut down to the edges that satisfy a condition. It lists the entries of the edges that satisfy
the condition, and the entries of the keys that are ends of such edges, each as the graph has them
and in the order in which the graph has them. Cutting by one condition and then by another leaves
the graph, with its nodes in the same order, that cutting by both at once leaves. -/
theorem filterEdges_exact (g : Graph ν) (p q : Edge → Bool) :
    (∀ json, encode g = .ok json → ∃ nodes edges,
      json = .object [("nodes", .array nodes), ("edges", .array edges)] ∧
      List.Forall₂ g.WritesNode g.sortedKeys nodes ∧
      List.Forall₂ (WritesEdge g.sortedKeys) g.edges edges ∧
      encode (g.filterEdges p) = .ok (.object [
        ("nodes", .array (itemsOf (· ∈ endsOf (g.edges.filter p)) g.sortedKeys nodes)),
        ("edges", .array (itemsOf p g.edges edges))])) ∧
    (g.filterEdges q).filterEdges p = g.filterEdges fun edge => p edge && q edge := by
  refine ⟨fun json hjson => ?_, filterEdges_filterEdges g p q⟩
  obtain ⟨nodes, edges, rfl, hnodes, hedges⟩ := exists_of_encode_eq_ok hjson
  exact ⟨nodes, edges, rfl, hnodes, hedges, encode_filterEdges hjson⟩

/-- Of two calls the second one is kept, with the two later ones of three keys. -/
theorem filterEdges_exact_callRun :
    let g := build callRun
    ∃ nodes edges, encode g = .ok (.object [("nodes", .array nodes), ("edges", .array edges)]) ∧
      nodes.length = 3 ∧ edges.length = 2 ∧
      encode (g.filterEdges (·.source == "C#stop()")) = .ok (.object [
        ("nodes", .array (nodes.drop 1)), ("edges", .array (edges.drop 1))]) := by
  intro g
  have hkeys : g.sortedKeys = ["A#run()", "B#go()", "C#stop()"] := by
    refine eq_of_increasingBy (pairwise_sortedKeys g : IncreasingBy id _)
      (by unfold IncreasingBy; decide) fun key => ?_
    rw [mem_sortedKeys_iff]
    exact Dict.contains_iff ..
  obtain ⟨json, hjson⟩ : ∃ json, encode g = .ok json := by
    refine exists_encode_iff.2 ⟨?_, fun entry _ => ⟨_, rfl⟩, fun edge hedge => ?_⟩
    · unfold IsClosed
      decide +kernel
    · have hfree : edge.AttributesFree ∧ edge.weight = none := by
        revert edge
        decide +kernel
      exact (Edge.exists_encode_iff hfree.1).2 fun weight h => nomatch hfree.2.symm.trans h
  obtain ⟨nodes, edges, rfl, hnodes, hedges, hcut⟩ :=
    (filterEdges_exact g (·.source == "C#stop()") fun _ => true).1 json hjson
  rw [hkeys] at hnodes hcut
  obtain ⟨run, rest, -, hrest, rfl⟩ := List.forall₂_cons_left_iff.1 hnodes
  obtain ⟨first, more, -, hmore, rfl⟩ := List.forall₂_cons_left_iff.1 hedges
  have hrest' : rest.length = 2 := hrest.length_eq.symm
  have hmore' : more.length = 1 := hmore.length_eq.symm
  obtain ⟨go, stop, rfl⟩ := List.length_eq_two.1 hrest'
  obtain ⟨second, rfl⟩ := List.length_eq_one_iff.1 hmore'
  exact ⟨_, _, hjson, rfl, rfl, hcut⟩

end Graph

end JavaAtlas
