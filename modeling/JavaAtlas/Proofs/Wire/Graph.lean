import JavaAtlas.Proofs.Data.Sorting
import JavaAtlas.Proofs.Wire.Encode
import JavaAtlas.Wire.Graph

set_option autoImplicit false

/-! # Graphs that have a wire form

One edge without a wire form fails the whole graph. `Graph.exists_encode_iff` says when that does
not happen: both ends of each edge are nodes, and the nodes and the edges have a wire form
themselves. An edge fails on its weight or on an attribute that has the name of a fixed member, so
in a closed graph without such attributes only the weights matter. -/

namespace JavaAtlas

/-! ## Edges -/

namespace Edge

variable {edge : Edge}

/-- The names of the members that an edge has besides its attributes. -/
def fixedNames : List String := ["source", "target", "type", "weight"]

/-- Whether no attribute has the name of a fixed member. -/
def AttributesFree (edge : Edge) : Prop := ∀ name ∈ edge.attributes.keys, name ∉ fixedNames

instance : DecidablePred AttributesFree :=
  fun edge => inferInstanceAs (Decidable (∀ name ∈ edge.attributes.keys, _))

/-- Whether the weight, if there is one, is finite. -/
def WeightFinite (edge : Edge) : Prop :=
  ∀ weight, edge.weight = some weight → weight.isFinite = true

theorem keys_withAttribute (name : String) (value : Json) :
    (edge.withAttribute name value).attributes.keys =
      if name ∈ edge.attributes.keys then edge.attributes.keys
      else edge.attributes.keys ++ [name] :=
  Dict.keys_insert ..

theorem get?_withAttribute (name other : String) (value : Json) :
    (edge.withAttribute name value).attributes.get? other =
      if name = other then some value else edge.attributes.get? other :=
  Dict.get?_insert ..

theorem get?_withAttribute? (name other : String) (value : Option Json) :
    (edge.withAttribute? name value).attributes.get? other =
      if name = other then value.or (edge.attributes.get? other)
      else edge.attributes.get? other := by
  cases value with
  | none => exact (ite_self _).symm
  | some value => exact get?_withAttribute name other value

/-- The new attribute must not have the name of a fixed member. -/
theorem AttributesFree.withAttribute (h : edge.AttributesFree) (name : String) (value : Json)
    (hname : name ∉ fixedNames) : (edge.withAttribute name value).AttributesFree := by
  intro other hother
  rw [keys_withAttribute] at hother
  split at hother
  · exact h other hother
  · rcases List.mem_append.1 hother with hother | hother
    · exact h other hother
    · exact List.mem_singleton.1 hother ▸ hname

theorem AttributesFree.withAttribute? (h : edge.AttributesFree) (name : String)
    (value : Option Json) (hname : name ∉ fixedNames) :
    (edge.withAttribute? name value).AttributesFree := by
  cases value with
  | none => exact h
  | some value => exact h.withAttribute name value hname

theorem weight_withAttribute? (name : String) (value : Option Json) :
    (edge.withAttribute? name value).weight = edge.weight := by
  cases value <;> rfl

theorem fixedMembers_subset {fixed : List (String × Json)} (h : edge.fixedMembers = .ok fixed) :
    Assoc.keys fixed ⊆ fixedNames := by
  unfold fixedMembers at h
  cases hweight : edge.weight with
  | none =>
    rw [hweight] at h
    obtain rfl := Except.ok.inj h
    show ["source", "target", "type"] ⊆ fixedNames
    decide
  | some weight =>
    rw [hweight] at h
    obtain ⟨value, -, hfixed⟩ := Fallible.bind_eq_ok_iff.1 h
    obtain rfl := Except.ok.inj hfixed
    exact List.Subset.refl _

theorem fixedMembers_eq_error_iff {e : EncodeError} :
    edge.fixedMembers = .error e ↔
      ∃ weight, edge.weight = some weight ∧ encode weight = .error e := by
  unfold fixedMembers
  cases edge.weight with
  | none => simp
  | some weight =>
    simp only [Fallible.bind_eq_error_iff, Option.some.injEq, exists_eq_left']
    simp

/-- Without attributes of a fixed name, an edge fails on its weight only. -/
theorem encode_eq_error_iff (hfree : edge.AttributesFree) {e : EncodeError} :
    encode edge = .error e ↔ ∃ weight, edge.weight = some weight ∧ encode weight = .error e := by
  show (edge.fixedMembers >>= fun fixed =>
    encodeEntries (Assoc.keys fixed) edge.attributes.entries >>= fun attributes =>
      .ok (.object (fixed ++ attributes)) : Encoded) = _ ↔ _
  rw [Fallible.bind_eq_error_iff, ← fixedMembers_eq_error_iff]
  -- what is left is that the attributes cannot fail: they are values already and have free names
  refine or_iff_left ?_
  rintro ⟨fixed, hfixed, hattributes⟩
  have hentries :
      ∃ members, encodeEntries (Assoc.keys fixed) edge.attributes.entries = .ok members := by
    refine exists_encodeEntries_iff.2 ⟨edge.attributes.nodup, ?_, fun entry _ => ⟨entry.2, rfl⟩⟩
    intro entry hentry hname
    exact hfree _ (List.mem_map_of_mem hentry) (fixedMembers_subset hfixed hname)
  obtain ⟨members, hmembers⟩ := hentries
  rw [hmembers] at hattributes
  exact absurd hattributes (by simp [bind, Except.bind])

theorem exists_encode_iff (hfree : edge.AttributesFree) :
    (∃ json, encode edge = .ok json) ↔ edge.WeightFinite := by
  constructor
  · rintro ⟨json, hjson⟩ weight hweight
    by_contra hinfinite
    have herror := (encode_eq_error_iff hfree).2
      ⟨weight, hweight, encode_double_eq_error_iff.2 ⟨Bool.eq_false_iff.2 hinfinite, rfl⟩⟩
    rw [hjson] at herror
    exact absurd herror (by simp)
  · intro hfinite
    cases hencode : encode edge with
    | ok json => exact ⟨json, rfl⟩
    | error e =>
      obtain ⟨weight, hweight, herror⟩ := (encode_eq_error_iff hfree).1 hencode
      have hinfinite := (encode_double_eq_error_iff.1 herror).1
      rw [hfinite weight hweight] at hinfinite
      exact absurd hinfinite (by simp)

end Edge

/-! ## Graphs -/

namespace Graph

variable {ν : Type} {g : Graph ν}

/-- Whether both ends of every edge are nodes. -/
def IsClosed (g : Graph ν) : Prop :=
  ∀ edge ∈ g.edges, g.containsNode edge.source = true ∧ g.containsNode edge.target = true

theorem exists_node?_iff {key : String} :
    (∃ node, g.node? key = some node) ↔ g.containsNode key = true := by
  rw [← Option.isSome_iff_exists]
  rfl

theorem danglingKey?_eq_none_iff : g.danglingKey? = none ↔ g.IsClosed := by
  unfold danglingKey? IsClosed
  simp [List.find?_eq_none, or_imp, forall_and]

theorem IsClosed.exists_nodes (h : g.IsClosed) {edge : Edge} (hedge : edge ∈ g.edges) :
    ∃ source target, g.node? edge.source = some source ∧ g.node? edge.target = some target := by
  obtain ⟨hsource, htarget⟩ := h edge hedge
  obtain ⟨source, hsource⟩ := exists_node?_iff.2 hsource
  obtain ⟨target, htarget⟩ := exists_node?_iff.2 htarget
  exact ⟨source, target, hsource, htarget⟩

/-- Whether encoding can fail on nothing but the nodes themselves and the weights of the edges. -/
structure IsPlain (g : Graph ν) : Prop where
  closed : g.IsClosed
  free : ∀ edge ∈ g.edges, edge.AttributesFree

variable [Encode ν]

theorem encode_eq_of_isClosed (hclosed : g.IsClosed) :
    encode g = (do
      let nodes ← (sortByText Prod.fst g.nodes.entries).mapM encodeNode
      let edges ← encodeItems g.edges
      .ok (.object [("nodes", .array nodes), ("edges", .array edges)])) := by
  unfold encode instEncode
  dsimp only
  rw [danglingKey?_eq_none_iff.2 hclosed]

theorem exists_encodeNode_iff {entry : String × ν} :
    (∃ json, encodeNode entry = .ok json) ↔ ∃ json, encode entry.2 = .ok json := by
  unfold encodeNode
  rw [Fallible.exists_bind_iff]
  simp

/-- **When a graph has a wire form.** -/
theorem exists_encode_iff :
    (∃ json, encode g = .ok json) ↔ g.IsClosed ∧
      (∀ entry ∈ g.nodes.entries, ∃ json, encode entry.2 = .ok json) ∧
        ∀ edge ∈ g.edges, ∃ json, encode edge = .ok json := by
  by_cases hclosed : g.IsClosed
  · rw [encode_eq_of_isClosed hclosed, Fallible.exists_bind_iff]
    simp only [Fallible.exists_bind_iff, Except.ok.injEq, exists_eq', and_true]
    rw [exists_and_right]
    unfold encodeItems
    rw [Fallible.exists_mapM_iff, Fallible.exists_mapM_iff]
    simp only [exists_encodeNode_iff, mem_sortByText, hclosed, true_and]
  · obtain ⟨key, hkey⟩ := Option.ne_none_iff_exists'.1 fun h =>
      hclosed (danglingKey?_eq_none_iff.1 h)
    have hencode : ∃ e, encode g = .error e := by
      unfold encode instEncode
      dsimp only
      rw [hkey]
      exact ⟨_, rfl⟩
    obtain ⟨e, he⟩ := hencode
    simp [he, hclosed]

/-- If nodes always have a wire form, a closed graph fails with the error of one of its edges. -/
theorem exists_of_encode_eq_error [AlwaysEncodes ν] (hclosed : g.IsClosed) {e : EncodeError}
    (h : encode g = .error e) : ∃ edge ∈ g.edges, encode edge = .error e := by
  rw [encode_eq_of_isClosed hclosed] at h
  rcases Fallible.bind_eq_error_iff.1 h with hnodes | ⟨nodes, -, h⟩
  · obtain ⟨entry, -, hentry⟩ := Fallible.exists_of_mapM_eq_error hnodes
    obtain ⟨json, hjson⟩ := exists_encodeNode_iff.2 (exists_encode entry.2)
    rw [hjson] at hentry
    exact absurd hentry (by simp)
  · rcases Fallible.bind_eq_error_iff.1 h with hedges | ⟨edges, -, hok⟩
    · exact Fallible.exists_of_mapM_eq_error hedges
    · exact absurd hok (by simp)

theorem IsPlain.exists_encode_iff [AlwaysEncodes ν] (hplain : g.IsPlain) :
    (∃ json, encode g = .ok json) ↔ ∀ edge ∈ g.edges, edge.WeightFinite := by
  rw [Graph.exists_encode_iff]
  constructor
  · rintro ⟨-, -, hedges⟩ edge hedge
    exact (Edge.exists_encode_iff (hplain.free edge hedge)).1 (hedges edge hedge)
  · intro hfinite
    exact ⟨hplain.closed, fun entry _ => exists_encode entry.2,
      fun edge hedge => (Edge.exists_encode_iff (hplain.free edge hedge)).2 (hfinite edge hedge)⟩

/-- The error names a weight that is not finite. -/
theorem IsPlain.exists_weight_of_error [AlwaysEncodes ν] (hplain : g.IsPlain) {e : EncodeError}
    (h : encode g = .error e) :
    ∃ edge ∈ g.edges, ∃ weight, edge.weight = some weight ∧ weight.isFinite = false ∧
      e = .unencodable ("non-finite number " ++ Layout.debug.text weight) := by
  obtain ⟨edge, hedge, he⟩ := exists_of_encode_eq_error hplain.closed h
  obtain ⟨weight, hweight, he⟩ := (Edge.encode_eq_error_iff (hplain.free edge hedge)).1 he
  exact ⟨edge, hedge, weight, hweight, encode_double_eq_error_iff.1 he⟩

end Graph

end JavaAtlas
