import JavaAtlas.Proofs.Wire.Graph
import JavaAtlas.Proofs.Wire.Members

set_option autoImplicit false

/-! # Attributes beside the fixed members of an edge

The wire form of an edge is its fixed members followed by its attributes as they are
(`encode_eq_ok_iff`), and an attribute is refused if it has the name of a member that is already
there. The weight is there only if the edge has one, so an edge without a weight may carry an
attribute that reads like a weight. Nothing else gets lost: two edges with the same wire form are
equal if both have a weight or neither does (`attributes_apart_iff`). -/

namespace JavaAtlas

/-- Entries of distinct keys that are values already fail at the first key that is taken. -/
theorem encodeEntries_json_eq_error_iff {entries : List (String × Json)}
    (hnodup : (Assoc.keys entries).Nodup) {taken : List String} {e : EncodeError} :
    encodeEntries taken entries = .error e ↔ ∃ before entry after,
      entries = before ++ entry :: after ∧ (∀ earlier ∈ before, earlier.1 ∉ taken) ∧
        entry.1 ∈ taken ∧ e = .keyCollision entry.1 := by
  rw [encodeEntries_eq_error_iff]
  refine exists₃_congr fun before entry after => and_congr_right ?_
  rintro rfl
  obtain ⟨hbefore, -, hdisjoint⟩ : (Assoc.keys before).Nodup ∧
      (Assoc.keys (entry :: after)).Nodup ∧
        ∀ name ∈ Assoc.keys before, ∀ other ∈ Assoc.keys (entry :: after), name ≠ other := by
    rwa [Assoc.keys, List.map_append, List.nodup_append] at hnodup
  have hwritten : (∃ members, encodeEntries taken before = .ok members) ↔
      ∀ earlier ∈ before, earlier.1 ∉ taken := by
    rw [exists_encodeEntries_iff]
    exact ⟨fun h => h.2.1, fun h => ⟨hbefore, h, fun earlier _ => ⟨earlier.2, rfl⟩⟩⟩
  -- the entries before it have other names, and a value cannot fail
  have hfault : IsAtFault (entryNames before ++ taken) entry e ↔
      entry.1 ∈ taken ∧ e = .keyCollision entry.1 := by
    have hfresh : entry.1 ∉ entryNames before := fun hmem =>
      hdisjoint _ hmem _ List.mem_cons_self rfl
    have hvalue : encode entry.2 ≠ .error e := nofun
    show (entry.1 ∈ entryNames before ++ taken ∧ e = .keyCollision entry.1 ∨
      entry.1 ∉ entryNames before ++ taken ∧ encode entry.2 = .error e) ↔ _
    rw [List.mem_append, or_iff_right hfresh, or_iff_left fun h => hvalue h.2]
  rw [hwritten, hfault]

/-- Entries that are values already are their own members. -/
theorem encodeEntries_json_eq_ok {entries members : List (String × Json)} {taken : List String}
    (h : encodeEntries taken entries = .ok members) : members = entries := by
  have hsame : List.Forall₂ Eq entries members := by
    refine (forall₂_isMemberFor h).imp ?_
    rintro ⟨name, value⟩ ⟨name', value'⟩ ⟨hname, hvalue⟩
    obtain rfl : name' = name := hname
    obtain rfl := Except.ok.inj hvalue
    rfl
  exact (List.forall₂_eq_eq_eq ▸ hsame : entries = members).symm

/-- Whether two values have the same members, in whatever order. -/
def Json.SameMembers (json json' : Json) : Prop := ∀ name, json.member? name = json'.member? name

namespace Edge

variable {edge other : Edge}

/-- The members of an edge besides its attributes, where the weight can be written. -/
def plainMembers (edge : Edge) : List (String × Json) :=
  [("source", .string edge.source), ("target", .string edge.target),
    ("type", .string edge.edgeType)] ++
      (edge.weight.map fun weight => ("weight", .float weight)).toList

/-- The names that an edge takes before its attributes. -/
def takenNames (edge : Edge) : List String := Assoc.keys edge.plainMembers

/-- Whether a name is that of the first attribute whose name is taken. -/
def FirstTaken (edge : Edge) (name : String) : Prop :=
  ∃ before value after, edge.attributes.entries = before ++ (name, value) :: after ∧
    (∀ earlier ∈ before, earlier.1 ∉ edge.takenNames) ∧ name ∈ edge.takenNames

/-- Whether two edges are equal, with their attributes in whatever order. -/
structure Same (edge other : Edge) : Prop where
  source : edge.source = other.source
  target : edge.target = other.target
  edgeType : edge.edgeType = other.edgeType
  weight : edge.weight = other.weight
  attributes : ∀ name, edge.attributes.get? name = other.attributes.get? name

/-! ## The wire form -/

theorem takenNames_of_none (h : edge.weight = none) :
    edge.takenNames = ["source", "target", "type"] := by
  unfold takenNames plainMembers
  rw [h]
  rfl

theorem takenNames_of_some {weight : Double} (h : edge.weight = some weight) :
    edge.takenNames = fixedNames := by
  unfold takenNames plainMembers
  rw [h]
  rfl

theorem fixedMembers_eq_ok_iff {fixed : List (String × Json)} :
    edge.fixedMembers = .ok fixed ↔ edge.WeightFinite ∧ fixed = edge.plainMembers := by
  unfold fixedMembers plainMembers WeightFinite
  cases edge.weight with
  | none =>
    refine ⟨fun h => ⟨nofun, (Except.ok.inj h).symm⟩, ?_⟩
    rintro ⟨-, rfl⟩
    rfl
  | some weight =>
    refine Fallible.bind_eq_ok_iff.trans ⟨?_, ?_⟩
    · rintro ⟨json, hjson, hfixed⟩
      obtain ⟨hfinite, rfl⟩ := encode_double_eq_ok_iff.1 hjson
      exact ⟨fun _ h => Option.some.inj h ▸ hfinite, (Except.ok.inj hfixed).symm⟩
    · rintro ⟨hfinite, rfl⟩
      exact ⟨_, encode_double_eq_ok_iff.2 ⟨hfinite weight rfl, rfl⟩, rfl⟩

/-- An edge is written as its fixed members and its attributes. -/
theorem encode_eq_ok_iff {json : Json} :
    encode edge = .ok json ↔ edge.WeightFinite ∧
      (∀ name ∈ edge.attributes.keys, name ∉ edge.takenNames) ∧
        json = .object (edge.plainMembers ++ edge.attributes.entries) := by
  show (edge.fixedMembers >>= fun fixed =>
    encodeEntries (Assoc.keys fixed) edge.attributes.entries >>= fun attributes =>
      .ok (.object (fixed ++ attributes)) : Encoded) = _ ↔ _
  constructor
  · intro h
    obtain ⟨fixed, hfixed, h⟩ := Fallible.bind_eq_ok_iff.1 h
    obtain ⟨attributes, hattributes, h⟩ := Fallible.bind_eq_ok_iff.1 h
    obtain ⟨hfinite, rfl⟩ := fixedMembers_eq_ok_iff.1 hfixed
    obtain ⟨-, hfree, -⟩ := exists_encodeEntries_iff.1 ⟨attributes, hattributes⟩
    obtain rfl := encodeEntries_json_eq_ok hattributes
    refine ⟨hfinite, fun name hname => ?_, (Except.ok.inj h).symm⟩
    obtain ⟨value, hentry⟩ := Assoc.mem_keys_iff.1 hname
    exact hfree _ hentry
  · rintro ⟨hfinite, hfree, rfl⟩
    obtain ⟨attributes, hattributes⟩ :
        ∃ attributes, encodeEntries edge.takenNames edge.attributes.entries = .ok attributes :=
      exists_encodeEntries_iff.2 ⟨edge.attributes.nodup,
        fun entry hentry => hfree _ (List.mem_map_of_mem hentry), fun entry _ => ⟨entry.2, rfl⟩⟩
    obtain rfl := encodeEntries_json_eq_ok hattributes
    exact Fallible.bind_eq_ok_iff.2 ⟨_, fixedMembers_eq_ok_iff.2 ⟨hfinite, rfl⟩,
      Fallible.bind_eq_ok_iff.2 ⟨_, hattributes, rfl⟩⟩

theorem encode_of_free (hfinite : edge.WeightFinite)
    (hfree : ∀ name ∈ edge.attributes.keys, name ∉ edge.takenNames) :
    encode edge = .ok (.object (edge.plainMembers ++ edge.attributes.entries)) :=
  encode_eq_ok_iff.2 ⟨hfinite, hfree, rfl⟩

/-- A collision is about the first attribute whose name is taken. -/
theorem encode_eq_keyCollision_iff {name : String} :
    encode edge = .error (.keyCollision name) ↔ edge.WeightFinite ∧ edge.FirstTaken name := by
  show (edge.fixedMembers >>= fun fixed =>
    encodeEntries (Assoc.keys fixed) edge.attributes.entries >>= fun attributes =>
      .ok (.object (fixed ++ attributes)) : Encoded) = _ ↔ _
  have hweight : edge.fixedMembers ≠ .error (.keyCollision name) := by
    intro h
    obtain ⟨weight, -, h⟩ := fixedMembers_eq_error_iff.1 h
    exact nomatch (encode_double_eq_error_iff.1 h).2
  rw [Fallible.bind_eq_error_iff, or_iff_right hweight]
  constructor
  · rintro ⟨fixed, hfixed, h⟩
    obtain ⟨hfinite, rfl⟩ := fixedMembers_eq_ok_iff.1 hfixed
    refine ⟨hfinite, ?_⟩
    rcases Fallible.bind_eq_error_iff.1 h with h | ⟨_, -, h⟩
    · obtain ⟨before, ⟨name', value⟩, after, hentries, hbefore, htaken, hname⟩ :=
        (encodeEntries_json_eq_error_iff edge.attributes.nodup).1 h
      obtain rfl := EncodeError.keyCollision.inj hname
      exact ⟨before, value, after, hentries, hbefore, htaken⟩
    · exact nomatch h
  · rintro ⟨hfinite, before, value, after, hentries, hbefore, htaken⟩
    exact ⟨_, fixedMembers_eq_ok_iff.2 ⟨hfinite, rfl⟩, Fallible.bind_eq_error_iff.2 <| .inl <|
      (encodeEntries_json_eq_error_iff edge.attributes.nodup).2
        ⟨before, (name, value), after, hentries, hbefore, htaken, rfl⟩⟩

/-- What stands under a name on the wire. -/
theorem member?_of_encode {json : Json} (h : encode edge = .ok json) (name : String) :
    json.member? name = (Assoc.find? name edge.plainMembers).or (edge.attributes.get? name) := by
  obtain ⟨-, -, rfl⟩ := encode_eq_ok_iff.1 h
  exact Assoc.find?_append ..

/-! ## What the wire form tells -/

theorem mem_takenNames_iff {name : String} :
    name ∈ edge.takenNames ↔
      name ∈ ["source", "target", "type"] ∨ name = "weight" ∧ edge.weight ≠ none := by
  cases hweight : edge.weight with
  | none => simp [takenNames_of_none hweight]
  | some weight => simp [takenNames_of_some hweight, fixedNames, or_assoc]

theorem takenNames_eq (h : edge.weight.isSome = other.weight.isSome) :
    edge.takenNames = other.takenNames := by
  cases hedge : edge.weight with
  | none =>
    have hother : other.weight = none := by simpa [hedge] using h.symm
    rw [takenNames_of_none hedge, takenNames_of_none hother]
  | some weight =>
    rw [hedge, Option.isSome_some] at h
    obtain ⟨weight', hother⟩ := Option.isSome_iff_exists.1 h.symm
    rw [takenNames_of_some hedge, takenNames_of_some hother]

/-- The weight on the wire, which is an attribute if the edge has no weight. -/
theorem member?_weight {json : Json} (h : encode edge = .ok json) :
    json.member? "weight" = (edge.weight.map Json.float).or (edge.attributes.get? "weight") := by
  rw [member?_of_encode h]
  unfold plainMembers
  cases edge.weight <;> rfl

/-- A name that is not taken is that of an attribute. -/
theorem member?_of_not_mem_takenNames {json : Json} (h : encode edge = .ok json) {name : String}
    (hname : name ∉ edge.takenNames) : json.member? name = edge.attributes.get? name := by
  rw [member?_of_encode h, (Assoc.find?_eq_none_iff ..).2 hname, Option.none_or]

theorem get?_of_mem_takenNames {json : Json} (h : encode edge = .ok json) {name : String}
    (hname : name ∈ edge.takenNames) : edge.attributes.get? name = none :=
  (Assoc.find?_eq_none_iff ..).2 fun hmem => (encode_eq_ok_iff.1 h).2.1 name hmem hname

/-- Two edges are read back from their members if both have a weight or neither does. -/
theorem same_of_encode {json json' : Json} (h : encode edge = .ok json)
    (h' : encode other = .ok json') (hsame : json.SameMembers json')
    (hweight : edge.weight.isSome = other.weight.isSome) : Same edge other := by
  have htaken := takenNames_eq hweight
  have hread : ∀ name,
      (Assoc.find? name edge.plainMembers).or (edge.attributes.get? name) =
        (Assoc.find? name other.plainMembers).or (other.attributes.get? name) := by
    intro name
    rw [← member?_of_encode h, ← member?_of_encode h']
    exact hsame name
  refine ⟨?_, ?_, ?_, ?_, fun name => ?_⟩
  · exact Json.string.inj (Option.some.inj (hread "source"))
  · exact Json.string.inj (Option.some.inj (hread "target"))
  · exact Json.string.inj (Option.some.inj (hread "type"))
  · have hmember := hsame "weight"
    rw [member?_weight h, member?_weight h'] at hmember
    cases hedge : edge.weight with
    | none =>
      rw [hedge, Option.isSome_none] at hweight
      exact (Option.not_isSome_iff_eq_none.1 (Bool.eq_false_iff.1 hweight.symm)).symm
    | some weight =>
      rw [hedge, Option.isSome_some] at hweight
      obtain ⟨weight', hother⟩ := Option.isSome_iff_exists.1 hweight.symm
      rw [hedge, hother] at hmember
      rw [hother, Json.float.inj (Option.some.inj hmember)]
  · by_cases hname : name ∈ edge.takenNames
    · rw [get?_of_mem_takenNames h hname, get?_of_mem_takenNames h' (htaken ▸ hname)]
    · rw [← member?_of_not_mem_takenNames h hname,
        ← member?_of_not_mem_takenNames h' (htaken ▸ hname)]
      exact hsame name

/-- If the members have the same order too, so have the attributes. -/
theorem eq_of_encode {json : Json} (h : encode edge = .ok json) (h' : encode other = .ok json)
    (hweight : edge.weight.isSome = other.weight.isSome) : edge = other := by
  obtain ⟨hsource, htarget, htype, heq, -⟩ := same_of_encode h h' (fun _ => rfl) hweight
  obtain ⟨-, -, hjson⟩ := encode_eq_ok_iff.1 h
  obtain ⟨-, -, hjson'⟩ := encode_eq_ok_iff.1 h'
  have hplain : edge.plainMembers = other.plainMembers := by
    unfold plainMembers
    rw [hsource, htarget, htype, heq]
  have hentries : edge.attributes.entries = other.attributes.entries := by
    have hmembers := Json.object.inj (hjson.symm.trans hjson')
    rwa [hplain, List.append_cancel_left_eq] at hmembers
  obtain ⟨source, target, edgeType, weight, attributes⟩ := edge
  obtain ⟨source', target', edgeType', weight', attributes'⟩ := other
  obtain rfl := Dict.ext hentries
  cases hsource
  cases htarget
  cases htype
  cases heq
  rfl

theorem exists_firstTaken_iff :
    (∃ name, edge.FirstTaken name) ↔ ∃ name ∈ edge.attributes.keys, name ∈ edge.takenNames := by
  constructor
  · rintro ⟨name, before, value, after, hentries, -, htaken⟩
    refine ⟨name, ?_, htaken⟩
    unfold Dict.keys
    rw [hentries]
    exact Assoc.mem_keys_iff.2 ⟨value, List.mem_append_right _ List.mem_cons_self⟩
  · rintro ⟨name, hname, htaken⟩
    obtain ⟨value, hentry⟩ := Assoc.mem_keys_iff.1 hname
    obtain ⟨⟨name', value'⟩, hfound⟩ : ∃ entry,
        edge.attributes.entries.find? (·.1 ∈ edge.takenNames) = some entry :=
      Option.isSome_iff_exists.1 (List.find?_isSome.2 ⟨_, hentry, decide_eq_true htaken⟩)
    obtain ⟨htaken', before, after, hentries, hbefore⟩ := List.find?_eq_some_iff_append.1 hfound
    exact ⟨name', before, value', after, hentries, by simpa using hbefore, by simpa using htaken'⟩

/-- An attribute gets through with the name of a fixed member only in the place of a weight. -/
theorem exists_encode_not_attributesFree_iff :
    (∃ json, encode edge = .ok json) ∧ ¬edge.AttributesFree ↔
      edge.weight = none ∧ "weight" ∈ edge.attributes.keys ∧
        ∀ name ∈ edge.attributes.keys, name ∉ ["source", "target", "type"] := by
  constructor
  · rintro ⟨⟨json, hjson⟩, hshadow⟩
    obtain ⟨-, hfree, -⟩ := encode_eq_ok_iff.1 hjson
    have hnone : edge.weight = none := by
      by_contra hsome
      obtain ⟨weight, hweight⟩ := Option.ne_none_iff_exists'.1 hsome
      rw [takenNames_of_some hweight] at hfree
      exact hshadow hfree
    rw [takenNames_of_none hnone] at hfree
    obtain ⟨name, hname, hfixed⟩ : ∃ name ∈ edge.attributes.keys, name ∈ fixedNames := by
      simpa [AttributesFree] using hshadow
    have hweight : name = "weight" := by
      have hplain := hfree name hname
      simp only [fixedNames, List.mem_cons, List.not_mem_nil, or_false] at hfixed hplain
      tauto
    exact ⟨hnone, hweight ▸ hname, hfree⟩
  · rintro ⟨hnone, hweight, hplain⟩
    have hfinite : edge.WeightFinite := fun weight h => nomatch hnone.symm.trans h
    have hfree : ∀ name ∈ edge.attributes.keys, name ∉ edge.takenNames := by
      rwa [takenNames_of_none hnone]
    exact ⟨⟨_, encode_of_free hfinite hfree⟩, fun h => h "weight" hweight (by decide)⟩

/-- **Attributes and fixed members.** An edge collides exactly if its weight, where it has one, can
be written and an attribute has a name that is taken; the collision is about the first such
attribute. So an attribute with the name of a fixed member gets through exactly if it is called
`weight`, on an edge without a weight and without an attribute called like one of the others. Two
edges whose wire forms have the same members are equal exactly if both have a weight or neither
does, and with the members in the same order, so are their attributes; if only one has a weight, the
other has that number as an attribute called `weight`. -/
theorem attributes_apart_iff (edge : Edge) :
    (∀ name, encode edge = .error (.keyCollision name) ↔
      edge.WeightFinite ∧ edge.FirstTaken name) ∧
    ((∃ name, encode edge = .error (.keyCollision name)) ↔ edge.WeightFinite ∧
      ∃ name ∈ edge.attributes.keys,
        name ∈ ["source", "target", "type"] ∨ name = "weight" ∧ edge.weight ≠ none) ∧
    ((∃ json, encode edge = .ok json) ∧ ¬edge.AttributesFree ↔
      edge.weight = none ∧ "weight" ∈ edge.attributes.keys ∧
        ∀ name ∈ edge.attributes.keys, name ∉ ["source", "target", "type"]) ∧
    ∀ (other : Edge) (json json' : Json), encode edge = .ok json → encode other = .ok json' →
      json.SameMembers json' →
        (Same edge other ↔ edge.weight.isSome = other.weight.isSome) ∧
        (json = json' → (edge = other ↔ edge.weight.isSome = other.weight.isSome)) ∧
        ∀ weight, edge.weight = none → other.weight = some weight →
          edge.attributes.get? "weight" = some (.float weight) := by
  refine ⟨fun name => encode_eq_keyCollision_iff, ?_, exists_encode_not_attributesFree_iff, ?_⟩
  · simp only [encode_eq_keyCollision_iff, exists_and_left, exists_firstTaken_iff,
      mem_takenNames_iff]
  · intro other json json' h h' hsame
    refine ⟨⟨fun heq => heq.weight ▸ rfl, same_of_encode h h' hsame⟩, ?_, ?_⟩
    · rintro rfl
      exact ⟨fun heq => heq ▸ rfl, eq_of_encode h h'⟩
    · intro weight hnone hsome
      have hmember := hsame "weight"
      rw [member?_weight h, member?_weight h', hnone, hsome] at hmember
      exact hmember

/-- A call, with a weight and attributes as given. -/
def callEdge (weight : Option Double) (attributes : List (String × Json)) : Edge where
  source := "A#run()"
  target := "B#go()"
  edgeType := "CALL_DEP"
  weight := weight
  attributes := .ofList attributes

theorem weightFinite_callEdge (attributes : List (String × Json)) :
    (callEdge (some (.ofNat 2)) attributes).WeightFinite := by
  intro weight h
  obtain rfl := Option.some.inj h
  decide +kernel

theorem attributes_apart_iff_callEdge :
    let attributes : List (String × Json) := [("lines", .array [.int 3]), ("note", .null)]
    let edge := callEdge (some (.ofNat 2)) attributes
    let other := callEdge (some (.ofNat 2)) attributes.reverse
    let shadowing := callEdge (some (.ofNat 2)) (attributes ++ [("weight", .null)])
    (∃ json json', encode edge = .ok json ∧ encode other = .ok json' ∧ json.SameMembers json' ∧
      Same edge other ∧ edge.attributes.keys ≠ other.attributes.keys) ∧
    shadowing.WeightFinite ∧ shadowing.FirstTaken "weight" ∧
      encode shadowing = .error (.keyCollision "weight") := by
  intro attributes edge other shadowing
  have hedge := encode_of_free (weightFinite_callEdge attributes) (by decide)
  have hother := encode_of_free (weightFinite_callEdge attributes.reverse) (by decide)
  have hsame : Json.SameMembers (.object (edge.plainMembers ++ edge.attributes.entries))
      (.object (other.plainMembers ++ other.attributes.entries)) := by
    intro name
    by_cases hlines : "lines" = name
    · subst hlines
      rfl
    · simp [Json.member?, edge, other, callEdge, plainMembers, attributes, Dict.ofList,
        Dict.insert, Dict.empty, Assoc.insert, Assoc.find?_cons, hlines]
  have hequal : Same edge other :=
    ((attributes_apart_iff edge).2.2.2 other _ _ hedge hother hsame).1.2 rfl
  have hfinite : shadowing.WeightFinite := weightFinite_callEdge _
  have htaken : shadowing.FirstTaken "weight" :=
    ⟨attributes, .null, [], rfl, by decide, by decide⟩
  exact ⟨⟨_, _, hedge, hother, hsame, hequal, by decide⟩, hfinite, htaken,
    ((attributes_apart_iff shadowing).1 "weight").2 ⟨hfinite, htaken⟩⟩

/-- An attribute passes for the weight of an edge that has none. -/
theorem attribute_read_as_weight :
    (¬∀ edge : Edge, (∃ name ∈ edge.attributes.keys, name ∈ fixedNames) →
      ∃ name, encode edge = .error (.keyCollision name)) ∧
    ¬∀ (edge other : Edge) (json : Json), encode edge = .ok json → encode other = .ok json →
      edge = other := by
  let unweighted := callEdge none [("weight", .float (.ofNat 2))]
  let weighted := callEdge (some (.ofNat 2)) []
  have hunweighted := encode_of_free (nofun : unweighted.WeightFinite) (by decide)
  have hweighted := encode_of_free (weightFinite_callEdge []) (by decide)
  constructor
  · intro hcollides
    obtain ⟨name, hname⟩ := hcollides unweighted ⟨"weight", by decide, by decide⟩
    exact nomatch hunweighted.symm.trans hname
  · intro hequal
    exact nomatch congrArg Edge.weight (hequal _ _ _ hunweighted hweighted)

end Edge

end JavaAtlas
