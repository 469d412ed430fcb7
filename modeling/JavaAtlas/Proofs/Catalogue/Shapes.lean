import JavaAtlas.Proofs.Atlas.GraphEncoding
import JavaAtlas.Proofs.Catalogue.Builtin
import JavaAtlas.Proofs.Catalogue.Explainers

set_option autoImplicit false

/-! # The shapes of results

The shape that an operation promises stands in its descriptor, and the encoder that is used depends
on the type of its query. The two agree for every operation (`delivers_of_mem_candidates`): whatever
an action answers with is a value of one type (`AnswersWith`), and the type has the promised shape
(`HasShape`) and a wire form for all its values. Three tools may answer with something that has no
wire form, a path that is not text or a weight that is not finite (`Excuses`). -/

namespace JavaAtlas

/-! ## Shapes of values -/

namespace ResultShape

/-- Whether a value is of the kind that the shape stands for. -/
def Fits : ResultShape → Json → Prop
  | scalar, value => ∃ text, value = .string text
  | list, value => ∃ items, value = .array items
  | record, value | mapping, value | graph, value => ∃ members, value = .object members

/-- Whether the shape stands for objects. -/
def isStructured : ResultShape → Bool
  | record | mapping | graph => true
  | scalar | list => false

variable {shape : ResultShape} {value : Json}

theorem Fits.ne_null (h : shape.Fits value) : value ≠ .null := by
  cases shape <;> obtain ⟨_, rfl⟩ := h <;> exact Json.noConfusion

theorem Fits.isObject_eq (h : shape.Fits value) : value.isObject = shape.isStructured := by
  cases shape <;> obtain ⟨_, rfl⟩ := h <;> rfl

end ResultShape

/-- A type whose values are of a shape on the wire. -/
class HasShape (α : Type) [Encode α] (shape : ResultShape) : Prop where
  fits {a : α} {value : Json} : encode a = .ok value → shape.Fits value

namespace HasShape

instance : HasShape String .scalar where
  fits h := ⟨_, (Except.ok.inj h).symm⟩

instance : HasShape Path .scalar where
  fits {p value} h := by
    unfold encode instEncodePath at h
    dsimp only at h
    split at h
    · exact ⟨_, (Except.ok.inj h).symm⟩
    · exact absurd h (by simp)

section

variable {α κ : Type} [Encode α]

instance : HasShape (List α) .list where
  fits {items value} h := by
    have hitems : (encodeItems items).map Json.array = .ok value := h
    obtain ⟨values, -, hvalue⟩ := Fallible.map_eq_ok_iff.1 hitems
    exact ⟨values, hvalue.symm⟩

instance [WireKey κ] : HasShape (Dict κ α) .mapping where
  fits {d value} h := by
    have hentries : (encodeEntries [] d.entries).map Json.object = .ok value := h
    obtain ⟨members, -, hvalue⟩ := Fallible.map_eq_ok_iff.1 hentries
    exact ⟨members, hvalue.symm⟩

instance : HasShape (Graph α) .graph where
  fits {g value} h := by
    by_cases hclosed : g.IsClosed
    · rw [Graph.encode_eq_of_isClosed hclosed] at h
      obtain ⟨nodes, -, h⟩ := Fallible.bind_eq_ok_iff.1 h
      obtain ⟨edges, -, hvalue⟩ := Fallible.bind_eq_ok_iff.1 h
      exact ⟨_, (Except.ok.inj hvalue).symm⟩
    · -- only closed graphs have a wire form
      exact absurd (Graph.exists_encode_iff.1 ⟨value, h⟩).1 hclosed

end

theorem fits_encodeRecord {members : List (String × Encoded)} {value : Json}
    (h : encodeRecord members = .ok value) : ResultShape.record.Fits value := by
  obtain ⟨written, -, hvalue⟩ := Fallible.bind_eq_ok_iff.1 h
  exact ⟨written, (Except.ok.inj hvalue).symm⟩

instance {ρ : Type} [Record ρ] : HasShape ρ .record := ⟨fits_encodeRecord⟩

instance : HasShape MethodCallers .record := ⟨fits_encodeRecord⟩

instance : HasShape MethodCallees .record := ⟨fits_encodeRecord⟩

instance : HasShape Catalogue.RecordSummary .record := ⟨fits_encodeRecord⟩

end HasShape

/-! ## Answers that are put together from records -/

instance : AlwaysEncodes CallRelation where
  exists_encode relation := exists_encodeRecord_iff.2 (by
    simp [exists_encode relation.method, exists_encode relation.callingLines])

instance : AlwaysEncodes MethodCallers where
  exists_encode relation := exists_encodeRecord_iff.2 (by
    simp [exists_encode relation.target, exists_encode relation.callers])

instance : AlwaysEncodes MethodCallees where
  exists_encode relation := exists_encodeRecord_iff.2 (by
    simp [exists_encode relation.source, exists_encode relation.callees])

instance : AlwaysEncodes Atlas.CrudUsage where
  exists_encode usage := exists_encodeRecord_iff.2 (by
    simp [exists_encode usage.className, exists_encode usage.methodSignature,
      exists_encode usage.crudOperations])

instance : AlwaysEncodes Catalogue.RecordSummary where
  exists_encode summary := ⟨_, Catalogue.encode_summary summary⟩

/-! ## Answers of actions -/

namespace Catalogue

/-- Whether whatever an action answers with is the wire form of a value of type `α`. -/
def AnswersWith (α : Type) [Encode α] (action : Action) : Prop :=
  ∀ atlas files arguments encoded, action atlas files arguments = .ok encoded →
    ∃ a : α, encoded = encode a

section

variable {α : Type} [Encode α]

theorem answersWith_answer (query : Atlas → FileSystem → Arguments → Answer α) :
    AnswersWith α fun atlas files arguments => answer (query atlas files arguments) := by
  intro atlas files arguments encoded h
  dsimp only at h
  cases hquery : query atlas files arguments with
  | ok a =>
    rw [hquery] at h
    exact ⟨a, (Except.ok.inj h).symm⟩
  | error fault =>
    rw [hquery] at h
    exact absurd h (by simp [answer])

theorem answersWith_encode (query : Atlas → FileSystem → Arguments → α) :
    AnswersWith α fun atlas files arguments => .ok (encode (query atlas files arguments)) :=
  fun atlas files arguments _ h => ⟨query atlas files arguments, (Except.ok.inj h).symm⟩

/-- What an action reads from its arguments first does not matter. -/
theorem AnswersWith.bind {β : Type} {read : Atlas → FileSystem → Arguments → Except Failure β}
    {action : β → Action} (h : ∀ b, AnswersWith α (action b)) :
    AnswersWith α fun atlas files arguments =>
      read atlas files arguments >>= fun b => action b atlas files arguments := by
  intro atlas files arguments encoded hencoded
  obtain ⟨b, -, haction⟩ := Fallible.bind_eq_ok_iff.1 hencoded
  exact h b atlas files arguments encoded haction

theorem answersWith_ofAtlas (query : Atlas → α) : AnswersWith α (ofAtlas query) :=
  answersWith_encode fun atlas _ _ => query atlas

theorem answersWith_ofClass (query : Atlas → String → Answer α) :
    AnswersWith α (ofClass query) :=
  .bind fun name => answersWith_answer fun atlas _ _ => query atlas name

theorem answersWith_ofMethod (parameter : String) (query : Atlas → String → String → Answer α) :
    AnswersWith α (ofMethod parameter query) :=
  .bind fun className => .bind fun signature =>
    answersWith_answer fun atlas _ _ => query atlas className signature

theorem answersWith_ofFile (query : Atlas → String → Answer α) :
    AnswersWith α (ofFile query) :=
  .bind fun path => answersWith_answer fun atlas _ _ => query atlas path

end

theorem answersWith_callersAction : AnswersWith MethodCallers callersAction :=
  .bind fun className => .bind fun signature => .bind fun source =>
    answersWith_answer fun atlas _ _ => atlas.callers className signature source

theorem answersWith_calleesAction : AnswersWith MethodCallees calleesAction :=
  .bind fun className => .bind fun signature => .bind fun source =>
    answersWith_answer fun atlas _ _ => atlas.callees className signature source

theorem answersWith_criteriaAction : AnswersWith (Dict String TypeDeclaration) criteriaAction :=
  .bind fun inclusions => .bind fun exclusions =>
    answersWith_encode fun atlas _ _ => atlas.classesByCriteria inclusions exclusions

theorem answersWith_classCallsAction :
    AnswersWith (List (MethodDetail × MethodDetail)) classCallsAction :=
  .bind fun className => .bind fun source => answersWith_answer fun atlas _ arguments =>
    atlas.classCalls className (arguments.text? "method_signature") source

theorem answersWith_sourcesAction : AnswersWith (Dict String String) sourcesAction :=
  answersWith_answer fun atlas files _ => atlas.sourceWithoutComments files

/-! ## Answers without a wire form -/

/-- Whether an edge has a weight that is not finite, which the error names. -/
def BlamesWeight (edge : Edge) (error : EncodeError) : Prop :=
  ∃ weight, edge.weight = some weight ∧ weight.isFinite = false ∧
    error = .unencodable ("non-finite number " ++ Layout.debug.text weight)

/-- The errors with which the answers of an operation may fail to be encoded: of three operations
only, for a root that is not text or for a weight that is not finite. -/
inductive Excuses (atlas : Atlas) : String → EncodeError → Prop where
  | root : atlas.root.text? = none → Excuses atlas "are_we_ready_tool"
      (.unencodable ("non-UTF-8 path " ++ atlas.root.display))
  | graph {source : GraphSource} {edge : Edge} {error : EncodeError} :
      edge ∈ (atlas.callGraph source).edges → BlamesWeight edge error →
        Excuses atlas "get_call_graph_tool" error
  | flattened {edge : Edge} {error : EncodeError} :
      edge ∈ atlas.analyzerGraph.edges → BlamesWeight edge error →
        Excuses atlas "get_call_graph_json_tool" error

/-- Whether what an operation answers for the program of a report is of the shape, apart from
excused errors. -/
def Delivers (name : String) (shape : ResultShape) (action : Action) : Prop :=
  ∀ root report files arguments encoded,
    action (Atlas.ofReport root report) files arguments = .ok encoded →
      (∃ value, encoded = .ok value ∧ shape.Fits value) ∨
        ∃ error, encoded = .error error ∧ Excuses (Atlas.ofReport root report) name error

variable {name : String}

section

variable {α : Type} [Encode α] {shape : ResultShape} [HasShape α shape] {action : Action}

/-- It is enough that each answer is the wire form of a value which fails only as is excused. -/
theorem delivers_of_excused
    (h : ∀ root report files arguments encoded,
      action (Atlas.ofReport root report) files arguments = .ok encoded →
        ∃ a : α, encoded = encode a ∧ ∀ error, encode a = .error error →
          Excuses (Atlas.ofReport root report) name error) :
    Delivers name shape action := by
  intro root report files arguments encoded hencoded
  obtain ⟨a, rfl, hexcused⟩ := h root report files arguments encoded hencoded
  cases hencode : encode a with
  | ok value => exact .inl ⟨value, rfl, HasShape.fits hencode⟩
  | error error => exact .inr ⟨error, rfl, hexcused error hencode⟩

theorem delivers_of_answersWith [AlwaysEncodes α] (h : AnswersWith α action) :
    Delivers name shape action := by
  refine delivers_of_excused (α := α) fun root report files arguments encoded hencoded => ?_
  obtain ⟨a, rfl⟩ := h _ _ _ _ hencoded
  refine ⟨a, rfl, fun error herror => ?_⟩
  obtain ⟨value, hvalue⟩ := exists_encode a
  rw [hvalue] at herror
  exact absurd herror (by simp)

end

theorem delivers_root : Delivers "are_we_ready_tool" .scalar (ofAtlas Atlas.root) := by
  refine delivers_of_excused (α := Path) fun root report files arguments encoded h => ?_
  refine ⟨_, (Except.ok.inj h).symm, fun error herror => ?_⟩
  obtain ⟨hroot, rfl⟩ := encode_path_eq_error_iff.1 herror
  exact .root hroot

theorem delivers_callGraphAction : Delivers "get_call_graph_tool" .graph callGraphAction := by
  refine delivers_of_excused (α := Graph MethodDetail) ?_
  intro root report files arguments encoded h
  obtain ⟨source, -, h⟩ := Fallible.bind_eq_ok_iff.1 h
  refine ⟨_, (Except.ok.inj h).symm, fun error herror => ?_⟩
  obtain ⟨edge, hedge, hweight⟩ := (Atlas.isPlain_callGraph source).exists_weight_of_error herror
  exact .graph hedge hweight

theorem delivers_callGraphEdges :
    Delivers "get_call_graph_json_tool" .list (ofAtlas Atlas.callGraphEdges) := by
  refine delivers_of_excused (α := List CallEdgeSummary) ?_
  intro root report files arguments encoded h
  refine ⟨_, (Except.ok.inj h).symm, fun error herror => ?_⟩
  obtain ⟨edge, hedge, weight, hweight, herror⟩ :=
    Atlas.exists_weight_of_callGraphEdges_error herror
  exact .flattened hedge ⟨weight, hweight, encode_double_eq_error_iff.1 herror⟩

theorem delivers_explainer (ρ : Type) [Record ρ] (description : String) (related : List String) :
    Delivers name .record (explainer ρ description related).action :=
  delivers_of_answersWith (answersWith_encode fun _ _ _ => (_ : RecordSummary))

/-! ## The catalogue -/

theorem delivers_of_mem_tools : ∀ c ∈ tools, Delivers c.name c.shape c.action := by
  unfold tools
  repeat' refine List.forall_mem_cons.2 ⟨?_, ?_⟩
  -- the excused tools come first: the type of their answers has values without a wire form
  all_goals first
    | exact delivers_root
    | exact delivers_callGraphAction
    | exact delivers_callGraphEdges
    | exact delivers_of_answersWith (answersWith_ofAtlas _)
    | exact delivers_of_answersWith (answersWith_ofClass _)
    | exact delivers_of_answersWith (answersWith_ofMethod _ _)
    | exact delivers_of_answersWith (answersWith_ofFile _)
    | exact delivers_of_answersWith answersWith_callersAction
    | exact delivers_of_answersWith answersWith_calleesAction
    | exact delivers_of_answersWith answersWith_criteriaAction
    | exact delivers_of_answersWith answersWith_classCallsAction
    | exact delivers_of_answersWith answersWith_sourcesAction
    | exact List.forall_mem_nil _

theorem delivers_of_mem_explainers : ∀ c ∈ explainers, Delivers c.name c.shape c.action := by
  unfold explainers
  repeat' refine List.forall_mem_cons.2 ⟨?_, ?_⟩
  all_goals first
    | exact delivers_explainer _ _ _
    | exact List.forall_mem_nil _

/-- Every built-in operation answers with its shape. -/
theorem delivers_of_mem_candidates {c : Candidate} (hc : c ∈ candidates) :
    Delivers c.name c.shape c.action := by
  rcases List.mem_append.1 hc with hc | hc
  · exact delivers_of_mem_tools c hc
  · exact delivers_of_mem_explainers c hc

end Catalogue

end JavaAtlas
