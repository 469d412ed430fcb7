import JavaAtlas.Catalogue.Explainers
import JavaAtlas.Proofs.Record.Kinds

set_option autoImplicit false

/-! # Explainers and records

An explainer publishes the names of the members of its record type. The records themselves are
encoded with these members in this order, encoded as they are written, and read back from their text
(`records_driftFree`). -/

namespace JavaAtlas.Catalogue

variable {ρ : Type} [Record ρ]

/-- Whether the explainer of the records with a title answers with the fields. -/
def Publishes (title : String) (fields : List String) : Prop :=
  ∃ candidate ∈ explainers, candidate.name = title ++ "_explainer" ∧
    ∀ atlas files arguments, ∃ answer,
      candidate.action atlas files arguments = .ok (.ok (.object answer)) ∧
        Assoc.find? "fields" answer = some (.array (fields.map .string))

/-- Whether the fields that are published for the records of type `ρ` are, in order, the members
that each record is encoded with, whether the record is written in the same way, and whether it is
read back from the text. -/
def DriftFree (title : String) (ρ : Type) [Record ρ] : Prop :=
  ∃ fields, Publishes title fields ∧
    ∀ r : ρ, ∃ members, encode r = .ok (.object members) ∧ Assoc.keys members = fields ∧
      WriteJson.write r = .object members ∧ Json.readText (Json.object members).compact = .ok r

theorem encode_summary (summary : RecordSummary) :
    encode summary = .ok (.object [
      ("name", .string summary.name),
      ("description", .string summary.description),
      ("fields", .array (summary.fields.map .string)),
      ("related_models", .array (summary.related.map .string))]) := by
  have hlist : ∀ names : List String, encode names = .ok (.array (names.map .string)) :=
    fun names => Faithful.encode_eq names
  show encodeRecord [_, _, ("fields", encode summary.fields),
    ("related_models", encode summary.related)] = _
  rw [hlist, hlist]
  rfl

theorem publishes_of_listed (i : Nat) {description : String} {related : List String}
    (h : explainers[i]? = some (explainer ρ description related)) :
    Publishes (Record.schema : Schema ρ).title (Record.schema : Schema ρ).names :=
  ⟨_, List.mem_of_getElem? h, rfl, fun _ _ _ => ⟨_, congrArg _ (encode_summary _), rfl⟩⟩

theorem driftFree_of_listed (i : Nat) {nesting : Nat} [FaithfulRecord ρ nesting]
    {description : String} {related : List String}
    (h : explainers[i]? = some (explainer ρ description related))
    (hnesting : nesting < Json.nestingLimit) : DriftFree (Record.schema : Schema ρ).title ρ := by
  refine ⟨_, publishes_of_listed i h, fun r => ?_⟩
  exact ⟨_, Record.encode_eq r, Record.keys_written r, rfl, Faithful.readText_write hnesting r⟩

/-- **Explainers, encoder, writer and reader agree**: for every record type that has an explainer,
each record is encoded as an object with the published fields in order, is written as that object,
and is read back from its text. -/
theorem records_driftFree :
    DriftFree "JComment" Comment ∧
    DriftFree "JRecordComponent" RecordComponent ∧
    DriftFree "JField" FieldDeclaration ∧
    DriftFree "JCallableParameter" FormalParameter ∧
    DriftFree "JEnumConstant" EnumConstant ∧
    DriftFree "JCRUDOperation" CrudOperation ∧
    DriftFree "JCRUDQuery" CrudQuery ∧
    DriftFree "JCallSite" CallSite ∧
    DriftFree "JVariableDeclaration" VariableDeclaration ∧
    DriftFree "InitializationBlock" InitializerBlock ∧
    DriftFree "JCallable" Callable ∧
    DriftFree "JType" TypeDeclaration ∧
    DriftFree "JCompilationUnit" CompilationUnit ∧
    DriftFree "JMethodDetail" MethodDetail ∧
    DriftFree "JGraphEdges" DependencyEdge ∧
    DriftFree "JApplication" Application := by
  exact ⟨driftFree_of_listed 0 rfl (by decide),
    driftFree_of_listed 1 rfl (by decide),
    driftFree_of_listed 2 rfl (by decide),
    driftFree_of_listed 3 rfl (by decide),
    driftFree_of_listed 4 rfl (by decide),
    driftFree_of_listed 5 rfl (by decide),
    driftFree_of_listed 6 rfl (by decide),
    driftFree_of_listed 7 rfl (by decide),
    driftFree_of_listed 8 rfl (by decide),
    driftFree_of_listed 9 rfl (by decide),
    driftFree_of_listed 10 rfl (by decide),
    driftFree_of_listed 11 rfl (by decide),
    driftFree_of_listed 12 rfl (by decide),
    driftFree_of_listed 13 rfl (by decide),
    driftFree_of_listed 14 rfl (by decide),
    driftFree_of_listed 15 rfl (by decide)⟩

end JavaAtlas.Catalogue
