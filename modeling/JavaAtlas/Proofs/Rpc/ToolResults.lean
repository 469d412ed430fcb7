import JavaAtlas.Proofs.Catalogue.Shapes
import JavaAtlas.Proofs.Dispatch
import JavaAtlas.Rpc.Server

set_option autoImplicit false

/-! # The results of tools

A client learns the shape of a result from the descriptor of the operation and finds the result in
the response, as text and, if it is an object, also as it is. Since every operation answers with its
shape, the client can tell beforehand which responses have the second form (`results_shaped`). -/

namespace JavaAtlas

namespace Rpc

open Catalogue

/-- The value itself is in the response exactly if it is an object. -/
theorem member?_toolResult (value : Json) :
    (toolResult value).member? "structuredContent" =
      if value.isObject then some value else none := by
  unfold toolResult
  cases value.isObject <;> rfl

namespace Server

variable {server : Server} {id : Json} {params : Option Json}

/-- A call has a result exactly if it names an operation and the invocation succeeds. -/
theorem callResponse_eq_success_iff {result : Json} :
    server.callResponse id params = .success id result ↔
      ∃ name members value, calledTool params = .ok (name, members) ∧
        server.callTool name members = .ok value ∧ result = toolResult value := by
  unfold callResponse
  cases calledTool params with
  | error problem => simp [Response.protocolError, Response.success]
  | ok call =>
    obtain ⟨name, members⟩ := call
    dsimp only
    cases hcall : server.callTool name members with
    | error failure =>
      -- a failure leaves the member `result` out
      constructor
      · intro h
        exact absurd (congrArg Response.result h) (by simp [Response.failure, Response.success])
      · rintro ⟨_, _, value, hcalled, hvalue, -⟩
        obtain ⟨rfl, rfl⟩ := Prod.mk.inj (Except.ok.inj hcalled)
        rw [hcall] at hvalue
        exact absurd hvalue (by simp)
    | ok value =>
      constructor
      · intro h
        have hresult := Option.some.inj (congrArg Response.result h)
        exact ⟨name, members, value, rfl, hcall, hresult.symm⟩
      · rintro ⟨_, _, value', hcalled, hvalue, rfl⟩
        obtain ⟨rfl, rfl⟩ := Prod.mk.inj (Except.ok.inj hcalled)
        obtain rfl := Except.ok.inj (hcall.symm.trans hvalue)
        rfl

theorem callTool_eq_ok_iff {name : String} {members : List (String × Json)} {value : Json} :
    server.callTool name members = .ok value ↔
      ∃ raw operation arguments atlas,
        Arguments.members name (Assoc.find? "arguments" members) = .ok raw ∧
        server.registry.find? name = some operation ∧
        Arguments.validate operation.descriptor raw = .ok arguments ∧
        server.session.current = .ok atlas ∧
        operation.action atlas server.files arguments = .ok (.ok value) := by
  unfold callTool
  rw [Fallible.bind_eq_ok_iff]
  simp only [Registry.invoke_eq_ok_iff, exists_and_left]

/-- **Results have the shape that is promised.** Whenever the action of a built-in operation answers
for the program of a report, the answer has a wire form of the promised shape, which is not `null`;
only the root of the project and the call graph in two forms may lack one, for a root that is not
text or a weight that is not finite. A call of a tool has a result exactly if the action answers
with a wire form, and the result has structured content exactly if the operation promises a record,
a mapping or a graph. -/
theorem results_shaped :
    ∃ registry, Catalogue.builtin = .ok registry ∧
      (∀ name, name ∈ registry.names ↔ name ∈ candidates.map Candidate.name) ∧
      ∀ root report, let atlas := Atlas.ofReport root report
        (∀ operation ∈ registry.operations, ∀ files arguments encoded,
          operation.action atlas files arguments = .ok encoded →
            (∃ value, encoded = .ok value ∧ operation.descriptor.shape.Fits value ∧
              value ≠ .null ∧ (toolResult value).member? "structuredContent" =
                if operation.descriptor.shape.isStructured then some value else none) ∨
            ∃ error, encoded = .error error ∧ Excuses atlas operation.name error) ∧
        ∀ server : Server, server.registry = registry → server.session.current = .ok atlas →
          ∀ id params result, server.callResponse id params = .success id result ↔
            ∃ name members raw operation arguments value,
              calledTool params = .ok (name, members) ∧
              Arguments.members name (Assoc.find? "arguments" members) = .ok raw ∧
              registry.find? name = some operation ∧
              Arguments.validate operation.descriptor raw = .ok arguments ∧
              operation.action atlas server.files arguments = .ok (.ok value) ∧
              result = toolResult value := by
  obtain ⟨registry, hregistry, hnames, hbuiltin⟩ := exists_builtin
  refine ⟨registry, hregistry, hnames, fun root report => ?_⟩
  intro atlas
  refine ⟨?_, ?_⟩
  · intro operation hoperation files arguments encoded hencoded
    obtain ⟨c, hc, kind, rfl⟩ := hbuiltin operation hoperation
    rcases delivers_of_mem_candidates hc root report files arguments encoded hencoded with
      ⟨value, hvalue, hfits⟩ | hexcused
    · refine .inl ⟨value, hvalue, hfits, hfits.ne_null, ?_⟩
      rw [member?_toolResult, hfits.isObject_eq]
      rfl
    · exact .inr hexcused
  · rintro server rfl hcurrent id params result
    rw [callResponse_eq_success_iff]
    simp only [callTool_eq_ok_iff, hcurrent, Except.ok.injEq]
    constructor
    · rintro ⟨name, members, value, hcalled,
        ⟨raw, operation, arguments, _, hraw, hfind, hvalidate, rfl, haction⟩, hresult⟩
      exact ⟨name, members, raw, operation, arguments, value, hcalled, hraw, hfind, hvalidate,
        haction, hresult⟩
    · rintro ⟨name, members, raw, operation, arguments, value, hcalled, hraw, hfind, hvalidate,
        haction, hresult⟩
      exact ⟨name, members, value, hcalled,
        ⟨raw, operation, arguments, atlas, hraw, hfind, hvalidate, rfl, haction⟩, hresult⟩

theorem results_shaped_classes :
    ∃ server : Server, Catalogue.builtin = .ok server.registry ∧
      server.session.current = .ok (Atlas.ofReport (.ofString "/p") {}) ∧
      ∃ result, server.callResponse (.int 1)
          (some (.object [("name", .string "get_classes_tool")])) = .success (.int 1) result ∧
        result.member? "structuredContent" = some (.object []) := by
  obtain ⟨registry, hregistry, -, hshaped⟩ := results_shaped
  obtain ⟨kind, hfind⟩ := exists_find?_tool hregistry 9 (c := tools[9]) rfl
  let server : Server := ⟨registry, Registry.startedSession, default, {}⟩
  obtain ⟨hdelivers, hcall⟩ := hshaped (.ofString "/p") {}
  have haction : (Operation.ofCandidate kind tools[9]).action (Atlas.ofReport (.ofString "/p") {})
      default ⟨"get_classes_tool", .empty⟩ = .ok (.ok (.object [])) := rfl
  have hresponse := (hcall server rfl rfl (.int 1)
    (some (.object [("name", .string "get_classes_tool")])) _).2
    ⟨_, _, _, _, _, _, rfl, rfl, hfind, rfl, haction, rfl⟩
  refine ⟨server, hregistry, rfl, _, hresponse, ?_⟩
  rcases hdelivers _ (Registry.mem_of_find?_eq_some hfind).1 _ _ _ haction with
    ⟨value, hvalue, -, -, hcontent⟩ | ⟨error, herror, -⟩
  · obtain rfl := Except.ok.inj hvalue
    exact hcontent
  · exact absurd herror (by simp)

end Server

end Rpc

end JavaAtlas
