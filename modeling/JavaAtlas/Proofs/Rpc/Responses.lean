import JavaAtlas.Proofs.Data.Except
import JavaAtlas.Proofs.Json.Recovery
import JavaAtlas.Proofs.Record.Objects
import JavaAtlas.Rpc.Message

set_option autoImplicit false

/-! # Responses that are read back from their texts

Every member of a response is read by itself: the identifier as it is, the result and the data of an
error only if they are not `null`, which stands for a member that is missing. So a response is found
again in its text exactly if each of the values in it is (`readText_text_iff`). -/

namespace JavaAtlas

open Json (ReadJson ReadError Outline)

/-! ## Reading members -/

/-- What is read for a member that is left out when it has no value. -/
def Json.readPresent {α : Type} [ReadJson α] (depth : Nat) :
    Option Outline → Except ReadError (Option α)
  | none => .ok none
  | some outline => ReadJson.read depth outline

theorem Json.readPresent_eq_ok_iff {depth : Nat} {value : Option Json}
    (h : ∀ v ∈ value, v.isProper = true) :
    readPresent depth (value.map spelled) = .ok value ↔
      ∀ v ∈ value, v ≠ .null ∧ v.IsRecovered depth := by
  cases value with
  | none => exact ⟨fun _ => nofun, fun _ => rfl⟩
  | some v =>
    show ReadJson.read depth v.spelled = .ok (some v) ↔ _
    rw [read_spelled_eq_some_iff (h v rfl)]
    simp

namespace Schema

variable {ρ α : Type} [ReadJson α] {schema : Schema ρ} {name : String} {m : Member ρ}
  {seen : List String} {depth : Nat} {rest : List (Option String × Outline)} {r : ρ}
  {set : α → ρ → ρ}

/-- A member that is read by itself is put into the record. -/
theorem readMembers_cons (hfind : schema.members.find? (·.name = name) = some m)
    (hfresh : name ∉ seen)
    (hread : ∀ value r, m.read depth value r = (ReadJson.read depth value).map fun a => set a r)
    (value : Outline) :
    schema.readMembers depth seen ((some name, value) :: rest) r =
      (ReadJson.read depth value >>= fun a =>
        schema.readMembers depth (name :: seen) rest (set a r)) := by
  rw [readMembers_known hfind hfresh, hread]
  cases (ReadJson.read depth value : Except ReadError α) <;> rfl

theorem readMembers_cons_of_ok (hfind : schema.members.find? (·.name = name) = some m)
    (hfresh : name ∉ seen)
    (hread : ∀ value r, m.read depth value r = (ReadJson.read depth value).map fun a => set a r)
    {value : Outline} {a : α} (hvalue : ReadJson.read depth value = .ok a) :
    schema.readMembers depth seen ((some name, value) :: rest) r =
      schema.readMembers depth (name :: seen) rest (set a r) := by
  rw [readMembers_cons hfind hfresh hread, hvalue]
  rfl

/-- A member that may have been left out is read into the record if it is there. -/
theorem readMembers_present {set : Option α → ρ → ρ}
    (hfind : schema.members.find? (·.name = name) = some m) (hfresh : name ∉ seen)
    (hread : ∀ value r, m.read depth value r = (ReadJson.read depth value).map fun a => set a r)
    (hnone : set none r = r) (value : Option Outline) :
    schema.readMembers depth seen
        ((value.map fun outline => (some name, outline)).toList ++ rest) r =
      (Json.readPresent depth value >>= fun a =>
        schema.readMembers depth (if value.isSome then name :: seen else seen) rest (set a r)) := by
  cases value with
  | none =>
    show _ = schema.readMembers depth seen rest (set none r)
    rw [hnone]
    rfl
  | some value => exact readMembers_cons hfind hfresh hread value

end Schema

namespace Rpc

/-! ## Errors -/

namespace ResponseError

theorem read_spelled_code (code : Int32) (depth : Nat) :
    ReadJson.read depth (Json.int code.toInt).spelled = .ok code := by
  have hlow := code.minValue_le_toInt
  have hhigh := code.toInt_le
  have hmin : Int64.minValue.toInt ≤ Int32.minValue.toInt := by decide
  have hmax : Int32.maxValue.toInt ≤ Int64.maxValue.toInt := by decide
  have hread : ReadJson.read depth (Json.int code.toInt).spelled =
      .ok (Int32.ofInt code.toInt) :=
    Json.readInteger_int hlow hhigh (hmin.trans hlow) (hhigh.trans hmax)
  rwa [Int32.ofInt_toInt] at hread

theorem spelled_write (error : ResponseError) :
    (WriteJson.write error).spelled = .object ((some "code", (Json.int error.code.toInt).spelled) ::
      (some "message", (Json.string error.message).spelled) ::
        ((error.data.map Json.spelled).map fun outline => (some "data", outline)).toList) := by
  obtain ⟨code, message, data⟩ := error
  cases data <;> rfl

theorem read_spelled (error : ResponseError) (depth : Nat) :
    ReadJson.read (depth + 1) (WriteJson.write error).spelled =
      (Json.readPresent depth (error.data.map Json.spelled) >>= fun data =>
        .ok { error with data := data }) := by
  rw [spelled_write]
  show (Record.schema : Schema ResponseError).readMembers depth [] _ {} = _
  rw [Schema.readMembers_cons_of_ok rfl List.not_mem_nil (fun _ _ => rfl)
      (read_spelled_code error.code depth),
    Schema.readMembers_cons_of_ok rfl (by decide) (fun _ _ => rfl)
      (rfl : ReadJson.read depth (Json.string error.message).spelled = .ok error.message),
    ← List.append_nil (Option.toList _),
    Schema.readMembers_present rfl (by decide) (fun _ _ => rfl) rfl]
  cases error.data <;> rfl

theorem read_spelled_eq_ok_iff {error : ResponseError} {depth : Nat}
    (h : ∀ v ∈ error.data, v.isProper = true) :
    ReadJson.read (depth + 1) (WriteJson.write error).spelled = .ok error ↔
      ∀ v ∈ error.data, v ≠ .null ∧ v.IsRecovered depth := by
  rw [read_spelled, Fallible.bind_eq_ok_iff, ← Json.readPresent_eq_ok_iff h]
  constructor
  · rintro ⟨data, hread, heq⟩
    have hdata : data = error.data := congrArg ResponseError.data (Except.ok.inj heq)
    rwa [hdata] at hread
  · intro hread
    exact ⟨error.data, hread, rfl⟩

end ResponseError

/-! ## Responses -/

namespace Response

theorem spelled_write (response : Response) :
    (WriteJson.write response).spelled =
      .object ((some "jsonrpc", (Json.string response.jsonrpc).spelled) ::
        (some "id", response.id.spelled) ::
        (((response.result.map Json.spelled).map fun outline => (some "result", outline)).toList ++
          ((response.error.map fun error => (WriteJson.write error).spelled).map fun outline =>
            (some "error", outline)).toList)) := by
  obtain ⟨jsonrpc, id, result, error⟩ := response
  cases result <;> cases error <;> rfl

theorem read_spelled (response : Response) (depth : Nat) :
    ReadJson.read (depth + 1) (WriteJson.write response).spelled = (do
      let id ← ReadJson.read depth response.id.spelled
      let result ← Json.readPresent depth (response.result.map Json.spelled)
      let error ← Json.readPresent depth
        (response.error.map fun error => (WriteJson.write error).spelled)
      .ok { response with id := id, result := result, error := error }) := by
  rw [spelled_write]
  show (Record.schema : Schema Response).readMembers depth [] _ {} = _
  rw [Schema.readMembers_cons_of_ok rfl List.not_mem_nil (fun _ _ => rfl)
      (rfl : ReadJson.read depth (Json.string response.jsonrpc).spelled = .ok response.jsonrpc),
    Schema.readMembers_cons rfl (by decide) fun _ _ => rfl]
  refine congrArg _ (funext fun id => ?_)
  rw [Schema.readMembers_present rfl (by decide) (fun _ _ => rfl) rfl]
  refine congrArg _ (funext fun result => ?_)
  have hfresh : "error" ∉ if (response.result.map Json.spelled).isSome = true
      then ["result", "id", "jsonrpc"] else ["id", "jsonrpc"] := by
    split <;> decide
  rw [← List.append_nil (Option.toList _),
    Schema.readMembers_present rfl hfresh (fun _ _ => rfl) rfl]
  refine congrArg _ (funext fun error => ?_)
  cases response.result <;> cases response.error <;> rfl

/-- The error of a response is an object, never `null`. -/
theorem readPresent_error_eq_ok_iff {error : Option ResponseError} {depth : Nat}
    (h : ∀ e ∈ error, ∀ v ∈ e.data, v.isProper = true) :
    Json.readPresent (depth + 1) (error.map fun error => (WriteJson.write error).spelled) =
        .ok error ↔
      ∀ e ∈ error, ∀ v ∈ e.data, v ≠ .null ∧ v.IsRecovered depth := by
  cases error with
  | none => exact ⟨fun _ => nofun, fun _ => rfl⟩
  | some e =>
    have he : ReadJson.read (depth + 1) (WriteJson.write e).spelled = .ok e ↔ _ :=
      ResponseError.read_spelled_eq_ok_iff (h e rfl)
    have hnull : (WriteJson.write e).spelled ≠ .null := by
      rw [ResponseError.spelled_write]
      exact Outline.noConfusion
    rw [Option.map_some, Json.readPresent, Json.read_option_of_ne_null hnull,
      Fallible.map_eq_ok_iff]
    simpa using he

/-- **A response is found again in its text** exactly if each of the values in it is, and neither
the result nor the data of the error is `null`. The response and its error are containers too, so
fewer are left for the values. -/
theorem readText_text_iff {response : Response} (hid : response.id.isProper = true)
    (hresult : ∀ v ∈ response.result, v.isProper = true)
    (hdata : ∀ e ∈ response.error, ∀ v ∈ e.data, v.isProper = true) :
    Json.readText response.text = .ok response ↔
      response.id.IsRecovered 126 ∧
        (∀ v ∈ response.result, v ≠ .null ∧ v.IsRecovered 126) ∧
          ∀ e ∈ response.error, ∀ v ∈ e.data, v ≠ .null ∧ v.IsRecovered 125 := by
  rw [← Json.value?_spelled response.id hid, ← Json.read_eq_ok_iff,
    ← Json.readPresent_eq_ok_iff hresult, ← readPresent_error_eq_ok_iff hdata, text,
    Json.readText_eq_read_spelled, show Json.nestingLimit = 126 + 1 from rfl, read_spelled]
  simp only [Fallible.bind_eq_ok_iff]
  constructor
  · rintro ⟨id, hid, result, hresult, error, herror, heq⟩
    have hsame := Except.ok.inj heq
    obtain rfl : id = response.id := congrArg Response.id hsame
    obtain rfl : result = response.result := congrArg Response.result hsame
    obtain rfl : error = response.error := congrArg Response.error hsame
    exact ⟨hid, hresult, herror⟩
  · rintro ⟨hid, hresult, herror⟩
    exact ⟨_, hid, _, hresult, _, herror, rfl⟩

/-! ## The kinds of responses -/

section

variable {id value : Json}

theorem readText_success_iff (hid : id.isProper = true) (hvalue : value.isProper = true) :
    Json.readText (success id value).text = .ok (success id value) ↔
      id.IsRecovered 126 ∧ value ≠ .null ∧ value.IsRecovered 126 := by
  rw [readText_text_iff hid (by simpa [success] using hvalue) (by simp [success])]
  simp [success]

theorem readText_protocolError_iff (hid : id.isProper = true) (code : ErrorCode)
    (message : String) :
    Json.readText (protocolError id code message).text = .ok (protocolError id code message) ↔
      id.IsRecovered 126 := by
  rw [readText_text_iff hid (by simp [protocolError]) (by simp [protocolError])]
  simp [protocolError]

/-- The kind of a failure is nested only once. -/
theorem isRecovered_kind (name : String) : (Json.object [("kind", .string name)]).IsRecovered 125 :=
  ⟨by simp [Json.nesting, Json.membersNesting], by simp [Json.doubles, Json.memberDoubles]⟩

theorem readText_failure_iff (hid : id.isProper = true) (fault : Failure) :
    Json.readText (failure id fault).text = .ok (failure id fault) ↔ id.IsRecovered 126 := by
  rw [readText_text_iff hid (by simp [failure])
    (by simp [failure, Json.isProper, Json.membersProper, Assoc.keys])]
  simp [failure, isRecovered_kind]

/-- Whether a response has a result or an error, and not both. -/
def HasOneOutcome (response : Response) : Prop := response.result.isSome ≠ response.error.isSome

/-- **Responses survive their texts.** A response with a result other than `null`, with an error of
the protocol or with a failure is found again in its text exactly if its identifier and its result
do not nest more than 126 containers and each double in them is found again, as those of few digits
with a small exponent are. It has a result or an error, and not both. -/
theorem readText_text_of_kinds (hid : id.isProper = true) (hvalue : value.isProper = true)
    (hnull : value ≠ .null) (code : ErrorCode) (message : String) (fault : Failure) :
    (Json.readText (success id value).text = .ok (success id value) ↔
        id.IsRecovered 126 ∧ value.IsRecovered 126) ∧
      (Json.readText (protocolError id code message).text = .ok (protocolError id code message) ↔
        id.IsRecovered 126) ∧
      (Json.readText (failure id fault).text = .ok (failure id fault) ↔ id.IsRecovered 126) ∧
      (∀ response ∈ [success id value, protocolError id code message, failure id fault],
        response.HasOneOutcome) ∧
      ∀ negative (x : Magnitude), x.written.coefficient < 2 ^ 53 → -22 ≤ x.written.exponent →
        x.written.exponent ≤ 22 → (Double.finite negative x).IsRecovered := by
  refine ⟨?_, readText_protocolError_iff hid code message, readText_failure_iff hid fault, ?_, ?_⟩
  · rw [readText_success_iff hid hvalue]
    exact ⟨fun h => ⟨h.1, h.2.2⟩, fun h => ⟨h.1, hnull, h.2⟩⟩
  · simp [HasOneOutcome, success, protocolError, failure]
  · exact fun _ _ => Json.isRecovered_of_small

end

/-- The double `0.5`. -/
def half : Magnitude := ⟨Nat.pow 2 52, 1021, by decide, by decide, by decide⟩

/-- A response with a list, a number and a missing value inside, and the errors beside it. -/
theorem readText_text_of_half :
    (Json.int 7).isProper = true ∧
      (Json.object [("tools", .array [.null]), ("ratio", .float (.finite true half))]).isProper =
        true ∧
      Json.readText (success (.int 7)
          (.object [("tools", .array [.null]), ("ratio", .float (.finite true half))])).text =
        .ok (success (.int 7)
          (.object [("tools", .array [.null]), ("ratio", .float (.finite true half))])) ∧
      Json.readText (protocolError (.int 7) .methodNotFound "resources/list").text =
        .ok (protocolError (.int 7) .methodNotFound "resources/list") ∧
      Json.readText (failure (.int 7) .contextClosed).text =
        .ok (failure (.int 7) .contextClosed) := by
  have hid : (Json.int 7).isProper = true := rfl
  have hvalue : (Json.object [("tools", .array [.null]),
      ("ratio", .float (.finite true half))]).isProper = true := rfl
  have hrecovered : (Json.int 7).IsRecovered 126 := ⟨by decide, nofun⟩
  obtain ⟨hsuccess, hprotocol, hfailure, -, hsmall⟩ := readText_text_of_kinds hid hvalue
    Json.noConfusion .methodNotFound "resources/list" .contextClosed
  refine ⟨hid, hvalue, hsuccess.2 ⟨hrecovered, by decide, ?_⟩, hprotocol.2 hrecovered,
    hfailure.2 hrecovered⟩
  exact List.forall_mem_singleton.2
    (hsmall true half (by decide +kernel) (by decide +kernel) (by decide +kernel))

/-- An empty array inside `n` others. -/
def nestedArrays : Nat → Json
  | 0 => .array []
  | n + 1 => .array [nestedArrays n]

theorem isProper_nestedArrays (n : Nat) : (nestedArrays n).isProper = true := by
  induction n with
  | zero => rfl
  | succ n ih => simp [nestedArrays, Json.isProper, Json.itemsProper, ih]

theorem nesting_nestedArrays (n : Nat) : (nestedArrays n).nesting = n + 1 := by
  induction n with
  | zero => rfl
  | succ n ih => simp [nestedArrays, Json.nesting, Json.itemsNesting, ih]

/-- The double `9007199254740991.0`, whose text has one digit more than a double can hold. -/
def greatestOdd : Magnitude := ⟨9007199254740991, 1074, by decide, by decide, by decide⟩

/-- Responses that are lost: 127 nested arrays, a double that two roundings miss, and `null`. -/
theorem readText_text_ne :
    Json.readText (success (.int 1) (nestedArrays 126)).text ≠
        .ok (success (.int 1) (nestedArrays 126)) ∧
      Json.readText (success (.int 1) (.float (.finite false greatestOdd))).text ≠
        .ok (success (.int 1) (.float (.finite false greatestOdd))) ∧
      Json.readText (success (.int 1) .null).text ≠ .ok (success (.int 1) .null) := by
  refine ⟨?_, ?_, ?_⟩
  · rw [Ne, readText_success_iff rfl (isProper_nestedArrays 126)]
    exact fun h => absurd h.2.2.nesting_le (by rw [nesting_nestedArrays]; decide)
  · rw [Ne, readText_success_iff rfl rfl]
    exact fun h => absurd (h.2.2.doubles _ List.mem_cons_self) (by decide +kernel)
  · rw [Ne, readText_success_iff rfl rfl]
    exact fun h => h.2.1 rfl

end Response

end Rpc

end JavaAtlas
