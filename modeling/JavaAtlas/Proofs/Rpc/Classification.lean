import JavaAtlas.Proofs.Json.Trimming
import JavaAtlas.Proofs.Record.Objects
import JavaAtlas.Proofs.Rpc.Replies

set_option autoImplicit false

/-! # Lines that are no requests

The protocol tells lines that are not JSON from lines that are JSON but no request. The server
answers whatever its reader refuses as if it were not JSON, and reads requests from arrays too. So a
line is answered as the protocol prescribes exactly if it is not JSON, or an object that reads as a
request (`classifiedAsPrescribed_iff`). -/

namespace JavaAtlas.Rpc

open Json (Outline SpellsText)

/-! ## Request objects -/

/-- Whether an outline is an object whose members `jsonrpc` and `method` are strings. -/
def IsRequestObject (outline : Outline) : Prop :=
  ∃ members, outline = .object members ∧ ∀ name ∈ ["jsonrpc", "method"],
    ∃ value, (some name, .string value) ∈ members

theorem not_isRequestObject_array (items : List Outline) : ¬IsRequestObject (.array items) := by
  rintro ⟨_, heq, -⟩
  cases heq

/-! ## What reads as a request -/

/-- Whether the members of an object read as a request: every name can be read, none of the names of
a request comes twice, the version and the method are texts, and the identifier and the parameters
can be read within the limits of nesting and of numbers. -/
structure MembersReadAsRequest (members : List (Option String × Outline)) : Prop where
  named : ∀ value, (none, value) ∉ members
  once : ((members.filterMap Prod.fst).filter
    fun name => name ∈ ["jsonrpc", "id", "method", "params"]).Nodup
  text : ∀ name ∈ ["jsonrpc", "method"],
    (∃ value, (some name, value) ∈ members) ∧
      ∀ value, (some name, value) ∈ members → ∃ s, value = .string (some s)
  value : ∀ name ∈ ["id", "params"], ∀ value, (some name, value) ∈ members →
    (value.value? (Json.nestingLimit - 1)).isSome

theorem MembersReadAsRequest.isRequestObject {members : List (Option String × Outline)}
    (h : MembersReadAsRequest members) : IsRequestObject (.object members) := by
  refine ⟨members, rfl, fun name hname => ?_⟩
  obtain ⟨⟨value, hmem⟩, hstring⟩ := h.text name hname
  obtain ⟨s, rfl⟩ := hstring value hmem
  exact ⟨_, hmem⟩

/-- Whether the items of an array read as a request: the version, the identifier, the method and
perhaps the parameters. -/
def ItemsReadAsRequest (items : List Outline) : Prop :=
  ∃ version id method params,
    items = .string (some version) :: id :: .string (some method) :: params ∧
      (id.value? (Json.nestingLimit - 1)).isSome ∧ params.length ≤ 1 ∧
        ∀ value ∈ params, (value.value? (Json.nestingLimit - 1)).isSome

/-- Whether an outline reads as a request. -/
inductive ReadsAsRequest : Outline → Prop where
  | object {members : List (Option String × Outline)} (hmembers : MembersReadAsRequest members) :
      ReadsAsRequest (.object members)
  | array {items : List Outline} (hitems : ItemsReadAsRequest items) :
      ReadsAsRequest (.array items)

theorem exists_read_text_iff {depth : Nat} {outline : Outline} :
    (∃ s : String, Json.ReadJson.read depth outline = .ok s) ↔ ∃ s, outline = .string (some s) := by
  constructor
  · rintro ⟨s, h⟩
    match outline, h with
    | .string (some s), _ => exact ⟨s, rfl⟩
  · rintro ⟨s, rfl⟩
    exact ⟨s, rfl⟩

theorem exists_read_value_iff {depth : Nat} {outline : Outline} :
    (∃ value : Json, Json.ReadJson.read depth outline = .ok value) ↔
      (outline.value? depth).isSome := by
  cases hvalue : outline.value? depth with
  | some value => exact iff_of_true ⟨value, by simp [Json.ReadJson.read, hvalue]⟩ rfl
  | none => exact iff_of_false (by simp [Json.ReadJson.read, hvalue]) (by simp)

theorem exists_read_option_iff {depth : Nat} {outline : Outline} :
    (∃ value : Option Json, Json.ReadJson.read depth outline = .ok value) ↔
      (outline.value? depth).isSome := by
  by_cases hnull : outline = .null
  · subst hnull
    exact iff_of_true ⟨none, rfl⟩ (by rw [Outline.value?]; rfl)
  · have hread : (Json.ReadJson.read depth outline : Except Json.ReadError (Option Json)) =
        (Json.ReadJson.read depth outline).map some := by
      cases outline with
      | null => exact absurd rfl hnull
      | _ => rfl
    rw [hread, Fallible.exists_map_iff, exists_read_value_iff]

theorem isPlain_of_mem_schema {m : Member Request}
    (h : m ∈ (Record.schema : Schema Request).members) : m.IsPlain := by
  revert m
  simp only [Record.schema, List.forall_mem_cons]
  exact ⟨Member.isPlain_of, Member.isPlain_of, Member.isPlain_of, Member.isPlain_of,
    List.forall_mem_nil _⟩

/-- An object is read as a request exactly if its members read as one. -/
theorem exists_read_object_iff {members : List (Option String × Outline)}
    (hwellFormed : ∀ member ∈ members, member.2.wellFormed = true) :
    (∃ request : Request, Json.ReadJson.read Json.nestingLimit (.object members) = .ok request) ↔
      MembersReadAsRequest members := by
  let schema : Schema Request := Record.schema
  have hnodup : (schema.members.map Member.name).Nodup := by decide
  have hread : (∃ request : Request,
      Json.ReadJson.read Json.nestingLimit (.object members) = .ok request) ↔
        schema.Takes (Json.nestingLimit - 1) [] members :=
    Schema.exists_readMembers_iff hnodup (fun _ => isPlain_of_mem_schema) List.nodup_nil
  rw [hread]
  constructor
  · rintro ⟨named, known, -, once, present⟩
    simp only [schema, Record.schema, List.forall_mem_cons] at known present
    obtain ⟨hversion, hid, hmethod, hparams, -⟩ := known
    obtain ⟨hhasVersion, -, hhasMethod, -⟩ := present
    refine ⟨named, once, ?_, ?_⟩
    · simp only [List.forall_mem_cons]
      refine ⟨⟨?_, fun value hvalue => ?_⟩, ⟨?_, fun value hvalue => ?_⟩, List.forall_mem_nil _⟩
      · exact (Schema.mem_knownNames_iff.1 (hhasVersion rfl)).1
      · exact exists_read_text_iff.1 (Member.takes_of_iff.1 (hversion value hvalue))
      · exact (Schema.mem_knownNames_iff.1 (hhasMethod rfl)).1
      · exact exists_read_text_iff.1 (Member.takes_of_iff.1 (hmethod value hvalue))
    · simp only [List.forall_mem_cons]
      refine ⟨fun value hvalue => ?_, fun value hvalue => ?_, List.forall_mem_nil _⟩
      · exact exists_read_value_iff.1 (Member.takes_of_iff.1 (hid value hvalue))
      · exact exists_read_option_iff.1 (Member.takes_of_iff.1 (hparams value hvalue))
  · rintro ⟨named, once, text, value⟩
    simp only [List.forall_mem_cons] at text value
    obtain ⟨⟨hhasVersion, hversion⟩, ⟨hhasMethod, hmethod⟩, -⟩ := text
    obtain ⟨hid, hparams, -⟩ := value
    refine ⟨named, ?_, fun _ value hvalue _ => hwellFormed _ hvalue, once, ?_⟩
    · simp only [schema, Record.schema, List.forall_mem_cons]
      refine ⟨fun value hvalue => ?_, fun value hvalue => ?_, fun value hvalue => ?_,
        fun value hvalue => ?_, List.forall_mem_nil _⟩
      · exact Member.takes_of_iff.2 (exists_read_text_iff.2 (hversion value hvalue))
      · exact Member.takes_of_iff.2 (exists_read_value_iff.2 (hid value hvalue))
      · exact Member.takes_of_iff.2 (exists_read_text_iff.2 (hmethod value hvalue))
      · exact Member.takes_of_iff.2 (exists_read_option_iff.2 (hparams value hvalue))
    · simp only [schema, Record.schema, List.forall_mem_cons]
      refine ⟨fun _ => ?_, nofun, fun _ => ?_, nofun, List.forall_mem_nil _⟩
      · exact Schema.mem_knownNames_iff.2 ⟨hhasVersion, by decide⟩
      · exact Schema.mem_knownNames_iff.2 ⟨hhasMethod, by decide⟩

/-- An array is read as a request exactly if its items read as one. -/
theorem exists_read_array_iff {items : List Outline} :
    (∃ request : Request, Json.ReadJson.read Json.nestingLimit (.array items) = .ok request) ↔
      ItemsReadAsRequest items := by
  let schema : Schema Request := Record.schema
  have hread : (∃ request : Request,
      Json.ReadJson.read Json.nestingLimit (.array items) = .ok request) ↔
        Schema.TakesItems (Json.nestingLimit - 1) schema.members items :=
    Schema.exists_readItems_iff (fun _ => isPlain_of_mem_schema)
  rw [hread]
  constructor
  · intro h
    -- only the identifier and the parameters may be missing, and only at the end
    rcases items with _ | ⟨version, _ | ⟨id, _ | ⟨method, params⟩⟩⟩
    · exact nomatch h.1
    · exact nomatch h.2.2.1
    · exact nomatch h.2.2.1
    obtain ⟨hversion, hid, hmethod, hparams⟩ := h
    obtain ⟨version, rfl⟩ := exists_read_text_iff.1 (Member.takes_of_iff.1 hversion)
    obtain ⟨method, rfl⟩ := exists_read_text_iff.1 (Member.takes_of_iff.1 hmethod)
    refine ⟨version, id, method, params, rfl,
      exists_read_value_iff.1 (Member.takes_of_iff.1 hid), ?_⟩
    rcases params with _ | ⟨value, _ | ⟨extra, rest⟩⟩
    · exact ⟨Nat.zero_le 1, List.forall_mem_nil _⟩
    · refine ⟨Nat.le_refl 1, ?_⟩
      simpa using exists_read_option_iff.1 (Member.takes_of_iff.1 hparams.1)
    · exact hparams.2.elim
  · rintro ⟨version, id, method, params, rfl, hid, hlength, hparams⟩
    refine ⟨Member.takes_of_iff.2 (exists_read_text_iff.2 ⟨version, rfl⟩),
      Member.takes_of_iff.2 (exists_read_value_iff.2 hid),
      Member.takes_of_iff.2 (exists_read_text_iff.2 ⟨method, rfl⟩), ?_⟩
    rcases params with _ | ⟨value, _ | ⟨extra, rest⟩⟩
    · exact ⟨rfl, trivial⟩
    · have hvalue := hparams value List.mem_cons_self
      exact ⟨Member.takes_of_iff.2 (exists_read_option_iff.2 hvalue), trivial⟩
    · simp at hlength

theorem exists_read_iff {outline : Outline} (hwellFormed : outline.wellFormed = true) :
    (∃ request : Request, Json.ReadJson.read Json.nestingLimit outline = .ok request) ↔
      ReadsAsRequest outline := by
  cases outline with
  | object members =>
    rw [exists_read_object_iff (Json.membersWellFormed_iff.1 hwellFormed)]
    exact ⟨.object, fun h => by cases h; assumption⟩
  | array items =>
    rw [exists_read_array_iff]
    exact ⟨.array, fun h => by cases h; assumption⟩
  | _ => exact iff_of_false (fun h => nomatch h) (fun h => nomatch h)

namespace Server

/-! ## What is answered -/

/-- The responses to a line. -/
def responsesTo (server : Server) (line : String) : List Response :=
  (server.repliesTo line).map (·.response)

/-- Whether a line is carried out as a request. -/
inductive Line.IsCarriedOut : Line → Prop where
  | call (id : Json) (params : Option Json) : IsCarriedOut (.call id params)
  | request (request : Request) : IsCarriedOut (.request request)

instance : DecidablePred Line.IsCarriedOut
  | .call id params => .isTrue (.call id params)
  | .request request => .isTrue (.request request)
  | .blank | .unreadable _ => .isFalse (fun h => nomatch h)

/-- Whether a response is an error with the code. -/
def HasCode (code : ErrorCode) (response : Response) : Prop :=
  response.error.map ResponseError.code = some code.number

instance (code : ErrorCode) : DecidablePred (HasCode code) :=
  fun _ => inferInstanceAs (Decidable (_ = _))

variable {server : Server} {line : String}

theorem hasCode_protocolError_iff {code other : ErrorCode} {id : Json} {message : String} :
    HasCode code (.protocolError id other message) ↔ other.number = code.number := by
  simp [HasCode, Response.protocolError]

theorem hasCode_failure_iff {code : ErrorCode} {id : Json} {failure : Failure} :
    HasCode code (.failure id failure) ↔
      (ErrorCode.ofFailure failure.kind).number = code.number := by
  simp [HasCode, Response.failure]

theorem not_hasCode_success {code : ErrorCode} {id result : Json} :
    ¬HasCode code (.success id result) := by
  simp [HasCode, Response.success]

/-- A response to a request never says that there was no request. -/
theorem not_hasCode_of_respond {request : Request} {response : Response}
    (h : server.respond request = some response) {code : ErrorCode}
    (hcode : code = .parseError ∨ code = .invalidRequest) : ¬HasCode code response := by
  have hcall : ∀ id params, ¬HasCode code (server.callResponse id params) := by
    intro id params
    unfold callResponse
    split
    · rw [hasCode_protocolError_iff]
      rcases hcode with rfl | rfl <;> decide
    · split
      · exact not_hasCode_success
      · next failure _ =>
        rw [hasCode_failure_iff]
        rcases hcode with rfl | rfl <;> cases failure.kind <;> decide
  unfold respond at h
  split_ifs at h
  all_goals obtain rfl := Option.some.inj h
  · exact not_hasCode_success
  · exact not_hasCode_success
  · exact hcall _ _
  · exact not_hasCode_success
  · rw [hasCode_protocolError_iff]
    rcases hcode with rfl | rfl <;> decide

theorem isCarriedOut_of_readText {request : Request}
    (h : Json.readText (Text.trim line) = .ok request) : (readLine line).IsCarriedOut := by
  rw [readLine_of_readText h]
  split
  · exact .call _ _
  · exact .request _

theorem readLine_of_error {error : Json.ReadError} (hline : (Text.trim line).isEmpty = false)
    (h : (Json.readText (Text.trim line) : Except Json.ReadError Request) = .error error) :
    readLine line = .unreadable error := by
  simp [readLine, hline, h]

/-- How the server answers a line that is JSON. -/
structure AnswersAsRead (server : Server) (line : String) (outline : Outline) : Prop where
  carriedOut_iff : (readLine line).IsCarriedOut ↔ ReadsAsRequest outline
  of_reads : ReadsAsRequest outline → ∀ response ∈ server.responsesTo line,
    ¬HasCode .parseError response ∧ ¬HasCode .invalidRequest response
  of_not_reads : ¬ReadsAsRequest outline → ∃ response, server.responsesTo line = [response] ∧
    HasCode .parseError response ∧ response.id = .null

theorem answersAsRead (server : Server) {outline : Outline}
    (h : SpellsText line.toList outline) : server.AnswersAsRead line outline := by
  have hread := exists_read_iff h.wellFormed
  rw [← Json.readText_of_spells h.trim] at hread
  cases hresult : (Json.readText (Text.trim line) : Except Json.ReadError Request) with
  | ok request =>
    have hreads : ReadsAsRequest outline := hread.1 ⟨request, hresult⟩
    have hresponses : server.responsesTo line = (server.respond request).toList :=
      responses_of_readText hresult
    refine ⟨iff_of_true (isCarriedOut_of_readText hresult) hreads, fun _ response hmem => ?_,
      fun hnot => absurd hreads hnot⟩
    rw [hresponses, Option.mem_toList] at hmem
    exact ⟨not_hasCode_of_respond hmem (.inl rfl), not_hasCode_of_respond hmem (.inr rfl)⟩
  | error error =>
    have hreads : ¬ReadsAsRequest outline := by
      rw [← hread, hresult]
      simp
    have hline : (Text.trim line).isEmpty = false := by
      rw [Bool.eq_false_iff]
      intro hblank
      exact h.trim.ne_nil (by rw [String.isEmpty_iff.1 hblank]; rfl)
    have hunreadable := readLine_of_error hline hresult
    refine ⟨iff_of_false (by rw [hunreadable]; exact nofun) hreads, fun hr => absurd hr hreads,
      fun _ => ?_⟩
    refine ⟨unreadableResponse error, ?_, hasCode_protocolError_iff.2 rfl, rfl⟩
    rw [responsesTo, repliesTo, hunreadable]
    rfl

/-! ## What the protocol prescribes -/

/-- How the protocol wants a line to be answered: as one that is not JSON only if it is not JSON,
and as an invalid request if it is JSON but no request, without being carried out. -/
structure ClassifiedAsPrescribed (server : Server) (line : String) : Prop where
  parse_error : (∃ response ∈ server.responsesTo line, HasCode .parseError response) →
    ∀ outline, ¬SpellsText line.toList outline
  invalid_request : ∀ outline, SpellsText line.toList outline → ¬IsRequestObject outline →
    (∃ response, server.responsesTo line = [response] ∧ HasCode .invalidRequest response ∧
      response.id = .null) ∧ ¬(readLine line).IsCarriedOut

/-- **The lines that are answered as prescribed.** A line that is JSON is carried out exactly if it
reads as a request, from an object or from an array; if it does not, the server answers as if it
were not JSON, and never that the request is invalid. So a line is classified as the protocol
prescribes exactly if it is not JSON, or if it is an object whose members read as a request. -/
theorem classifiedAsPrescribed_iff (server : Server) (line : String) :
    (∀ before after, (server.serve (before ++ line :: after)).1.map (·.response) =
      (server.serve before).1.map (·.response) ++ server.responsesTo line ++
        (server.serve after).1.map (·.response)) ∧
      (∀ outline, SpellsText line.toList outline → server.AnswersAsRead line outline) ∧
      (server.ClassifiedAsPrescribed line ↔ ∀ outline, SpellsText line.toList outline →
        ∃ members, outline = .object members ∧ MembersReadAsRequest members) := by
  refine ⟨fun before after => ?_, fun outline => server.answersAsRead, fun h outline hline => ?_,
    fun h => ⟨?_, ?_⟩⟩
  · simp [serve_fst, responsesTo]
  · have hanswers := server.answersAsRead hline
    -- JSON that is not read is answered as if it were not JSON, which is not allowed
    have hreads : ReadsAsRequest outline := by
      by_contra hnot
      obtain ⟨response, hresponses, hcode, -⟩ := hanswers.of_not_reads hnot
      exact h.parse_error ⟨response, by simp [hresponses], hcode⟩ outline hline
    cases hreads with
    | object hmembers => exact ⟨_, rfl, hmembers⟩
    | array hitems =>
      have hinvalid := h.invalid_request _ hline (not_isRequestObject_array _)
      exact absurd (hanswers.carriedOut_iff.2 (.array hitems)) hinvalid.2
  · rintro ⟨response, hmem, hcode⟩ outline hline
    obtain ⟨members, rfl, hmembers⟩ := h outline hline
    exact ((server.answersAsRead hline).of_reads (.object hmembers) response hmem).1 hcode
  · intro outline hline hnone
    obtain ⟨members, rfl, hmembers⟩ := h outline hline
    exact absurd hmembers.isRequestObject hnone

theorem exists_spellsText_array {text : String}
    (h : (match Json.Document.ofText text with
      | ⟨.array _, complete⟩ => complete
      | _ => false) = true) : ∃ items, SpellsText text.toList (.array items) := by
  split at h
  · next items complete hdocument =>
    subst h
    exact ⟨items, Json.ofText_eq_iff.1 hdocument⟩
  · cases h

/-- JSON that is no request. -/
def emptyLine : String := "[]"

/-- A request whose parts stand in an array. -/
def partsLine : String := "[\"2.0\",1,\"ping\"]"

theorem isCarriedOut_partsLine : (readLine partsLine).IsCarriedOut := by decide +kernel

/-- An empty array is answered as if it were not JSON, and the parts of a request are carried out
although they stand in an array. -/
theorem arrays_not_classified :
    (∃ items, SpellsText emptyLine.toList (.array items)) ∧
      (∃ response ∈ idleServer.responsesTo emptyLine, HasCode .parseError response) ∧
      ¬idleServer.ClassifiedAsPrescribed emptyLine ∧
      (∃ items, SpellsText partsLine.toList (.array items)) ∧
      (idleServer.responsesTo partsLine).map Response.text =
        ["\x7b\"jsonrpc\":\"2.0\",\"id\":1,\"result\":\x7b\x7d\x7d"] ∧
      ¬idleServer.ClassifiedAsPrescribed partsLine := by
  have hempty : ∃ items, SpellsText emptyLine.toList (.array items) :=
    exists_spellsText_array (by decide +kernel)
  have hparts : ∃ items, SpellsText partsLine.toList (.array items) :=
    exists_spellsText_array (by decide +kernel)
  have hcode : ∃ response ∈ idleServer.responsesTo emptyLine, HasCode .parseError response := by
    decide +kernel
  refine ⟨hempty, hcode, fun h => ?_, hparts, by decide +kernel, fun h => ?_⟩
  · obtain ⟨items, hitems⟩ := hempty
    exact h.parse_error hcode _ hitems
  · obtain ⟨items, hitems⟩ := hparts
    exact (h.invalid_request _ hitems (not_isRequestObject_array items)).2
      isCarriedOut_partsLine

end Server

end JavaAtlas.Rpc
