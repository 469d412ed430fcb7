import JavaAtlas.Proofs.Data.Lists
import JavaAtlas.Proofs.Json.Schema
import JavaAtlas.Proofs.Operation.Arguments

set_option autoImplicit false

/-! # The published schema and the check of arguments

The parameters of an operation are interpreted twice: the published schema tells a client which
arguments it may send, and the check decides which ones run. Arguments satisfy the schema exactly if
their names are declared, the required ones are there, and each is of its parameter's kind
(`satisfies_inputSchema_iff`); the check also lets `null` stand for an argument that is left out. -/

namespace JavaAtlas

open Json (Satisfies)

/-! ## The schema of one parameter -/

/-- The schema of the items of a list of strings. -/
def textSchema : Json := .object [("type", .string "string")]

theorem satisfies_textSchema_iff {value : Json} :
    Satisfies textSchema value ↔ value.isString = true := by
  unfold textSchema
  rw [Json.satisfies_iff_of_memberless rfl rfl rfl]
  constructor
  · rintro ⟨htype, -⟩
    have htype := htype "string" rfl
    cases value <;> simp [Json.typeName, Json.isString] at htype ⊢
  · intro h
    cases value with
    | string s =>
      refine ⟨fun name hname => Json.string.inj (Option.some.inj hname), ?_⟩
      intro _ _ _ harray
      exact Json.noConfusion harray
    | _ => simp [Json.isString] at h

namespace Parameter

/-- The keywords of a parameter: its type, the schema of its items if it is a list, its default if
it has one, and none that is about members. -/
theorem schema_eq (p : Parameter) : ∃ keywords, p.schema = .object keywords ∧
    Assoc.find? "type" keywords = some (.string p.kind.jsonType) ∧
    Assoc.find? "items" keywords = (if p.kind = .textList then some textSchema else none) ∧
    Assoc.find? "default" keywords = p.default.map DefaultValue.toJson ∧
    Assoc.find? "properties" keywords = none ∧ Assoc.find? "required" keywords = none ∧
    Assoc.find? "additionalProperties" keywords = none := by
  obtain ⟨name, kind, required, default, description⟩ := p
  refine ⟨_, rfl, rfl, ?_⟩
  cases kind <;> cases default <;> exact ⟨rfl, rfl, rfl, rfl, rfl⟩

theorem satisfies_schema_iff {p : Parameter} {value : Json} :
    Satisfies p.schema value ↔ p.kind.accepts value = true := by
  obtain ⟨keywords, hschema, htype, hitems, _, hproperties, hrequired, hadditional⟩ := p.schema_eq
  rw [hschema, Json.satisfies_iff_of_memberless hproperties hrequired hadditional]
  constructor
  · rintro ⟨type, items⟩
    have htype := type _ htype
    cases hkind : p.kind with
    | text =>
      rw [hkind] at htype
      cases value <;>
        simp [Json.typeName, ParameterKind.jsonType, ParameterKind.accepts] at htype ⊢
    | flag =>
      rw [hkind] at htype
      cases value <;>
        simp [Json.typeName, ParameterKind.jsonType, ParameterKind.accepts] at htype ⊢
    | textList =>
      rw [hkind] at htype hitems
      cases value with
      | array elements =>
        have hitems := items textSchema elements hitems rfl
        simpa [ParameterKind.accepts, satisfies_textSchema_iff] using hitems
      | _ => simp [Json.typeName, ParameterKind.jsonType] at htype
  · intro h
    refine ⟨?_, ?_⟩
    · intro name hname
      obtain rfl := Json.string.inj (Option.some.inj (htype.symm.trans hname))
      cases hkind : p.kind <;> rw [hkind] at h <;> cases value <;>
        simp [Json.typeName, ParameterKind.jsonType, ParameterKind.accepts] at h ⊢
    · rintro schema elements hschema rfl element helement
      -- only a list has a schema for its items
      rw [hitems] at hschema
      split at hschema
      · next hkind =>
        obtain rfl := Option.some.inj hschema
        rw [hkind] at h
        rw [satisfies_textSchema_iff]
        exact List.all_eq_true.1 h element helement
      · exact absurd hschema (by simp)

end Parameter

/-! ## The schema of the arguments -/

namespace Descriptor

variable {d : Descriptor}

/-- The properties of the schema: the schema of each parameter under its name. -/
def properties (d : Descriptor) : List (String × Json) :=
  d.parameters.map fun p => (p.name, p.schema)

theorem keys_properties (d : Descriptor) :
    Assoc.keys d.properties = d.parameters.map Parameter.name := by
  simp [Assoc.keys, properties, Function.comp_def]

theorem find?_properties (d : Descriptor) (name : String) :
    Assoc.find? name d.properties = (d.parameter? name).map Parameter.schema := by
  unfold properties parameter?
  induction d.parameters with
  | nil => rfl
  | cons p rest ih =>
    rw [List.map_cons, Assoc.find?_cons, List.find?_cons]
    by_cases h : p.name = name
    · simp [h]
    · simp [h, ih]

theorem inputSchema_eq (hnodup : (d.parameters.map Parameter.name).Nodup) :
    d.inputSchema = .object [
      ("type", .string "object"),
      ("properties", .object d.properties),
      ("required", .array ((d.parameters.filter Parameter.required).map fun p => .string p.name)),
      ("additionalProperties", .bool false)] := by
  have hentries : (Dict.ofList d.properties).entries = d.properties :=
    Dict.entries_ofList (d.keys_properties ▸ hnodup)
  unfold inputSchema
  show Json.object [_, ("properties", .object (Dict.ofList d.properties).entries), _, _] = _
  rw [hentries]

theorem parameter?_eq_some_iff (hnodup : (d.parameters.map Parameter.name).Nodup) {name : String}
    {p : Parameter} : d.parameter? name = some p ↔ p ∈ d.parameters ∧ p.name = name :=
  Lists.find?_eq_some_iff hnodup

/-- Arguments satisfy the schema exactly if every argument is declared and of its parameter's kind,
and no required one is left out. -/
theorem satisfies_inputSchema_iff (hnodup : (d.parameters.map Parameter.name).Nodup)
    {members : List (String × Json)} :
    Satisfies d.inputSchema (.object members) ↔
      (∀ name value, Assoc.find? name members = some value →
        ∃ p ∈ d.parameters, p.name = name ∧ p.kind.accepts value = true) ∧
      ∀ p ∈ d.parameters, p.required = true → p.name ∈ Assoc.keys members := by
  rw [inputSchema_eq hnodup]
  constructor
  · intro h
    cases h with
    | keywords _ _ properties required additional =>
      constructor
      · intro name value hvalue
        cases hfind : d.parameter? name with
        | some p =>
          obtain ⟨hp, hname⟩ := (parameter?_eq_some_iff hnodup).1 hfind
          have hschema : Assoc.find? name d.properties = some p.schema := by
            rw [find?_properties, hfind, Option.map_some]
          exact ⟨p, hp, hname, Parameter.satisfies_schema_iff.1
            (properties _ name _ value rfl hschema hvalue)⟩
        | none =>
          -- an argument that is not declared would have to satisfy the schema `false`
          refine absurd (additional _ name value rfl ?_ hvalue) (Json.not_satisfies_false value)
          rintro ⟨_, hproperties, hmem⟩
          obtain rfl := Json.object.inj (Option.some.inj hproperties)
          rw [← Assoc.find?_isSome_iff, find?_properties, hfind] at hmem
          exact absurd hmem (by simp)
      · intro p hp hrequired
        refine required _ members rfl rfl p.name (List.mem_map.2 ⟨p, ?_, rfl⟩)
        exact List.mem_filter.2 ⟨hp, hrequired⟩
  · rintro ⟨hdeclared, hrequired⟩
    refine .keywords ?_ ?_ ?_ ?_ ?_
    · intro name hname
      exact Json.string.inj (Option.some.inj hname)
    · intro _ _ hfind
      exact absurd hfind (by simp [Assoc.find?])
    · intro properties name schema value hproperties hschema hvalue
      obtain rfl := Json.object.inj (Option.some.inj hproperties)
      obtain ⟨p, hp, hname, haccepts⟩ := hdeclared name value hvalue
      have hfind := (parameter?_eq_some_iff hnodup).2 ⟨hp, hname⟩
      rw [find?_properties, hfind, Option.map_some] at hschema
      obtain rfl := Option.some.inj hschema
      exact Parameter.satisfies_schema_iff.2 haccepts
    · intro names members' hnames hmembers name hname
      obtain rfl := Json.array.inj (Option.some.inj hnames)
      obtain rfl := Json.object.inj hmembers
      obtain ⟨p, hp, hpname⟩ := List.mem_map.1 hname
      obtain rfl := Json.string.inj hpname
      obtain ⟨hp, hneeded⟩ := List.mem_filter.1 hp
      exact hrequired p hp hneeded
    · intro schema name value _ hundeclared hvalue
      obtain ⟨p, hp, rfl, _⟩ := hdeclared name value hvalue
      refine absurd ⟨_, rfl, ?_⟩ hundeclared
      rw [keys_properties]
      exact List.mem_map_of_mem hp

/-! ## Defaults -/

/-- The default that the schema publishes for a parameter. -/
def publishedDefault? (d : Descriptor) (name : String) : Option Json := do
  let properties ← d.inputSchema.member? "properties"
  let property ← properties.member? name
  property.member? "default"

/-- Whether every default is `null` or of its parameter's kind. -/
def DefaultsFit (d : Descriptor) : Prop :=
  ∀ p ∈ d.parameters, p.fallback.isNull = true ∨ p.kind.accepts p.fallback = true

instance (d : Descriptor) : Decidable d.DefaultsFit :=
  inferInstanceAs (Decidable (∀ p ∈ d.parameters, _))

theorem publishedDefault?_eq (hnodup : (d.parameters.map Parameter.name).Nodup) {p : Parameter}
    (hp : p ∈ d.parameters) : d.publishedDefault? p.name = p.default.map DefaultValue.toJson := by
  obtain ⟨keywords, hschema, _, _, hdefault, _⟩ := p.schema_eq
  have hproperty : Assoc.find? p.name d.properties = some p.schema := by
    rw [find?_properties, (parameter?_eq_some_iff hnodup).2 ⟨hp, rfl⟩, Option.map_some]
  unfold publishedDefault?
  rw [inputSchema_eq hnodup]
  show ((Assoc.find? p.name d.properties).bind fun property => property.member? "default") = _
  rw [hproperty, Option.bind_some, hschema]
  exact hdefault

end Descriptor

namespace Arguments

/-- A parameter that can be left out gets its default if it is left out, and if the default is sent
for it. -/
theorem valueOf_eq_fallback {p : Parameter} {raw : List (String × Json)}
    (hoptional : p.required = false)
    (hfits : p.fallback.isNull = true ∨ p.kind.accepts p.fallback = true)
    (hraw : Assoc.find? p.name raw = Option.none ∨ Assoc.find? p.name raw = some p.fallback) :
    valueOf p raw = .ok p.fallback := by
  unfold valueOf
  rcases hraw with hraw | hraw
  · rw [hraw]
    simp [hoptional]
  · rw [hraw]
    cases hfallback : p.fallback with
    | null => simp [hoptional]
    | _ =>
      rw [hfallback] at hfits
      simpa [Json.isNull] using hfits

variable {d : Descriptor}

/-- Sending the published default of a parameter comes to the same as leaving the parameter out. -/
theorem validate_sent_iff_omitted (hnodup : (d.parameters.map Parameter.name).Nodup)
    (hfits : d.DefaultsFit) {p : Parameter} (hp : p ∈ d.parameters)
    (hoptional : p.required = false) {default : Json}
    (hdefault : d.publishedDefault? p.name = some default) {sent omitted : Dict String Json}
    (hsent : sent.get? p.name = some default) (homitted : omitted.get? p.name = Option.none)
    (hothers : ∀ name ≠ p.name, sent.get? name = omitted.get? name) (arguments : Arguments) :
    validate d sent.entries = .ok arguments ↔ validate d omitted.entries = .ok arguments := by
  rw [Descriptor.publishedDefault?_eq hnodup hp, Option.map_eq_some_iff] at hdefault
  obtain ⟨value, hvalue, rfl⟩ := hdefault
  have hfallback : p.fallback = value.toJson := by
    unfold Parameter.fallback
    rw [hvalue, Option.map_some, Option.getD_some]
  have hvalues : ∀ q ∈ d.parameters, valueOf q sent.entries = valueOf q omitted.entries := by
    intro q hq
    by_cases hname : q.name = p.name
    · obtain rfl := List.inj_on_of_nodup_map hnodup hq hp hname
      rw [valueOf_eq_fallback hoptional (hfits q hq) (.inr (hfallback ▸ hsent)),
        valueOf_eq_fallback hoptional (hfits q hq) (.inl homitted)]
    · have hfind : Assoc.find? q.name sent.entries = Assoc.find? q.name omitted.entries :=
        hothers q.name hname
      unfold valueOf
      rw [hfind]
  have hnames : (∀ name ∈ sent.keys, name ∈ d.parameters.map Parameter.name) ↔
      ∀ name ∈ omitted.keys, name ∈ d.parameters.map Parameter.name := by
    have hkey : ∀ name ≠ p.name, (name ∈ sent.keys ↔ name ∈ omitted.keys) := by
      intro name hname
      rw [Dict.mem_keys_iff, Dict.mem_keys_iff, hothers name hname]
    constructor
    · intro h name hmem
      by_cases hname : name = p.name
      · exact hname ▸ List.mem_map_of_mem hp
      · exact h name ((hkey name hname).2 hmem)
    · intro h name hmem
      by_cases hname : name = p.name
      · exact hname ▸ List.mem_map_of_mem hp
      · exact h name ((hkey name hname).1 hmem)
  rw [validate_eq_ok_iff, validate_eq_ok_iff, valuesOf_congr hvalues]
  exact and_congr_left fun _ => hnames

/-! ## The schema and the check -/

/-- **The published schema and the check of arguments agree.** Arguments that satisfy the schema are
accepted; accepted arguments satisfy the schema unless one of them is `null`; and if the defaults
are `null` or of their parameters' kinds, sending the published default of a parameter that can be
left out gives the same checked arguments as leaving it out. -/
theorem schema_agrees_with_check (hnodup : (d.parameters.map Parameter.name).Nodup) :
    (∀ raw : Dict String Json, Satisfies d.inputSchema (.object raw.entries) →
      ∃ arguments, validate d raw.entries = .ok arguments) ∧
    (∀ raw : Dict String Json, (∀ name, raw.get? name ≠ some .null) →
      (∃ arguments, validate d raw.entries = .ok arguments) →
        Satisfies d.inputSchema (.object raw.entries)) ∧
    (d.DefaultsFit → ∀ p ∈ d.parameters, p.required = false →
      ∀ default, d.publishedDefault? p.name = some default →
        ∀ sent omitted : Dict String Json, sent.get? p.name = some default →
          omitted.get? p.name = Option.none →
            (∀ name ≠ p.name, sent.get? name = omitted.get? name) →
              ∀ arguments, validate d sent.entries = .ok arguments ↔
                validate d omitted.entries = .ok arguments) := by
  simp only [Descriptor.satisfies_inputSchema_iff hnodup, exists_validate_iff hnodup]
  refine ⟨?_, ?_, ?_⟩
  · rintro raw ⟨hdeclared, hrequired⟩
    refine ⟨?_, ?_⟩
    · intro name hname
      obtain ⟨value, hvalue⟩ := Dict.mem_keys_iff.1 hname
      obtain ⟨p, hp, rfl, _⟩ := hdeclared name value hvalue
      exact List.mem_map_of_mem hp
    · intro p hp
      show p.Takes (raw.get? p.name)
      cases hvalue : raw.get? p.name with
      | none =>
        -- it is not there, so it is not required
        have hmissing : p.name ∉ raw.keys := (Assoc.find?_eq_none_iff p.name raw.entries).1 hvalue
        exact eq_false_of_ne_true fun h => hmissing (hrequired p hp h)
      | some value =>
        obtain ⟨q, hq, hname, haccepts⟩ := hdeclared p.name value hvalue
        obtain rfl := List.inj_on_of_nodup_map hnodup hq hp hname
        exact (Parameter.takes_some_iff (ParameterKind.ne_null_of_accepts haccepts)).2 haccepts
  · rintro raw hnull ⟨hnames, htakes⟩
    refine ⟨?_, ?_⟩
    · intro name value hvalue
      obtain ⟨p, hp, rfl⟩ := List.mem_map.1 (hnames name (Dict.mem_keys_iff.2 ⟨value, hvalue⟩))
      refine ⟨p, hp, rfl, ?_⟩
      have hvalue_ne : value ≠ .null := fun h => hnull p.name (h ▸ hvalue)
      exact (Parameter.takes_some_iff hvalue_ne).1 (hvalue ▸ htakes p hp)
    · intro p hp hrequired
      cases hvalue : raw.get? p.name with
      | some value => exact Dict.mem_keys_iff.2 ⟨value, hvalue⟩
      | none =>
        have hoptional : p.Takes Option.none := hvalue ▸ htakes p hp
        exact absurd hrequired (by simp [Parameter.Takes] at hoptional; simp [hoptional])
  · intro hfits p hp hoptional default hdefault sent omitted hsent homitted hothers arguments
    exact validate_sent_iff_omitted hnodup hfits hp hoptional hdefault hsent homitted hothers
      arguments

/-- An operation with a class that must be given, a method that need not be, and a choice that is
off by default. -/
def callsDescriptor : Descriptor where
  name := "calls_tool"
  kind := .tool
  parameters := [
    .needed "class" .text "The class that calls",
    .withDefault "method" .text .null "The method that calls",
    .withDefault "derived" .flag (.flag false) "Whether to use derived calls"]
  shape := .list
  description := "The calls of a class"

theorem schema_agrees_with_check_calls :
    let omitted : Dict String Json := .ofList [("class", .string "Account")]
    let sent := omitted.insert "derived" (.bool false)
    (callsDescriptor.parameters.map Parameter.name).Nodup ∧ callsDescriptor.DefaultsFit ∧
      callsDescriptor.publishedDefault? "derived" = some (.bool false) ∧
      Satisfies callsDescriptor.inputSchema (.object omitted.entries) ∧
      (∃ arguments, validate callsDescriptor omitted.entries = .ok arguments) ∧
      ∀ arguments, validate callsDescriptor sent.entries = .ok arguments ↔
        validate callsDescriptor omitted.entries = .ok arguments := by
  intro omitted sent
  have hnodup : (callsDescriptor.parameters.map Parameter.name).Nodup := by decide
  have hfits : callsDescriptor.DefaultsFit := by decide
  obtain ⟨haccepted, hsatisfied, hdefault⟩ := schema_agrees_with_check hnodup
  have hnull : ∀ name, omitted.get? name ≠ some .null := by
    intro name hname
    have hmem : (name, Json.null) ∈ omitted.entries := Dict.mem_entries_iff.2 hname
    simp [omitted, Dict.ofList, Dict.empty, Dict.insert, Assoc.insert] at hmem
  have hschema := hsatisfied omitted hnull ⟨_, rfl⟩
  refine ⟨hnodup, hfits, rfl, hschema, haccepted omitted hschema, ?_⟩
  refine hdefault hfits (.withDefault "derived" .flag (.flag false) "Whether to use derived calls")
    (by simp [callsDescriptor]) rfl (.bool false) rfl sent omitted rfl rfl ?_
  intro name hname
  exact (Dict.get?_insert ..).trans (if_neg (Ne.symm hname))

end Arguments

end JavaAtlas
