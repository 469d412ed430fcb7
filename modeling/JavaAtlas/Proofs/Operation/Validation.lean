import JavaAtlas.Proofs.Operation.InputSchema

set_option autoImplicit false

/-! # Checking arguments is exact

A parameter reads nothing of the arguments but what stands under its name, so the order of the
arguments does not matter, and checked values go through the check as they are
(`valueOf_of_checked`). The values come in the order of the parameters, since the check puts one
after the other behind those that are there (`keys_of_valuesOf`). -/

namespace JavaAtlas

/-- Whether the parameter has the value that the arguments give it: the argument as it is, or the
default for one that is left out or `null`. -/
def Parameter.Receives (p : Parameter) (raw : Dict String Json) (value : Json) : Prop :=
  (∀ given, raw.get? p.name = some given → given ≠ .null → value = given) ∧
  (raw.get? p.name = none ∨ raw.get? p.name = some .null →
    p.required = false ∧ value = (p.default.map DefaultValue.toJson).getD .null)

namespace Arguments

variable {d : Descriptor} {p : Parameter} {value : Json}

/-! ## The value of one parameter -/

theorem valueOf_congr {raw raw' : List (String × Json)}
    (h : Assoc.find? p.name raw = Assoc.find? p.name raw') : valueOf p raw = valueOf p raw' := by
  unfold valueOf
  rw [h]

theorem receives_of_valueOf {raw : Dict String Json} (h : valueOf p raw.entries = .ok value) :
    p.Receives raw value := by
  unfold valueOf at h
  unfold Parameter.Receives Dict.get?
  generalize Assoc.find? p.name raw.entries = given at h
  split at h
  · split at h
    · exact absurd h (by simp)
    · next hoptional =>
      refine ⟨fun _ hgiven => (nomatch hgiven), ?_⟩
      exact fun _ => ⟨eq_false_of_ne_true hoptional, (Except.ok.inj h).symm⟩
  · split at h
    · exact absurd h (by simp)
    · next hoptional =>
      refine ⟨fun _ hgiven hne => absurd (Option.some.inj hgiven).symm hne, ?_⟩
      exact fun _ => ⟨eq_false_of_ne_true hoptional, (Except.ok.inj h).symm⟩
  · next given hnull =>
    split at h
    · obtain rfl := Except.ok.inj h
      refine ⟨fun _ hgiven _ => Option.some.inj hgiven, ?_⟩
      rintro (hnone | hsome)
      · exact nomatch hnone
      · exact absurd (Option.some.inj hsome) hnull
    · exact absurd h (by simp)

/-- A checked value is accepted as it is. -/
theorem valueOf_of_checked {raw checked : List (String × Json)}
    (hfits : p.fallback.isNull = true ∨ p.kind.accepts p.fallback = true)
    (h : valueOf p raw = .ok value) (hchecked : Assoc.find? p.name checked = some value) :
    valueOf p checked = .ok value := by
  rcases admits_of_valueOf h with haccepts | ⟨hoptional, rfl⟩
  · have hnull := ParameterKind.ne_null_of_accepts haccepts
    unfold valueOf
    rw [hchecked]
    cases value with
    | null => exact absurd rfl hnull
    | _ => simp [haccepts]
  · exact valueOf_eq_fallback hoptional hfits (.inr hchecked)

/-! ## The values of all parameters -/

/-- The values come in the order of the parameters. -/
theorem keys_of_valuesOf {parameters : List Parameter} {raw : List (String × Json)}
    {values result : Dict String Json}
    (hnodup : (values.keys ++ parameters.map Parameter.name).Nodup)
    (h : valuesOf parameters raw values = .ok result) :
    result.keys = values.keys ++ parameters.map Parameter.name := by
  induction parameters generalizing raw values with
  | nil =>
    obtain rfl := Except.ok.inj h
    exact (List.append_nil _).symm
  | cons q rest ih =>
    rw [valuesOf] at h
    obtain ⟨value, -, h⟩ := Fallible.bind_eq_ok_iff.1 h
    -- a name that is not there yet is inserted behind the others
    have hfresh : q.name ∉ values.keys := by
      intro hmem
      rw [List.map_cons, List.nodup_append] at hnodup
      exact hnodup.2.2 _ hmem _ List.mem_cons_self rfl
    have hkeys : (values.insert q.name value).keys = values.keys ++ [q.name] := by
      rw [Dict.keys_insert, if_neg hfresh]
    rw [List.map_cons, List.append_cons, ← hkeys] at hnodup ⊢
    exact ih hnodup h

/-- What the check leaves: a value for each parameter in order, as the arguments give it. -/
theorem values_of_validate {raw : Dict String Json} {arguments : Arguments}
    (hnodup : (d.parameters.map Parameter.name).Nodup)
    (h : validate d raw.entries = .ok arguments) :
    arguments.values.keys = d.parameters.map Parameter.name ∧
      ∀ p ∈ d.parameters, ∃ value, valueOf p raw.entries = .ok value ∧
        arguments.values.get? p.name = some value := by
  obtain ⟨-, values, hvalues, rfl⟩ := validate_eq_ok_iff.1 h
  have hkeys := @keys_of_valuesOf d.parameters raw.entries .empty values hnodup hvalues
  exact ⟨hkeys, (get?_of_valuesOf hnodup hvalues).1⟩

theorem validate_of_perm {raw raw' : Dict String Json} (h : raw.entries.Perm raw'.entries)
    {arguments : Arguments} (hraw : validate d raw.entries = .ok arguments) :
    validate d raw'.entries = .ok arguments := by
  obtain ⟨hnames, hvalues⟩ := validate_eq_ok_iff.1 hraw
  refine validate_eq_ok_iff.2 ⟨fun name hname => ?_, ?_⟩
  · exact hnames name ((h.map Prod.fst).mem_iff.2 hname)
  · rwa [valuesOf_congr fun p _ => valueOf_congr (Dict.get?_eq_of_perm h p.name).symm]

theorem validate_of_checked {raw : Dict String Json} {arguments : Arguments}
    (hnodup : (d.parameters.map Parameter.name).Nodup) (hfits : d.DefaultsFit)
    (h : validate d raw.entries = .ok arguments) :
    validate d arguments.values.entries = .ok arguments := by
  obtain ⟨hkeys, hgiven⟩ := values_of_validate hnodup h
  obtain ⟨-, values, hvalues, rfl⟩ := validate_eq_ok_iff.1 h
  have hagain : ∀ p ∈ d.parameters, valueOf p values.entries = valueOf p raw.entries := by
    intro p hp
    obtain ⟨value, hvalue, hget⟩ := hgiven p hp
    rw [hvalue, valueOf_of_checked (hfits p hp) hvalue hget]
  refine validate_eq_ok_iff.2 ⟨fun name hname => hkeys ▸ hname, values, ?_, rfl⟩
  rw [valuesOf_congr hagain, hvalues]

/-! ## The check -/

theorem takes_iff {given : Option Json} : p.Takes given ↔
    (p.required = true → ∃ value, given = some value ∧ value ≠ .null) ∧
      ∀ value, given = some value → value ≠ .null → p.kind.accepts value = true := by
  by_cases hnull : given = Option.none ∨ given = some .null
  · -- nothing is given, so only the first condition says something
    rcases hnull with rfl | rfl <;> cases hrequired : p.required <;>
      simp [Parameter.Takes, hrequired]
  · obtain ⟨hnone, hnull⟩ := not_or.1 hnull
    obtain ⟨value, rfl⟩ := Option.ne_none_iff_exists'.1 hnone
    have hvalue : value ≠ .null := fun h => hnull (h ▸ rfl)
    rw [Parameter.takes_some_iff hvalue]
    constructor
    · intro haccepts
      exact ⟨fun _ => ⟨value, rfl, hvalue⟩, fun _ hgiven _ => Option.some.inj hgiven ▸ haccepts⟩
    · rintro ⟨-, haccepts⟩
      exact haccepts value rfl hvalue

/-- **Checking arguments is exact.** Arguments are accepted exactly if their names are declared,
each required parameter is given and not `null`, and each argument that is not `null` is of its
parameter's kind; otherwise the failure is about the arguments of that operation. Accepted arguments
come to one value for each declared parameter, in the order of declaration: the argument as it is,
or the default of a parameter that is left out or `null`. Arguments in another order are accepted or
not alike and come to the same, and if the defaults are `null` or of their parameters' kinds,
checking the values once more changes nothing. -/
theorem validate_exact (hnodup : (d.parameters.map Parameter.name).Nodup)
    (raw : Dict String Json) :
    ((∃ arguments, validate d raw.entries = .ok arguments) ↔
      (∀ name ∈ raw.keys, name ∈ d.parameters.map Parameter.name) ∧
      (∀ p ∈ d.parameters, p.required = true →
        ∃ value, raw.get? p.name = some value ∧ value ≠ .null) ∧
      (∀ p ∈ d.parameters, ∀ value, raw.get? p.name = some value → value ≠ .null →
        p.kind.accepts value = true)) ∧
    (∀ failure, validate d raw.entries = .error failure →
      ∃ problem, failure = .invalidArguments d.name problem) ∧
    (∀ arguments, validate d raw.entries = .ok arguments →
      arguments.values.keys = d.parameters.map Parameter.name ∧
      ∀ p ∈ d.parameters, ∃ value, arguments.values.get? p.name = some value ∧
        p.Receives raw value) ∧
    (∀ raw' : Dict String Json, raw.entries.Perm raw'.entries → ∀ arguments,
      validate d raw.entries = .ok arguments ↔ validate d raw'.entries = .ok arguments) ∧
    (d.DefaultsFit → ∀ arguments, validate d raw.entries = .ok arguments →
      validate d arguments.values.entries = .ok arguments) := by
  refine ⟨?_, ?_, ?_, ?_, ?_⟩
  · rw [exists_validate_iff hnodup, ← forall₂_and]
    refine and_congr_right fun _ => forall₂_congr fun p _ => ?_
    exact takes_iff
  · intro failure hfailure
    unfold validate at hfailure
    split at hfailure
    · exact absurd hfailure (by simp)
    · next fault _ => exact ⟨fault.message, (Except.error.inj hfailure).symm⟩
  · intro arguments h
    obtain ⟨hkeys, hvalues⟩ := values_of_validate hnodup h
    refine ⟨hkeys, fun p hp => ?_⟩
    obtain ⟨value, hvalue, hget⟩ := hvalues p hp
    exact ⟨value, hget, receives_of_valueOf hvalue⟩
  · intro raw' hperm arguments
    exact ⟨validate_of_perm hperm, validate_of_perm hperm.symm⟩
  · exact fun hfits _ => validate_of_checked hnodup hfits

/-- A class, no method, and a choice that is sent as `null`. -/
def rootCalls : Dict String Json := .ofList [("derived", .null), ("class", .string "Account")]

/-- The same arguments in another order. -/
def rootCallsReversed : Dict String Json :=
  .ofList [("class", .string "Account"), ("derived", .null)]

theorem validate_exact_calls :
    (callsDescriptor.parameters.map Parameter.name).Nodup ∧
      rootCalls.entries.Perm rootCallsReversed.entries ∧ callsDescriptor.DefaultsFit ∧
      ∃ arguments, validate callsDescriptor rootCalls.entries = .ok arguments ∧
        arguments.values.keys = ["class", "method", "derived"] ∧
        validate callsDescriptor rootCallsReversed.entries = .ok arguments ∧
        validate callsDescriptor arguments.values.entries = .ok arguments := by
  have hnodup : (callsDescriptor.parameters.map Parameter.name).Nodup := by decide
  have hfits : callsDescriptor.DefaultsFit := by decide
  have hperm : rootCalls.entries.Perm rootCallsReversed.entries := List.Perm.swap _ _ []
  obtain ⟨-, -, hvalues, horder, hagain⟩ := validate_exact hnodup rootCalls
  obtain ⟨arguments, haccepted⟩ : ∃ arguments,
      validate callsDescriptor rootCalls.entries = .ok arguments := ⟨_, rfl⟩
  exact ⟨hnodup, hperm, hfits, arguments, haccepted, (hvalues arguments haccepted).1,
    (horder rootCallsReversed hperm arguments).1 haccepted, hagain hfits arguments haccepted⟩

end Arguments

end JavaAtlas
