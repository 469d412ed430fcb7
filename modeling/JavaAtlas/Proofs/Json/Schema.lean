import JavaAtlas.Json.Basic

set_option autoImplicit false

/-! # What a JSON Schema asks of a value

A schema is itself a JSON value. Of its keywords, those that say which values it admits are read
here by the rules of JSON Schema; all others, such as descriptions and defaults, ask nothing. -/

namespace JavaAtlas.Json

/-- The type of a value as schemas name it. -/
def typeName : Json → String
  | null => "null"
  | bool _ => "boolean"
  | int _ | float _ => "number"
  | string _ => "string"
  | array _ => "array"
  | object _ => "object"

/-- Whether a schema declares a property. -/
def Declares (keywords : List (String × Json)) (name : String) : Prop :=
  ∃ properties, Assoc.find? "properties" keywords = some (.object properties) ∧
    name ∈ Assoc.keys properties

/-- Whether a value satisfies a schema: the schema `true`, or an object each of whose keywords it
satisfies. Nothing satisfies the schema `false`. -/
inductive Satisfies : (schema value : Json) → Prop where
  | anything (value : Json) : Satisfies (.bool true) value
  | keywords {keywords : List (String × Json)} {value : Json}
    (type : ∀ name, Assoc.find? "type" keywords = some (.string name) → value.typeName = name)
    (items : ∀ schema elements, Assoc.find? "items" keywords = some schema →
      value = .array elements → ∀ element ∈ elements, Satisfies schema element)
    (properties : ∀ properties name schema member,
      Assoc.find? "properties" keywords = some (.object properties) →
        Assoc.find? name properties = some schema → value.member? name = some member →
          Satisfies schema member)
    (required : ∀ names members, Assoc.find? "required" keywords = some (.array names) →
      value = .object members → ∀ name, .string name ∈ names → name ∈ Assoc.keys members)
    (additionalProperties : ∀ schema name member,
      Assoc.find? "additionalProperties" keywords = some schema → ¬Declares keywords name →
        value.member? name = some member → Satisfies schema member) :
    Satisfies (.object keywords) value

theorem not_satisfies_false (value : Json) : ¬Satisfies (.bool false) value := nofun

/-- Without the keywords about members, a schema asks for a type and for what the items are. -/
theorem satisfies_iff_of_memberless {keywords : List (String × Json)} {value : Json}
    (hproperties : Assoc.find? "properties" keywords = none)
    (hrequired : Assoc.find? "required" keywords = none)
    (hadditional : Assoc.find? "additionalProperties" keywords = none) :
    Satisfies (.object keywords) value ↔
      (∀ name, Assoc.find? "type" keywords = some (.string name) → value.typeName = name) ∧
        ∀ schema elements, Assoc.find? "items" keywords = some schema →
          value = .array elements → ∀ element ∈ elements, Satisfies schema element := by
  constructor
  · intro h
    cases h with
    | keywords type items _ _ _ => exact ⟨type, items⟩
  · rintro ⟨type, items⟩
    refine .keywords type items ?_ ?_ ?_
    · intro _ _ _ _ hfind
      exact absurd (hproperties.symm.trans hfind) (by simp)
    · intro _ _ hfind
      exact absurd (hrequired.symm.trans hfind) (by simp)
    · intro _ _ _ hfind
      exact absurd (hadditional.symm.trans hfind) (by simp)

end JavaAtlas.Json
