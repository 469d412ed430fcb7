import JavaAtlas.Json.Reading
import JavaAtlas.Wire.Encode

set_option autoImplicit false

/-! # Record schemas

A schema names the members of a record type in order and says of each how it is written and read.
From this list come the record's JSON form and its reader. A record is read from an object, whose
members may come in any order and among unknown ones, or from an array of its members in declared
order. A second list names the members of the wire form, which are also the published ones. -/

namespace JavaAtlas

open Json (ReadJson ReadError Outline)

/-- A type whose values have a JSON form. -/
class WriteJson (α : Type) where
  write : α → Json

/-! ## JSON forms of plain values -/

section

variable {α : Type}

instance : WriteJson Json := ⟨id⟩

instance : WriteJson Bool := ⟨.bool⟩

instance : WriteJson String := ⟨.string⟩

instance : WriteJson Int32 := ⟨fun n => .int n.toInt⟩

instance : WriteJson Int64 := ⟨fun n => .int n.toInt⟩

instance [WriteJson α] : WriteJson (Option α) where
  write
    | some a => WriteJson.write a
    | none => .null

instance [WriteJson α] : WriteJson (List α) where
  write items := .array (items.map WriteJson.write)

instance [WriteJson α] : WriteJson (Dict String α) where
  write d := .object (d.entries.map fun entry => (entry.1, WriteJson.write entry.2))

/-- One of several named constants as its name. -/
def writeVariant [DecidableEq α] (known : List (String × α)) (a : α) : Json :=
  match known.find? fun entry => entry.2 = a with
  | some (name, _) => .string name
  | none => .null

end

/-! ## Members -/

/-- Whether a member may be left out. -/
inductive Presence where
  /-- The member may be missing and keeps its value in the blank record. -/
  | optional
  /-- The member may be missing from an object, but not from an array. -/
  | optionalInObject
  /-- The member must be there. -/
  | required
deriving DecidableEq, Repr

/-- One member of the records of type `ρ`. -/
structure Member (ρ : Type) where
  name : String
  presence : Presence
  /-- The JSON form of the member; `none` leaves the member out. -/
  write : ρ → Option Json
  /-- Reads the member into a record. -/
  read : Nat → Outline → ρ → Except ReadError ρ

namespace Member

variable {ρ α : Type} [WriteJson α] [ReadJson α]

/-- A member that is always written. -/
def of (name : String) (get : ρ → α) (set : α → ρ → ρ) (presence : Presence := .optional) :
    Member ρ where
  name := name
  presence := presence
  write r := some (WriteJson.write (get r))
  read depth outline r := (ReadJson.read depth outline).map fun a => set a r

/-- A member that is written only when it has a value. -/
def ifPresent (name : String) (get : ρ → Option α) (set : Option α → ρ → ρ)
    (presence : Presence := .optionalInObject) : Member ρ where
  name := name
  presence := presence
  write r := (get r).map WriteJson.write
  read depth outline r := (ReadJson.read depth outline).map fun a => set a r

end Member

/-! ## Schemas -/

/-- The members of a record type, and the record in which no member has been set. -/
structure Schema (ρ : Type) where
  title : String
  blank : ρ
  members : List (Member ρ)
  /-- The members of the wire form. Records that are written and read only have none. -/
  fields : List (WireField ρ) := []

namespace Schema

variable {ρ : Type} (schema : Schema ρ)

/-- The published names: those of the members of the wire form, in order. -/
def names : List String := schema.fields.map WireField.name

/-- The JSON form of a record. -/
def write (r : ρ) : Json :=
  .object (schema.members.filterMap fun m => (m.write r).map ((m.name, ·)))

/-- The wire form of a record, or the error of its first member that has none. -/
def encode (r : ρ) : Encoded :=
  encodeRecord (schema.fields.map fun field => (field.name, field.encode r))

/-- The first member that must be in an object and is not among `seen`. -/
def missing? (seen : List String) : Option String :=
  (schema.members.find? fun m => m.presence = .required ∧ m.name ∉ seen).map Member.name

/-- Reads the members of an object into `r`. `seen` holds the names that have been read. -/
def readMembers (depth : Nat) (seen : List String) :
    List (Option String × Outline) → ρ → Except ReadError ρ
  | [], r => match schema.missing? seen with
    | some name => .error (.missingMember name)
    | none => .ok r
  | (none, _) :: _, _ => .error .malformed
  | (some name, value) :: rest, r =>
    match schema.members.find? (·.name = name) with
    | none => if value.wellFormed then readMembers depth seen rest r else .error .malformed
    | some m =>
      if name ∈ seen then .error (.duplicateMember name)
      else do
        let r ← m.read depth value r
        readMembers depth (name :: seen) rest r

/-- Reads the items of an array into the members from position `index` on. -/
def readItems (depth : Nat) (index : Nat) :
    List (Member ρ) → List Outline → ρ → Except ReadError ρ
  | [], [], r => .ok r
  | [], _ :: _, _ => .error .malformed
  | m :: members, [], r =>
    if m.presence = .optional then readItems depth (index + 1) members [] r
    else .error (.wrongLength index schema.title schema.members.length)
  | m :: members, item :: items, r => do
    let r ← m.read depth item r
    readItems depth (index + 1) members items r

/-- Reads a record from an object or an array. -/
def read (depth : Nat) : Outline → Except ReadError ρ
  | .object members => Json.enter depth fun depth =>
    schema.readMembers depth [] members schema.blank
  | .array items => Json.enter depth fun depth =>
    schema.readItems depth 0 schema.members items schema.blank
  | outline => .error (outline.mismatch ("struct " ++ schema.title))

end Schema

/-- A record type with its schema. -/
class Record (ρ : Type) where
  schema : Schema ρ

namespace Record

variable {ρ : Type} [Record ρ]

instance : WriteJson ρ := ⟨schema.write⟩

instance : Encode ρ := ⟨schema.encode⟩

instance : ReadJson ρ := ⟨schema.read⟩

end Record

end JavaAtlas
