import JavaAtlas.Json.Printer
import JavaAtlas.Path

set_option autoImplicit false

/-! # Wire form

Every value that leaves the program is encoded as JSON first, and encoding can fail: JSON has no
text for a number that is not finite or for a path that is not text, and two keys of a map must not
become one name. -/

namespace JavaAtlas

/-- Why a value has no wire form. -/
inductive EncodeError where
  | unencodable (subject : String)
  | keyCollision (key : String)
deriving DecidableEq, Repr

namespace EncodeError

/-- The text of the error. -/
def message : EncodeError → String
  | unencodable subject => "cannot encode " ++ subject
  | keyCollision key => "map keys collide after string coercion: '" ++ key ++ "'"

end EncodeError

/-- The outcome of encoding. -/
abbrev Encoded := Except EncodeError Json

/-- A type whose values have a wire form. -/
class Encode (α : Type) where
  encode : α → Encoded

export Encode (encode)

/-- A type whose values are names of members on the wire. -/
class WireKey (κ : Type) where
  wireKey : κ → String

export WireKey (wireKey)

/-! ## Scalars -/

instance : Encode Json := ⟨.ok⟩

instance : Encode Unit := ⟨fun _ => .ok .null⟩

instance : Encode Bool := ⟨fun b => .ok (.bool b)⟩

instance : Encode String := ⟨fun s => .ok (.string s)⟩

instance : Encode Int32 := ⟨fun n => .ok (.int n.toInt)⟩

instance : Encode Int64 := ⟨fun n => .ok (.int n.toInt)⟩

instance : Encode UInt32 := ⟨fun n => .ok (.int n.toNat)⟩

instance : Encode UInt64 := ⟨fun n => .ok (.int n.toNat)⟩

/-- Only finite numbers have a wire form. -/
instance : Encode Double where
  encode x :=
    if x.isFinite then .ok (.float x)
    else .error (.unencodable ("non-finite number " ++ Layout.debug.text x))

/-- Only paths that are text have a wire form. -/
instance : Encode Path where
  encode p := match p.text? with
    | some s => .ok (.string s)
    | none => .error (.unencodable ("non-UTF-8 path " ++ p.display))

instance : WireKey String := ⟨id⟩

instance : WireKey Int32 := ⟨fun n => String.ofList (Json.intChars n.toInt)⟩

instance : WireKey Int64 := ⟨fun n => String.ofList (Json.intChars n.toInt)⟩

instance : WireKey UInt32 := ⟨fun n => String.ofList (Json.intChars n.toNat)⟩

instance : WireKey UInt64 := ⟨fun n => String.ofList (Json.intChars n.toNat)⟩

/-! ## Options, pairs, sequences -/

variable {α β κ : Type}

/-- An absent value is `null`. -/
instance [Encode α] : Encode (Option α) where
  encode
    | some a => encode a
    | none => .ok .null

/-- A pair is an array of two. -/
instance [Encode α] [Encode β] : Encode (α × β) where
  encode p := do
    let a ← encode p.1
    let b ← encode p.2
    .ok (.array [a, b])

/-- The encodings of the elements in order, or the error of the first element that has none. -/
def encodeItems [Encode α] (items : List α) : Except EncodeError (List Json) :=
  items.mapM encode

instance [Encode α] : Encode (List α) where
  encode items := (encodeItems items).map .array

/-! ## Maps -/

/-- The members for a list of entries, in order, or the error of the first entry whose name is
already taken or whose value has no wire form. `taken` holds the names before the entries. -/
def encodeEntries [WireKey κ] [Encode α] (taken : List String) :
    List (κ × α) → Except EncodeError (List (String × Json))
  | [] => .ok []
  | (key, value) :: rest =>
    let name := wireKey key
    if name ∈ taken then .error (.keyCollision name)
    else do
      let value ← encode value
      let members ← encodeEntries (name :: taken) rest
      .ok ((name, value) :: members)

/-- A dictionary is an object with its members in order. -/
instance [WireKey κ] [Encode α] : Encode (Dict κ α) where
  encode d := (encodeEntries [] d.entries).map .object

/-! ## Sorting -/

/-- Values sorted by the text that `key` gives them; values of one text keep their order. -/
def sortByText (key : α → String) (items : List α) : List α :=
  items.mergeSort fun a b => decide (key a ≤ key b)

/-! ## Records -/

/-- An object whose members are named one by one. -/
def encodeRecord : List (String × Encoded) → Encoded
  | members => do
    let members ← members.mapM fun (name, value) => value.map ((name, ·))
    .ok (.object members)

/-- One member of the wire form of the records of type `ρ`. -/
structure WireField (ρ : Type) where
  name : String
  encode : ρ → Encoded

/-- The member that holds the value that `get` takes from a record. -/
def WireField.of {ρ : Type} [Encode α] (name : String) (get : ρ → α) : WireField ρ where
  name := name
  encode r := JavaAtlas.encode (get r)

end JavaAtlas
