import JavaAtlas.Data.Sorted
import JavaAtlas.Wire.Encode

set_option autoImplicit false

/-! # Sets and maps on the wire

Ordered containers are written in their order. Containers without an order of their own are written
in the order of their encoded elements or keys, so the same contents always give the same text. -/

namespace JavaAtlas

variable {α κ : Type}

/-! ## Ordered containers -/

/-- A set whose elements are held in increasing order. -/
structure OrderedSet (α : Type) where
  elements : List α

namespace OrderedSet

/-- Puts an element into its place, unless it is there. -/
def insertElement [Ord α] (a : α) : List α → List α
  | [] => [a]
  | b :: rest => match compare a b with
    | .lt => a :: b :: rest
    | .eq => b :: rest
    | .gt => b :: insertElement a rest

/-- The set of the elements of a list. -/
def ofList [Ord α] (items : List α) : OrderedSet α :=
  ⟨items.foldl (fun set a => insertElement a set) []⟩

instance [Encode α] : Encode (OrderedSet α) := ⟨fun set => encode set.elements⟩

end OrderedSet

/-- A map whose entries are held in increasing order of their keys. -/
structure OrderedMap (κ α : Type) where
  entries : List (κ × α)

namespace OrderedMap

/-- The map of the entries of a list; the last value of a key counts. -/
def ofList [Ord κ] (pairs : List (κ × α)) : OrderedMap κ α :=
  ⟨Sorted.ofList pairs⟩

instance [WireKey κ] [Encode α] : Encode (OrderedMap κ α) where
  encode map := (encodeEntries [] map.entries).map .object

end OrderedMap

/-! ## Containers without an order -/

/-- A set whose elements are held in no particular order: the list is one of its orders. -/
structure UnorderedSet (α : Type) where
  elements : List α
  nodup : elements.Nodup

namespace UnorderedSet

/-- The set of the elements of a list. -/
def ofList [DecidableEq α] (items : List α) : UnorderedSet α :=
  let d : Dict α Unit := .ofList (items.map fun a => (a, ()))
  ⟨d.keys, d.nodup⟩

/-- The elements are written in the order of their JSON text. -/
instance [Encode α] : Encode (UnorderedSet α) where
  encode set := do
    let items ← encodeItems set.elements
    let texts := items.map fun item => (item.compact, item)
    .ok (.array ((sortByText Prod.fst texts).map Prod.snd))

end UnorderedSet

/-- A map whose entries are held in no particular order: the dictionary shows one of its orders. -/
structure UnorderedMap (κ α : Type) where
  entries : Dict κ α

namespace UnorderedMap

/-- The map of the entries of a list; the last value of a key counts. -/
def ofList [DecidableEq κ] (pairs : List (κ × α)) : UnorderedMap κ α := ⟨.ofList pairs⟩

/-- The entries are written in the order of their names. -/
instance [WireKey κ] [Encode α] : Encode (UnorderedMap κ α) where
  encode map :=
    (encodeEntries [] (sortByText (fun entry => wireKey entry.1) map.entries.entries)).map .object

end UnorderedMap

end JavaAtlas
