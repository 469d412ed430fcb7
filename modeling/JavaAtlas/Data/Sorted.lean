import JavaAtlas.Data.Dict

set_option autoImplicit false

/-! # Lists of pairs in the order of their keys

A map that is written in the order of its keys is kept as a list of pairs with increasing keys;
inserting into such a list gives such a list. -/

namespace JavaAtlas.Sorted

variable {κ α : Type}

/-- Puts a value under a key: in the place of the value that is there, or before the first greater
key. -/
def insert [Ord κ] (key : κ) (value : α) : List (κ × α) → List (κ × α)
  | [] => [(key, value)]
  | (k, a) :: rest => match compare key k with
    | .lt => (key, value) :: (k, a) :: rest
    | .eq => (k, value) :: rest
    | .gt => (k, a) :: insert key value rest

/-- The sorted list of some pairs; the last value of a key counts. -/
def ofList [Ord κ] (pairs : List (κ × α)) : List (κ × α) :=
  pairs.foldl (fun entries pair => insert pair.1 pair.2 entries) []

end JavaAtlas.Sorted
