import JavaAtlas.Toml.Value

set_option autoImplicit false

/-! # Tables under construction

While a document is read its tables grow. How far a table may still grow depends on what brought it
about: a heading, a longer heading that passes through it, or a key with dots. A value that has been
written out does not grow. -/

namespace JavaAtlas.Toml

/-- What brought a table about. -/
inductive Origin where
  | heading
  | passage
  | dottedKey
deriving DecidableEq, Repr

/-- An entry of a table under construction: a value, a table, or a list of tables of which only the
latest may grow. -/
inductive Draft where
  | value (v : Value)
  | table (origin : Origin) (entries : List (String × Draft))
  | tables (earlier : List Table) (latest : List (String × Draft))
deriving Inhabited

/-- The entries of a table under construction, in the order of their keys. -/
abbrev Drafts := List (String × Draft)

mutual

/-- The value that a draft has become. -/
def Draft.toValue : Draft → Value
  | .value v => v
  | .table _ entries => .table (toTable entries)
  | .tables earlier latest => .array (earlier.map Value.table ++ [.table (toTable latest)])

/-- The table that drafts have become. -/
def toTable : List (String × Draft) → Table
  | [] => []
  | (key, draft) :: rest => (key, draft.toValue) :: toTable rest

end

/-- Changes the table at the end of a path by `change`, which is told whether dotted keys brought
that table about. Missing tables on the way are made. A dotted key does not pass through a table
that has a heading. -/
def descend (dotted : Bool) (change : Bool → Drafts → Option Drafts) :
    Bool → List String → Drafts → Option Drafts
  | byDots, [], entries => change byDots entries
  | _, key :: path, entries =>
    match Assoc.find? key entries with
    | none => do
      let child ← descend dotted change dotted path []
      some (Sorted.insert key (.table (if dotted then .dottedKey else .passage) child) entries)
    | some (.value _) => none
    | some (.table origin child) =>
      if dotted ∧ origin = .heading then none
      else do
        let child ← descend dotted change (origin == .dottedKey) path child
        some (Sorted.insert key (.table origin child) entries)
    | some (.tables earlier latest) => do
      let latest ← descend dotted change false path latest
      some (Sorted.insert key (.tables earlier latest) entries)

/-- Adds a value under a new key. -/
def addNew (key : String) (value : Value) (entries : Drafts) : Option Drafts :=
  match Assoc.find? key entries with
  | none => some (Sorted.insert key (.value value) entries)
  | some _ => none

/-- Adds a value under a path of keys. Dotted keys and other keys do not write into one table. -/
def addPair (path : List String) (key : String) (value : Value) (entries : Drafts) :
    Option Drafts :=
  descend true (fun byDots target =>
    if byDots = path.isEmpty then none else addNew key value target) false path entries

/-- Opens the table with a heading of its own. -/
def openTable (key : String) (entries : Drafts) : Option Drafts :=
  match Assoc.find? key entries with
  | none => some (Sorted.insert key (.table .heading []) entries)
  | some (.table .passage child) => some (Sorted.insert key (.table .heading child) entries)
  | some _ => none

/-- Opens the next table of a list. -/
def openElement (key : String) (entries : Drafts) : Option Drafts :=
  match Assoc.find? key entries with
  | none => some (Sorted.insert key (.tables [] []) entries)
  | some (.tables earlier latest) =>
    some (Sorted.insert key (.tables (earlier ++ [toTable latest]) []) entries)
  | some _ => none

/-- A path of keys with a last key. -/
structure KeyPath where
  front : List String
  last : String
deriving DecidableEq, Repr

namespace KeyPath

/-- All keys of the path. -/
def keys (path : KeyPath) : List String := path.front ++ [path.last]

end KeyPath

/-- The table that some pairs make up, as in a table between braces. -/
def tableOfPairs? (pairs : List (KeyPath × Value)) : Option Table :=
  let add (entries : Drafts) (pair : KeyPath × Value) :=
    addPair pair.1.front pair.1.last pair.2 entries
  (pairs.foldlM add []).map toTable

end JavaAtlas.Toml
