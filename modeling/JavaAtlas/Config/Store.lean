import JavaAtlas.Config.Reference
import JavaAtlas.Failure
import JavaAtlas.File.System
import JavaAtlas.Toml.Document
import JavaAtlas.Toml.Printer

set_option autoImplicit false

/-! # The configuration store

A store holds sections of keys and values as they are written in a TOML file. References to
variables are expanded when a value is read and kept when the store is saved. -/

namespace JavaAtlas.Config

/-- A table of configuration values, and the file that it is saved to. -/
structure Store where
  path : Option Path := none
  table : Toml.Table := []

namespace Store

/-! ## Loading -/

/-- A store without values and without a file. -/
def empty : Store := {}

/-- What a reader learns of TOML text that breaks the grammar. -/
def grammarProblem : String := "<toml>"

/-- The store that a TOML text spells, without a file. -/
def ofText (text : String) : Except Failure Store :=
  match Toml.documentTable? text with
  | some table => .ok { table := table }
  | none => .error (.toml grammarProblem)

/-- The store of a file. Without the file the store is empty, and saving makes the file. -/
def load (files : FileSystem) (path : Path) : Except Failure Store :=
  if !files.pathExists path then .ok { path := path }
  else match files.readText path with
    | .error fault =>
      .error (.config ("failed to read config file '" ++ path.display ++ "': " ++ fault.message))
    | .ok text => match ofText text with
      | .error failure =>
        .error (.config
          ("failed to parse config file '" ++ path.display ++ "': " ++ failure.message))
      | .ok store => .ok { store with path := path }

/-! ## Reading and writing values -/

/-- The value under a key of a section, as it is written. -/
def raw? (store : Store) (section_ key : String) : Option Toml.Value :=
  match Assoc.find? section_ store.table with
  | some (.table entries) => Assoc.find? key entries
  | _ => none

/-- The value under a key of a section, with the references in its strings expanded. -/
def get? (store : Store) (lookup : Lookup) (section_ key : String) : Option Toml.Value :=
  (store.raw? section_ key).map (Toml.Value.mapStrings (expand lookup))

/-- The string under a key of a section. -/
def text? (store : Store) (lookup : Lookup) (section_ key : String) : Option String :=
  (store.get? lookup section_ key).bind Toml.Value.asString?

/-- The entries of a section; none when the section is missing or not a table. -/
def entries (store : Store) (section_ : String) : Toml.Table :=
  match Assoc.find? section_ store.table with
  | some (.table entries) => entries
  | _ => []

/-- Puts a value under a key of a section. A section that is not a table gives way to a new one. -/
def set (store : Store) (section_ key : String) (value : Toml.Value) : Store :=
  let entries := Sorted.insert key value (store.entries section_)
  { store with table := Sorted.insert section_ (.table entries) store.table }

/-! ## Saving -/

/-- The extension of the file that is written before it takes the place of the saved one. -/
def temporaryExtension : List UInt8 := Utf8.encode "tmp"

/-- Writes the store to its file: to a neighbour of the file first, which is then renamed. The file
system comes back as the steps that were taken leave it. -/
def save (store : Store) (files : FileSystem) : Except Failure Unit × FileSystem :=
  match store.path with
  | none => (.error (.config "config store has no backing file"), files)
  | some path =>
    let prepared := match path.parent? with
      | some parent => files.ensureDirectories parent
      | none => .ok files
    match prepared with
    | .error fault => (.error (.file fault.message), files)
    | .ok files =>
      let temporary := path.withExtension temporaryExtension
      match files.writeBytes temporary (Utf8.encode (Toml.documentText store.table)) with
      | .error fault => (.error (.file fault.message), files)
      | .ok files => match files.rename temporary path with
        | .error fault =>
          (.error (.config ("failed to rename '" ++ temporary.display ++ "' to '" ++
            path.display ++ "': " ++ fault.message)), files)
        | .ok files => (.ok (), files)

end Store

end JavaAtlas.Config
