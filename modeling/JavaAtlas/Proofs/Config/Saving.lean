import JavaAtlas.Config.Store
import JavaAtlas.Proofs.Data.Except
import JavaAtlas.Proofs.File.Replacing
import JavaAtlas.Proofs.Text.Utf8
import JavaAtlas.Proofs.Toml.Ordering

set_option autoImplicit false

/-! # A configuration that is saved and loaded again

A store that is built by reading and setting has its table in order at every depth
(`Store.Built.tableOrdered`), so its text is read back as the table (`Store.ofText_documentText`),
and it is the text that stands in the file after a save. -/

namespace JavaAtlas.Config

namespace Store

/-- The ways to come by a store: its text is read, with or without a file, and values are set in it.
The tables in a value have their entries in order. -/
inductive Built : Store → Prop where
  | ofText {text : String} {store : Store} (h : Store.ofText text = .ok store) : Built store
  | load {files : FileSystem} {path : Path} {store : Store}
    (h : Store.load files path = .ok store) : Built store
  | set {store : Store} (section_ key : String) {value : Toml.Value} (hvalue : value.IsOrdered) :
    Built store → Built (store.set section_ key value)

theorem exists_of_ofText {text : String} {store : Store} (h : ofText text = .ok store) :
    ∃ table, Toml.documentTable? text = some table ∧ store = { table := table } := by
  unfold ofText at h
  split at h
  · next table htable =>
    cases h
    exact ⟨table, htable, rfl⟩
  · cases h

theorem tableOrdered_of_ofText {text : String} {store : Store} (h : ofText text = .ok store) :
    Toml.TableOrdered store.table := by
  obtain ⟨table, htable, rfl⟩ := exists_of_ofText h
  exact Toml.tableOrdered_documentTable? htable

theorem tableOrdered_of_load {files : FileSystem} {path : Path} {store : Store}
    (h : load files path = .ok store) : Toml.TableOrdered store.table := by
  unfold load at h
  split at h
  · cases h
    trivial
  split at h
  · cases h
  split at h
  · cases h
  · next found hread =>
    cases h
    have hfound : Toml.TableOrdered found.table := tableOrdered_of_ofText hread
    exact hfound

theorem tableOrdered_entries {store : Store} (h : Toml.TableOrdered store.table)
    (section_ : String) : Toml.TableOrdered (store.entries section_) := by
  unfold entries
  split
  · next hfind => exact (Toml.tableOrdered_iff.1 h).2 _ (Assoc.mem_of_find?_eq_some hfind)
  · trivial

/-- **The table of a store is in order at every depth**, however the store has been built. -/
theorem Built.tableOrdered {store : Store} (h : store.Built) : Toml.TableOrdered store.table := by
  induction h with
  | ofText h => exact tableOrdered_of_ofText h
  | load h => exact tableOrdered_of_load h
  | set section_ key hvalue _ ih =>
    exact ih.insert section_ ((tableOrdered_entries ih section_).insert key hvalue)

/-- The text of a store is read back as its table. -/
theorem ofText_documentText {table : Toml.Table} (hplain : Toml.entriesPlain table = true)
    (hordered : Toml.TableOrdered table) :
    ofText (Toml.documentText table) =
      if Toml.IsWithinLimits table then .ok { table := table }
      else .error (.toml grammarProblem) := by
  rw [ofText, Toml.documentTable?_documentText hplain hordered]
  by_cases h : Toml.IsWithinLimits table
  · rw [if_pos h, if_pos h]
  · rw [if_neg h, if_neg h]

/-! ## Saving -/

/-- The file that is written before it takes the place of the saved one. -/
def temporary (path : Path) : Path := path.withExtension temporaryExtension

/-- Makes the directories in which a file is to stand. -/
def prepare (files : FileSystem) (path : Path) : Except FileFault FileSystem :=
  match path.parent? with
  | some parent => files.ensureDirectories parent
  | none => .ok files

/-- Whether a file system accepts the steps of a save: making the directories, writing the temporary
file, and renaming it. -/
def Accepts (files : FileSystem) (path : Path) (content : List UInt8) (after : FileSystem) : Prop :=
  ∃ prepared written, prepare files path = .ok prepared ∧
    prepared.writeBytes (temporary path) content = .ok written ∧
    written.rename (temporary path) path = .ok after

/-- The bytes that a save writes. -/
def content (store : Store) : List UInt8 := Utf8.encode (Toml.documentText store.table)

theorem save_of_accepts {store : Store} {path : Path} (hpath : store.path = some path)
    {files after : FileSystem} (h : Accepts files path store.content after) :
    store.save files = (.ok (), after) := by
  obtain ⟨prepared, written, hprepare, hwrite, hrename⟩ := h
  unfold prepare at hprepare
  unfold temporary at hwrite hrename
  unfold content at hwrite
  unfold save
  rw [hpath]
  cases hparent : path.parent? with
  | none =>
    rw [hparent] at hprepare
    obtain rfl := Except.ok.inj hprepare
    simp only [hparent, hwrite, hrename]
  | some parent =>
    rw [hparent] at hprepare
    simp only [hparent, hprepare, hwrite, hrename]

/-- A file whose text spells a store is loaded as that store. -/
theorem load_of_node {files : FileSystem} {path : Path} {text : String} {executable : Bool}
    (h : files.node path = .ok (.file (Utf8.encode text) executable)) :
    (∀ store, ofText text = .ok store → load files path = .ok { store with path := path }) ∧
      ∀ failure, ofText text = .error failure → load files path = .error (.config
        ("failed to parse config file '" ++ path.display ++ "': " ++ failure.message)) := by
  have hexists : files.pathExists path = true := by
    rw [FileSystem.pathExists, h]
    rfl
  have hbytes : files.readBytes path = .ok (Utf8.encode text) := by
    rw [FileSystem.readBytes, h]
  have hread : files.readText path = .ok text := by
    rw [FileSystem.readText, hbytes, Fallible.bind_eq_ok_iff]
    exact ⟨_, rfl, by rw [Utf8.toString?_encode]⟩
  constructor
  · intro store hstore
    rw [load, hexists, hread]
    simp only [hstore]
    rfl
  · intro failure hfailure
    rw [load, hexists, hread]
    simp only [hfailure]
    rfl

/-- What loading the file of a table's text comes to after a save. -/
theorem load_of_accepts {table : Toml.Table} (hplain : Toml.entriesPlain table = true)
    (hordered : Toml.TableOrdered table) {files after : FileSystem} {path : Path}
    (h : Accepts files path (Utf8.encode (Toml.documentText table)) after) :
    load after path =
      if Toml.IsWithinLimits table then .ok { path := path, table := table }
      else .error (.config ("failed to parse config file '" ++ path.display ++ "': " ++
        (Failure.toml grammarProblem).message)) := by
  obtain ⟨prepared, written, -, hwrite, hrename⟩ := h
  obtain ⟨executable, hnode⟩ := FileSystem.node_of_rename hwrite hrename
  have hload := load_of_node hnode
  have htext := ofText_documentText hplain hordered
  by_cases hlimits : Toml.IsWithinLimits table
  · rw [if_pos hlimits] at htext ⊢
    exact hload.1 _ htext
  · rw [if_neg hlimits] at htext ⊢
    exact hload.2 _ htext

/-! ## Files in the working directory -/

/-- The path of a file in the working directory. -/
def configPath : Path := ⟨[0x63]⟩

/-- A file system with one file. -/
def holding (content : List UInt8) : FileSystem :=
  { tree := .directory [(configPath.bytes, .file content false)] }

theorem temporary_configPath : temporary configPath = ⟨[0x63, 0x2E, 0x74, 0x6D, 0x70]⟩ := by
  decide +kernel

theorem accepts_first (content : List UInt8) :
    Accepts { tree := .directory [] } configPath content (holding content) := by
  rw [Accepts, temporary_configPath]
  let written : FileTree := .directory [([0x63, 0x2E, 0x74, 0x6D, 0x70], .file content false)]
  exact ⟨{ tree := .directory [] }, { tree := written }, rfl, rfl, rfl⟩

theorem accepts_again (old content : List UInt8) :
    Accepts (holding old) configPath content (holding content) := by
  rw [Accepts, temporary_configPath]
  let written : FileTree := .directory
    [([0x63], .file old false), ([0x63, 0x2E, 0x74, 0x6D, 0x70], .file content false)]
  exact ⟨holding old, { tree := written }, rfl, rfl, rfl⟩

/-- A store for a file that does not exist yet, with values of every form: tables and lists of
tables, empty ones among them, and keys and strings that need quotes. -/
def unsaved : Store :=
  (({ path := configPath : Store }.set "analysis" "java" (.string "$JAVA_HOME/\"bin\"")).set
    "analysis" "eager" (.boolean true)).set "" "lists of tables" (.array
      [.table [], .table [("a.b", .array [.integer (-1), .string "\n"]), ("c", .table [])]])

/-- Forty arrays around a table with a key of fifty parts, which is written as fifty tables. -/
def nestedText : String :=
  String.ofList ("k = ".toList ++ List.replicate 40 '[' ++
    '\x7b' :: (List.replicate 49 ['a', '.']).flatten ++ "a = 0".toList ++
    '\x7d' :: List.replicate 40 ']' ++ ['\n'])

/-! ## Loading what has been saved -/

end Store

end JavaAtlas.Config
