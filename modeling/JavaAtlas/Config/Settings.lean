import JavaAtlas.Config.Store
import JavaAtlas.Digest.Sha256
import JavaAtlas.Glob

set_option autoImplicit false

/-! # Settings

The settings of the program are the keys of one section of the configuration store. Where a key is
missing its default stands. -/

namespace JavaAtlas.Config

/-- The patterns of the paths that hold no sources of the project itself. -/
def defaultExclude : List String :=
  ["target/**", "build/**", "out/**", ".git/**", ".gradle/**", "node_modules/**"]

/-- The settings of the program. -/
structure Settings where
  /-- Output of the analyzer that is to be read, whatever else there is. -/
  analysisJson : Option Path := none
  /-- The analyzer, which makes that output when there is none. -/
  analyzerJar : Option Path := none
  /-- The program that runs the analyzer. -/
  java : String := "java"
  /-- How deep the analyzer is to go: 1 or 2. -/
  analysisLevel : Nat := 2
  /-- The directory that the analyzer writes to. -/
  outputDirectory : Option Path := none
  /-- Patterns of paths that do not count as sources. -/
  exclude : List String := defaultExclude
  /-- Whether the analyzer runs even where there is earlier output. -/
  eager : Bool := false
deriving Inhabited

namespace Settings

/-! ## Reading -/

/-- The section of the settings. -/
def sectionName : String := "analysis"

/-- A setting that must be true or false. -/
def readFlag (default : Bool) : Option Toml.Value → Except Failure Bool
  | none => .ok default
  | some (.boolean b) => .ok b
  | some value => .error (.config ("analysis.eager must be a boolean, got " ++ value.text))

/-- A setting that must be 1 or 2. -/
def readLevel (default : Nat) : Option Toml.Value → Except Failure Nat
  | none => .ok default
  | some (.integer n) =>
    if n = 1 then .ok 1
    else if n = 2 then .ok 2
    else .error (.config
      ("analysis.analysis_level must be 1 or 2, got " ++ (Toml.Value.integer n).text))
  | some value =>
    .error (.config ("analysis.analysis_level must be 1 or 2, got " ++ value.text))

/-- A setting that must be a list of strings. -/
def readTexts (default : List String) : Option Toml.Value → Except Failure (List String)
  | none => .ok default
  | some (.array items) => match items.mapM Toml.Value.asString? with
    | some texts => .ok texts
    | none => .error (.config "analysis.exclude must be a list of strings")
  | some _ => .error (.config "analysis.exclude must be a list of strings")

/-- The settings of a store. -/
def ofStore (store : Store) (lookup : Lookup) : Except Failure Settings := do
  let get := store.get? lookup sectionName
  let text := store.text? lookup sectionName
  let default : Settings := {}
  let eager ← readFlag default.eager (get "eager")
  let level ← readLevel default.analysisLevel (get "analysis_level")
  let exclude ← readTexts default.exclude (get "exclude")
  .ok {
    analysisJson := (text "analysis_json").map Path.ofString
    analyzerJar := (text "codeanalyzer_jar").map Path.ofString
    java := (text "java").getD default.java
    analysisLevel := level
    outputDirectory := (text "output_dir").map Path.ofString
    exclude := exclude
    eager := eager }

/-! ## Using -/

/-- Whether a path, seen from the project, does not count as a source. A pattern that is not well
formed excludes nothing. -/
def isExcluded (settings : Settings) (path : String) : Bool :=
  settings.exclude.any fun pattern => match Glob.ofString? pattern with
    | some glob => glob.admits path
    | none => false

/-- The name under which files of a project are kept: the first 16 digits of the digest of its
path. -/
def fingerprint (project : Path) : String :=
  Sha256.hexDigits ((Sha256.digest (Utf8.encode project.display)).take 8)

/-- The directory that the analyzer writes to for a project: as it is set, or a directory of the
project's own in the user's cache, or a hidden directory in the project. -/
def outputFor (settings : Settings) (env : Environment) (project : Path) : Path :=
  match settings.outputDirectory with
  | some directory => directory
  | none => match env.cacheDirectory? with
    | some cache => (cache.push "cocoa").push (fingerprint project)
    | none => project.push ".cocoa"

end Settings

/-- The file of the configuration: one that is named explicitly, one that the environment names, or
the user's own. -/
def file? (env : Environment) (explicit : Option Path) : Option Path :=
  match explicit with
  | some path => some path
  | none =>
    match (env.get? "COCOA_CONFIG").filter (· ≠ "") with
    | some path => some (.ofString path)
    | none => env.configDirectory?.map fun directory =>
      (directory.push "cocoa").push "config.toml"

end JavaAtlas.Config
