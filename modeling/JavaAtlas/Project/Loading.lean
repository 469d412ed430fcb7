import JavaAtlas.Atlas.Basic
import JavaAtlas.File.Launch
import JavaAtlas.Json.Reading
import JavaAtlas.Project.Sources
import JavaAtlas.Text.Blank

set_option autoImplicit false

/-! # Loading the analyzer's output

The output of the analyzer is read from where the settings say it is; else, unless it has to be made
anew, from the project or from the output directory; else the analyzer is run. A project without
sources needs no analyzer: its report is empty. -/

namespace JavaAtlas.Project

/-- The name of the file that the analyzer writes. -/
def outputName : String := "analysis.json"

/-- Why there is no report. -/
inductive LoadFault where
  | notDirectory (project : Path)
  | missingOutput (path : Path)
  | unreadable (path : Path) (fault : FileFault)
  | malformed (path : Path) (error : Json.ReadError)
  | missingAnalyzer (jar : Path)
  | outputDirectory (fault : FileFault)
  | notLaunched (java : String) (fault : FileFault)
  | analyzerFailed (status : ExitStatus) (errors : String)
  | nothingWritten (path : Path)
  | noAnalyzer (sources : Nat) (project : Path)

namespace LoadFault

/-- The text of the fault. -/
def message : LoadFault → String
  | notDirectory project => "project path '" ++ project.display ++ "' is not a directory"
  | missingOutput path => "configured analysis output '" ++ path.display ++ "' does not exist"
  | unreadable path fault => "failed to read '" ++ path.display ++ "': " ++ fault.message
  | malformed path error => "failed to parse '" ++ path.display ++ "': " ++ error.message
  | missingAnalyzer jar => "analyzer jar '" ++ jar.display ++ "' does not exist"
  | outputDirectory fault => fault.message
  | notLaunched java fault => "failed to launch '" ++ java ++ "': " ++ fault.message
  | analyzerFailed status errors => "analyzer exited with " ++ status.message ++ ": " ++ errors
  | nothingWritten path => "analyzer finished but '" ++ path.display ++ "' was not written"
  | noAnalyzer sources project =>
    "found " ++ toString sources ++ " Java source file(s) in '" ++ project.display ++
      "' but no " ++ outputName ++ " and no analyzer configured " ++
      "(set analysis.codeanalyzer_jar or analysis.analysis_json)"

/-- The fault as a failure of the program. -/
def toFailure : LoadFault → Failure
  | outputDirectory fault => .file fault.message
  | fault => .analysis fault.message

end LoadFault

/-! ## Existing output -/

/-- The report in a file. -/
def readReport (files : FileSystem) (path : Path) : Except LoadFault Report :=
  match files.readText path with
  | .error fault => .error (.unreadable path fault)
  | .ok text => match Json.readText text with
    | .ok report => .ok report
    | .error error => .error (.malformed path error)

/-- The places where earlier output may be, in the order in which they are tried. -/
def outputPlaces (project output : Path) : List Path :=
  [project.push outputName, output.push outputName]

/-- The first of some paths that names a file. -/
def firstFile? (files : FileSystem) (paths : List Path) : Option Path :=
  paths.find? files.isFile

/-! ## Running the analyzer -/

/-- The arguments with which the analyzer is run. -/
def analyzerArguments (settings : Config.Settings) (jar project output : Path) : List Path :=
  [.ofString "-jar", jar, .ofString "--input", project, .ofString "--output", output,
    .ofString "--analysis-level", .ofString (toString settings.analysisLevel)]

/-- Runs the analyzer; answers with the path of its output, and the file system that it leaves. -/
def runAnalyzer (launcher : Launcher) (settings : Config.Settings) (files : FileSystem)
    (jar project output : Path) : Except LoadFault Path × FileSystem :=
  if !files.isFile jar then (.error (.missingAnalyzer jar), files)
  else match files.ensureDirectories output with
    | .error fault => (.error (.outputDirectory fault), files)
    | .ok files =>
      let arguments := analyzerArguments settings jar project output
      match launcher.launch files (.ofString settings.java) arguments with
      | .error fault => (.error (.notLaunched settings.java fault), files)
      | .ok outcome =>
        let path := output.push outputName
        if !outcome.status.isSuccess then
          (.error (.analyzerFailed outcome.status
            (Text.trim (Utf8.toStringLenient outcome.errors))), outcome.files)
        else if !outcome.files.isFile path then (.error (.nothingWritten path), outcome.files)
        else (.ok path, outcome.files)

/-! ## The report of a project -/

/-- The report of a project that has no output yet. -/
def makeReport (launcher : Launcher) (settings : Config.Settings) (files : FileSystem)
    (project output : Path) : Except LoadFault Report × FileSystem :=
  match settings.analyzerJar with
  | some jar =>
    match runAnalyzer launcher settings files jar project output with
    | (.ok path, files) => (readReport files path, files)
    | (.error fault, files) => (.error fault, files)
  | none =>
    let sources := countSources settings files project
    (if sources = 0 then .ok {} else .error (.noAnalyzer sources project), files)

/-- The report of a project, and the file system as loading it leaves it. -/
def loadReport (launcher : Launcher) (env : Environment) (settings : Config.Settings)
    (files : FileSystem) (project : Path) : Except LoadFault Report × FileSystem :=
  if !files.isDirectory project then (.error (.notDirectory project), files)
  else match settings.analysisJson with
    | some path =>
      if files.isFile path then (readReport files path, files)
      else (.error (.missingOutput path), files)
    | none =>
      let output := settings.outputFor env project
      let existing :=
        if settings.eager then none else firstFile? files (outputPlaces project output)
      match existing with
      | some path => (readReport files path, files)
      | none => makeReport launcher settings files project output

/-- The atlas of a project, and the file system as drawing it leaves it. -/
def drawAtlas (launcher : Launcher) (env : Environment) (settings : Config.Settings)
    (files : FileSystem) (project : Path) : Except Failure Atlas × FileSystem :=
  match loadReport launcher env settings files project with
  | (.ok report, files) => (.ok (Atlas.ofReport project report), files)
  | (.error fault, files) => (.error fault.toFailure, files)

end JavaAtlas.Project
