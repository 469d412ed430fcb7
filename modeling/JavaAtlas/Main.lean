import JavaAtlas.CommandLine.Program
import JavaAtlas.Shell.Run

set_option autoImplicit false

/-! # The entry of the program

The outer layer: it takes a picture of the files that a run may look at, hands the arguments to
`CommandLine.act`, and passes lines between the channels and the server. -/

namespace JavaAtlas.Entry

/-- The variables of the environment, which the system lists with a zero byte after each. -/
def readEnvironment : IO Environment := do
  let bytes ← try IO.FS.readBinFile "/proc/self/environ" catch _ => pure ByteArray.empty
  let text := Utf8.toStringLenient bytes.toList
  let values := (text.splitOn "\x00").filterMap fun entry =>
    match entry.splitOn "=" with
    | name :: value => if name.isEmpty then none else some (name, "=".intercalate value)
    | [] => none
  return { values := .ofList values }

/-- The tree of what a path names, if it names anything. Links to directories below the path are
left out, and `depth` bounds the nesting. Every file counts as a program that may be started. -/
def readTree : Nat → String → IO (Option FileTree)
  | 0, _ => return none
  | depth + 1, path => do
    try
      let directory ← IO.FS.realPath path
      let mut entries := []
      for entry in ← directory.readDir do
        let metadata ← entry.path.symlinkMetadata
        unless metadata.type == .symlink && (← entry.path.isDir) do
          if let some tree ← readTree depth (path ++ "/" ++ entry.fileName) then
            entries := (Utf8.encode entry.fileName, tree) :: entries
      return some (.directory entries)
    catch _ =>
      try
        let bytes ← IO.FS.readBinFile path
        return some (.file bytes.toList true)
      catch _ => return none

/-- Writes the files and directories of a tree that are not as they were before. -/
partial def writeTree (path : String) (before : Option FileTree) : FileTree → IO Unit
  | .file content _ => do
    unless (before.bind FileTree.content?) == some content do
      IO.FS.writeBinFile path ⟨content.toArray⟩
  | .directory entries => do
    unless (before.map FileTree.isDirectory) == some true do
      IO.FS.createDirAll path
    for (name, tree) in entries do
      writeTree (path ++ "/" ++ Utf8.toStringLenient name) (before.bind (FileTree.child? name)) tree

/-- Puts a tree at an address, making the directories on the way. -/
def graft (tree : FileTree) : List FileName → FileTree → FileTree
  | [], _ => tree
  | name :: names, .directory entries =>
    let child := (Assoc.find? name entries).getD (.directory [])
    .directory (Assoc.insert name (graft tree names child) entries)
  | _ :: _, file => file

/-- The names on the way to an absolute path. -/
def addressOf (path : Path) : List FileName :=
  path.components.filterMap fun component => match component with
    | .name bytes => some bytes
    | _ => none

/-- Adds what a path names to a picture of the files. -/
def addPath (files : FileSystem) (path : Path) : IO FileSystem := do
  let path := (FileSystem.addressPath files.working).join path
  match ← readTree 64 path.display with
  | some tree => return { files with tree := graft tree (addressOf path) files.tree }
  | none => return files

/-- Adds what the arguments and the settings name to a picture of the files. -/
def addNamed (environment : Environment) (files : FileSystem) (arguments : List String) :
    IO FileSystem := do
  let .ok (.toolbox project config) := CommandLine.Request.ofArguments arguments | return files
  let mut files ← addPath files project
  if let some path := Config.file? environment config then
    files ← addPath files path
  if let .ok settings := CommandLine.settings ⟨environment, files, .none⟩ config then
    let root := ((FileSystem.addressPath files.working).join project)
    let named := [settings.analysisJson, settings.analyzerJar,
      some (settings.outputFor environment root), some (.ofString settings.java)]
    for path in named.filterMap id do
      files ← addPath files path
  return files

/-- Answers the lines of the input until it ends. -/
partial def serveLines (input output : IO.FS.Stream) (server : Rpc.Server) : IO Unit := do
  let line ← input.getLine
  unless line.isEmpty do
    let (reply, server) := server.handleLine line
    if let some reply := reply then
      output.putStr (CommandLine.replyLine reply)
      output.flush
    serveLines input output server

end JavaAtlas.Entry

open JavaAtlas in
/-- Runs the program. -/
def main (arguments : List String) : IO UInt32 := do
  let environment ← Entry.readEnvironment
  let working := Entry.addressOf (.ofString (← IO.currentDir).toString)
  let files ← Entry.addPath ⟨Entry.graft (.directory []) working (.directory []), working⟩ ⟨[]⟩
  let files ← Entry.addNamed environment files arguments
  let around : CommandLine.Surroundings := ⟨environment, files, Shell.launcher environment.get?⟩
  match CommandLine.act around arguments with
  | .finish result => do
    (← IO.getStdout).putStr result.output
    (← IO.getStderr).putStr result.errors
    return UInt32.ofNat result.exitCode
  | .serve server => do
    Entry.writeTree "" (some files.tree) server.files.tree
    Entry.serveLines (← IO.getStdin) (← IO.getStdout) server
    return 0
