import JavaAtlas.Environment
import JavaAtlas.File.Launch
import JavaAtlas.Shell.Command
import JavaAtlas.Shell.Printf

set_option autoImplicit false

/-! # Running shell scripts

Scripts are run command by command on a file system. The commands are the few with which a script
writes files, reports problems and ends. -/

namespace JavaAtlas.Shell

/-- What a running script is: its path and arguments, the variables, and what it has done. -/
structure Execution where
  script : Path
  arguments : List Path
  lookup : Lookup
  files : FileSystem
  errors : List UInt8 := []
  status : Nat := 0
  ended : Option ExitStatus := none

namespace Execution

/-- The number by which a script is known to itself. -/
def number : String := "4242"

/-- The bytes of a string. -/
def bytes (s : String) : List UInt8 := Utf8.encode s

/-- The values of a parameter. -/
def values (p : Execution) (name : String) : List (List UInt8) :=
  if name = "@" ∨ name = "*" then p.arguments.map Path.bytes
  else if name = "#" then [bytes (toString p.arguments.length)]
  else if name = "$" then [bytes number]
  else if name = "?" then [bytes (toString p.status)]
  else match name.toNat? with
    | some 0 => [p.script.bytes]
    | some n => [((p.arguments[n - 1]?).map Path.bytes).getD []]
    | none => [bytes ((p.lookup name).getD "")]

/-- The arguments that a word becomes: as many as there are arguments of the script when the word
stands for all of them, else one. -/
def expandWord (p : Execution) (word : List Piece) : List (List UInt8) :=
  match word with
  | [.parameter name] => p.values name
  | pieces => [pieces.flatMap fun piece => match piece with
    | .text c => bytes (String.singleton c)
    | .parameter name => [0x20].intercalate (p.values name)]

/-- Reports a problem on the error channel. -/
def complain (p : Execution) (line : Nat) (text : String) : Execution :=
  { p with errors :=
      p.errors ++ p.script.bytes ++ bytes (": " ++ toString line ++ ": " ++ text ++ "\n") }

/-! ## Output -/

/-- Where output goes. -/
inductive Sink where
  | nowhere
  | errors
  | file (path : Path)

/-- The sinks of the two output channels. -/
structure Sinks where
  output : Sink := .nowhere
  errors : Sink := .errors

/-- The sink of a channel. -/
def Sinks.get (sinks : Sinks) (channel : Nat) : Sink :=
  if channel = 2 then sinks.errors else sinks.output

/-- Changes the sink of a channel. -/
def Sinks.set (sinks : Sinks) (channel : Nat) (sink : Sink) : Sinks :=
  if channel = 2 then { sinks with errors := sink } else { sinks with output := sink }

/-- The file that swallows whatever is written to it. -/
def nullFile : Path := .ofString "/dev/null"

/-- Writes bytes to a sink. -/
def write (p : Execution) (content : List UInt8) : Sink → Execution
  | .nowhere => p
  | .errors => { p with errors := p.errors ++ content }
  | .file path =>
    let before := match p.files.readBytes path with
      | .ok before => before
      | .error _ => []
    match p.files.writeBytes path (before ++ content) with
    | .ok files => { p with files := files }
    | .error _ => p

/-- Sets up the sinks of a command; none when a file cannot be opened. -/
def redirect (line : Nat) :
    List Redirection → Execution × Sinks → Execution × Option Sinks
  | [], (p, sinks) => (p, some sinks)
  | .copy channel target :: rest, (p, sinks) =>
    redirect line rest (p, sinks.set channel (sinks.get target))
  | .file channel append target :: rest, (p, sinks) =>
    let path : Path := ⟨(p.expandWord target).headD []⟩
    if path = nullFile then redirect line rest (p, sinks.set channel .nowhere)
    else
      let before := if append then (p.files.readBytes path).toOption.getD [] else []
      match p.files.writeBytes path before with
      | .ok files => redirect line rest ({ p with files := files }, sinks.set channel (.file path))
      | .error fault =>
        let reason := if fault = .isDirectory then "Is a directory" else "Directory nonexistent"
        ({ p.complain line ("cannot create " ++ path.display ++ ": " ++ reason) with status := 2 },
          none)

/-! ## Commands -/

/-- Ends the script. -/
def finish (p : Execution) (status : ExitStatus) : Execution := { p with ended := some status }

/-- The number of a signal that is given by its number or its name. -/
def signal? (text : String) : Option Nat :=
  match text.toNat? with
  | some n => some n
  | none => (ExitStatus.signalNames.find? fun (_, name) =>
      name = text || name = "SIG" ++ text).map Prod.fst

/-- Carries a command out. -/
def perform (p : Execution) (line : Nat) (sinks : Sinks) (words : List (List UInt8)) : Execution :=
  let texts := words.map Utf8.toStringLenient
  let succeed (p : Execution) := { p with status := 0 }
  match texts with
  | [] | ":" :: _ | "true" :: _ | "sleep" :: _ => succeed p
  | "false" :: _ => { p with status := 1 }
  | "echo" :: "-n" :: rest =>
    succeed (p.write (unescape (" ".intercalate rest).toList) sinks.output)
  | "echo" :: rest =>
    succeed (p.write (unescape (" ".intercalate rest).toList ++ [10]) sinks.output)
  | "printf" :: format :: _ =>
    succeed (p.write (formatted format (words.drop 2)) sinks.output)
  | ["exit"] => p.finish (.exited p.status)
  | "exit" :: code :: _ => p.finish (.exited ((code.toNat?.getD 2) % 256))
  | ["kill", target] => if target = number then p.finish (.signaled 15) else { p with status := 1 }
  | ["kill", option, target] =>
    match signal? (String.ofList (option.toList.drop 1)) with
    | some n => if target = number then p.finish (.signaled n) else { p with status := 1 }
    | none => { p with status := 1 }
  | ["kill", "-s", name, target] =>
    match signal? name with
    | some n => if target = number then p.finish (.signaled n) else { p with status := 1 }
    | none => { p with status := 1 }
  | ["cat", _] =>
    match p.files.readBytes ⟨words.getLastD []⟩ with
    | .ok content => succeed (p.write content sinks.output)
    | .error fault =>
      let reason := if fault = .isDirectory then "Is a directory" else "No such file or directory"
      { p.write (bytes ("cat: " ++ texts.getLastD "" ++ ": " ++ reason ++ "\n")) sinks.errors with
        status := 1 }
  | ["cp", _, _] =>
    match p.files.readBytes ⟨words.getD 1 []⟩ with
    | .ok content => match p.files.writeBytes ⟨words.getD 2 []⟩ content with
      | .ok files => succeed { p with files := files }
      | .error _ => { p with status := 1 }
    | .error _ =>
      { p.write (bytes ("cp: cannot stat '" ++ texts.getD 1 "" ++
          "': No such file or directory\n")) sinks.errors with status := 1 }
  | ["mkdir", "-p", _] =>
    match p.files.ensureDirectories ⟨words.getD 2 []⟩ with
    | .ok files => succeed { p with files := files }
    | .error _ => { p with status := 1 }
  | name :: _ => { p.complain line (name ++ ": not found") with status := 127 }

/-- Runs a command, if its link to the one before says so. -/
def step (p : Execution) (command : Command) : Execution :=
  let due := match command.link with
    | .always => true
    | .ifSuccess => p.status == 0
    | .ifFailure => p.status != 0
  if p.ended.isSome || !due then p
  else match redirect command.line command.redirections (p, {}) with
    | (p, none) => p
    | (p, some sinks) =>
      p.perform command.line sinks (command.words.flatMap p.expandWord)

end Execution

/-! ## Launching -/

/-- The shells that a script may ask for. -/
def shells : List String :=
  ["/bin/sh", "/bin/dash", "/bin/bash", "/usr/bin/sh", "/usr/bin/dash", "/usr/bin/bash",
    "/usr/bin/env"]

/-- Whether a byte is a blank on a line. -/
def isBlankByte (b : UInt8) : Bool := b == 0x20 || b == 0x09

/-- The program that a script asks for on its first line, after a number sign and an exclamation
mark; `none` when the file is no script. -/
def interpreter? : List UInt8 → Option (List UInt8)
  | 0x23 :: 0x21 :: rest =>
    let line := (rest.takeWhile (· != 0x0A)).dropWhile isBlankByte
    let name := line.takeWhile fun b => !isBlankByte b
    if name.isEmpty then none else some name
  | _ => none

/-- Runs the script in a file system. -/
def runScript (lookup : Lookup) (files : FileSystem) (script : Path) (content : List UInt8)
    (arguments : List Path) : Outcome :=
  let start : Execution :=
    { script := script, arguments := arguments, lookup := lookup, files := files }
  let final := (commandsOf (Utf8.toStringLenient content)).foldl Execution.step start
  ⟨final.ended.getD (.exited final.status), final.errors, final.files⟩

/-- The launcher that runs the scripts of a file system. A program is named by its path: nothing is
searched for. -/
def launcher (lookup : Lookup) : Launcher where
  launch files program arguments :=
    if !program.bytes.contains Path.separator then .error .notFound
    else match files.node program with
      | .error fault => .error fault
      | .ok (.directory _) => .error .permissionDenied
      | .ok (.file _ false) => .error .permissionDenied
      | .ok (.file content true) =>
        match interpreter? content with
        | none => .error .badExecutable
        | some name =>
          if (shells.map Utf8.encode).contains name then
            .ok (runScript lookup files program content arguments)
          else .error .notFound

end JavaAtlas.Shell
