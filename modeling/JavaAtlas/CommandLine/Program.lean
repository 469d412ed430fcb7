import JavaAtlas.Catalogue.Builtin
import JavaAtlas.CommandLine.Arguments
import JavaAtlas.Project.Opening
import JavaAtlas.Rpc.Server

set_option autoImplicit false

/-! # The program

The program lists its operations, or serves a project: it reads the settings, opens the project and
answers requests from its input. -/

namespace JavaAtlas.CommandLine

/-- What the program leaves behind: its exit code and what it wrote. -/
structure Result where
  exitCode : Nat := 0
  output : String := ""
  errors : String := ""
deriving DecidableEq, Repr

/-- What the program does after its arguments have been looked at. -/
inductive Action where
  | finish (result : Result)
  | serve (server : Rpc.Server)

/-- The result of a program that fails. -/
def failed (failure : Failure) : Result :=
  { exitCode := 1, errors := "Error: " ++ failure.message ++ "\n" }

/-- The result for arguments that do not fit together. -/
def misused : Result := { exitCode := 2 }

/-! ## Texts -/

/-- The version of the program. -/
def versionText : String := Rpc.serverName ++ " " ++ Rpc.programVersion ++ "\n"

/-- How the program is used. -/
def helpText : String :=
  "Java code analysis exposed as MCP tools\n\n" ++
  "Usage: cocoa <COMMAND>\n\n" ++
  "Commands:\n" ++
  "  toolbox  Serve the analysis tools over MCP on stdio\n" ++
  "  tools    List the registered operations\n" ++
  "  help     Print this message or the help of the given subcommand(s)\n\n" ++
  "Options:\n" ++
  "  -h, --help     Print help\n" ++
  "  -V, --version  Print version\n"

/-- The name of a parameter in a listing, in brackets when it may be left out. -/
def parameterText (p : Parameter) : String := if p.required then p.name else "[" ++ p.name ++ "]"

/-- The lines of an operation in a listing. -/
def descriptorText (d : Descriptor) : String :=
  d.name ++ "(" ++ ", ".intercalate (d.parameters.map parameterText) ++ ")\n  " ++
    d.description ++ "\n"

/-- The listing of the operations. -/
def listingText (registry : Registry) : String :=
  String.join (registry.list.map descriptorText) ++ "\n" ++ toString registry.size ++
    " operations\n"

/-- The listing of the operations as JSON. -/
def listingJson (registry : Registry) : String :=
  (WriteJson.write (registry.list.map Rpc.ToolDefinition.ofDescriptor)).pretty ++ "\n"

/-! ## Serving -/

/-- The surroundings of the program. -/
structure Surroundings where
  environment : Environment
  files : FileSystem
  launcher : Launcher

/-- The settings of the program. -/
def settings (around : Surroundings) (config : Option Path) : Except Failure Config.Settings := do
  let store ← match Config.file? around.environment config with
    | some path => Config.Store.load around.files path
    | none => .ok .empty
  Config.Settings.ofStore store around.environment.get?

/-- The server of a project. -/
def openServer (around : Surroundings) (project : Path) (config : Option Path) :
    Except Failure Rpc.Server := do
  let settings ← settings around config
  let root ← match around.files.canonicalize project with
    | .ok root => .ok root
    | .error fault => .error (.config
        ("cannot open project '" ++ project.display ++ "': " ++ fault.message))
  let registry ← Catalogue.builtin
  let (_, session, files) :=
    Project.openSession around.launcher around.environment settings around.files root
  .ok { registry := registry, session := session, files := files }

/-- What the program does for its arguments. -/
def act (around : Surroundings) (arguments : List String) : Action :=
  match Request.ofArguments arguments with
  | .error _ => .finish misused
  | .ok .help => .finish { output := helpText }
  | .ok .version => .finish { output := versionText }
  | .ok (.tools json) => match Catalogue.builtin with
    | .error failure => .finish (failed failure)
    | .ok registry =>
      .finish { output := if json then listingJson registry else listingText registry }
  | .ok (.toolbox project config) => match openServer around project config with
    | .error failure => .finish (failed failure)
    | .ok server => .serve server

/-- The line of a reply. -/
def replyLine (reply : Rpc.Server.Reply) : String := reply.response.text ++ "\n"

/-- What the program leaves behind for its arguments and its input. -/
def run (around : Surroundings) (arguments : List String) (input : List UInt8) : Result :=
  match act around arguments with
  | .finish result => result
  | .serve server => { output := String.join ((server.serveBytes input).1.map replyLine) }

end JavaAtlas.CommandLine
