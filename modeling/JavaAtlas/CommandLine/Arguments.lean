import JavaAtlas.Path

set_option autoImplicit false

/-! # Command-line arguments

The arguments are a command and its options. An option that takes a value may be given by a letter
or by its name; the value is the next argument, or it is attached to the option. Each option may be
given once. -/

namespace JavaAtlas.CommandLine

/-- What the arguments ask for. -/
inductive Request where
  | help
  | version
  | tools (json : Bool)
  | toolbox (project : Path) (config : Option Path)
deriving DecidableEq, Repr

/-- Arguments that do not fit together. -/
structure UsageError where
deriving DecidableEq, Repr

/-- An option of a command. -/
structure OptionSpec where
  letter : Char
  name : String
  takesValue : Bool
deriving DecidableEq, Repr

/-- What the options of a command say: whether help is asked for, or the options with their values
in order. -/
inductive Given where
  | help
  | options (given : List (OptionSpec × String))
deriving DecidableEq, Repr

namespace Given

/-- Puts an option before the others. -/
def add (spec : OptionSpec) (value : String) : Given → Given
  | help => help
  | options given => options ((spec, value) :: given)

end Given

/-- Adds an option to what the rest of the arguments say. -/
def addOption (spec : OptionSpec) (value : String) (rest : Except UsageError Given) :
    Except UsageError Given :=
  rest.map (Given.add spec value)

/-- The value of a long option that is attached by an equals sign. -/
def splitLong (argument : List Char) : String × Option String :=
  let name := argument.takeWhile (· ≠ '=')
  match argument.drop name.length with
  | [] => (String.ofList name, none)
  | _ :: value => (String.ofList name, some (String.ofList value))

/-- Whether an argument can be the value of the option before it. -/
def isValue (argument : String) : Bool :=
  !argument.isEmpty && (argument = "-" || argument.toList.head? != some '-')

mutual

/-- Reads the letters of an argument that begins with one hyphen. `seen` holds the options that have
been read; `next` are the arguments after it. -/
def readLetters (specs seen : List OptionSpec) : List Char → List String → Except UsageError Given
  | [], next => readOptions specs seen next
  | letter :: attached, next =>
    if letter = 'h' then .ok .help
    else match specs.find? (·.letter = letter) with
      | none => .error {}
      | some spec =>
        if seen.contains spec then .error {}
        else if !spec.takesValue then
          addOption spec "" (readLetters specs (spec :: seen) attached next)
        else match attached with
          | [] => match next with
            | [] => .error {}
            | value :: next =>
              if isValue value then addOption spec value (readOptions specs (spec :: seen) next)
              else .error {}
          | c :: rest =>
            let value := if c = '=' then rest else c :: rest
            if value.isEmpty then .error {}
            else addOption spec (String.ofList value) (readOptions specs (spec :: seen) next)
termination_by letters next => (next.length, 1, letters.length)

/-- Reads the options of a command. -/
def readOptions (specs seen : List OptionSpec) : List String → Except UsageError Given
  | [] => .ok (.options [])
  | argument :: next =>
    match argument.toList with
    | '-' :: '-' :: [] => if next.isEmpty then .ok (.options []) else .error {}
    | '-' :: '-' :: long =>
      let (name, attached) := splitLong long
      if name = "help" ∧ attached = none then .ok .help
      else match specs.find? (·.name = name) with
        | none => .error {}
        | some spec =>
          if seen.contains spec then .error {}
          else match spec.takesValue, attached, next with
            | false, none, next => addOption spec "" (readOptions specs (spec :: seen) next)
            | false, some _, _ => .error {}
            | true, some value, next =>
              if value.isEmpty then .error {}
              else addOption spec value (readOptions specs (spec :: seen) next)
            | true, none, [] => .error {}
            | true, none, value :: next =>
              if isValue value then addOption spec value (readOptions specs (spec :: seen) next)
              else .error {}
    | '-' :: letter :: letters => readLetters specs seen (letter :: letters) next
    | _ => .error {}
termination_by arguments => (arguments.length, 0, 0)

end

/-- The value of an option by its letter. -/
def valueOf? (letter : Char) (given : List (OptionSpec × String)) : Option String :=
  (given.find? (·.1.letter = letter)).map Prod.snd

/-! ## Commands -/

/-- The options of the command that lists the operations. -/
def toolsOptions : List OptionSpec := [⟨'j', "json", false⟩]

/-- The options of the command that serves a project. -/
def toolboxOptions : List OptionSpec := [⟨'p', "project-path", true⟩, ⟨'c', "config", true⟩]

/-- The request to list the operations. -/
def toolsRequest (arguments : List String) : Except UsageError Request := do
  match ← readOptions toolsOptions [] arguments with
  | .help => .ok .help
  | .options given => .ok (.tools (valueOf? 'j' given).isSome)

/-- The request to serve a project, which must be named. -/
def toolboxRequest (arguments : List String) : Except UsageError Request := do
  match ← readOptions toolboxOptions [] arguments with
  | .help => .ok .help
  | .options given => match valueOf? 'p' given with
    | some project => .ok (.toolbox (.ofString project) ((valueOf? 'c' given).map Path.ofString))
    | none => .error {}

/-- The request for help, perhaps on one command. -/
def helpRequest : List String → Except UsageError Request
  | [] => .ok .help
  | [command] => if command ∈ ["tools", "toolbox", "help"] then .ok .help else .error {}
  | _ => .error {}

/-- What the arguments ask for. -/
def Request.ofArguments : List String → Except UsageError Request
  | [] => .error {}
  | "tools" :: rest => toolsRequest rest
  | "toolbox" :: rest => toolboxRequest rest
  | "help" :: rest => helpRequest rest
  | "--help" :: _ => .ok .help
  | "--version" :: _ => .ok .version
  | argument :: _ => match argument.toList with
    | '-' :: 'h' :: _ => .ok .help
    | '-' :: 'V' :: _ => .ok .version
    | _ => .error {}

end JavaAtlas.CommandLine
