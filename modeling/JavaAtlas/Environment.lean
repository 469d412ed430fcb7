import JavaAtlas.Data.Dict
import JavaAtlas.Path

set_option autoImplicit false

/-! # The environment of the program

The variables under which the program runs, and the user's directories, which follow from them. -/

namespace JavaAtlas

/-- What a name stands for, if anything. -/
abbrev Lookup := String → Option String

/-- The variables of the environment, and the user's home directory as the system records it. -/
structure Environment where
  values : Dict String String := .empty
  accountHome : Option Path := none
deriving Inhabited

namespace Environment

/-- The value of a variable. -/
def get? (env : Environment) : Lookup := env.values.get?

/-- The user's home directory: a nonempty `HOME`, or what the system records. -/
def home? (env : Environment) : Option Path :=
  match env.get? "HOME" with
  | some home => if home = "" then env.accountHome else some (.ofString home)
  | none => env.accountHome

/-- The directory that a variable names by an absolute path, or a directory in the user's home. -/
def userDirectory? (env : Environment) (variableName inHome : String) : Option Path :=
  let named := (env.get? variableName).map Path.ofString
  match named.filter Path.isAbsolute with
  | some directory => some directory
  | none => env.home?.map fun home => home.push inHome

/-- The user's directory for configuration files. -/
def configDirectory? (env : Environment) : Option Path :=
  env.userDirectory? "XDG_CONFIG_HOME" ".config"

/-- The user's directory for files that can be made again. -/
def cacheDirectory? (env : Environment) : Option Path :=
  env.userDirectory? "XDG_CACHE_HOME" ".cache"

end Environment

end JavaAtlas
