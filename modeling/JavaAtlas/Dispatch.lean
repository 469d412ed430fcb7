import JavaAtlas.Operation.Registry
import JavaAtlas.Session

set_option autoImplicit false

/-! # Invoking operations

An invocation resolves the operation, checks the arguments, takes the atlas from the session, runs
the operation and encodes its answer, and fails at the first of these steps that fails. -/

namespace JavaAtlas

/-- Runs a checked invocation on an atlas and encodes its answer. -/
def Operation.run (operation : Operation) (atlas : Atlas) (files : FileSystem)
    (arguments : Arguments) : Except Failure Json :=
  match operation.action atlas files arguments with
  | .error failure => .error failure
  | .ok (.error error) => .error (.encoding error)
  | .ok (.ok value) => .ok value

/-- Runs one invocation to its end. -/
def Registry.invoke (registry : Registry) (session : Session) (files : FileSystem) (name : String)
    (raw : List (String × Json)) : Except Failure Json := do
  let operation ← registry.resolve name
  let arguments ← Arguments.validate operation.descriptor raw
  let atlas ← session.current
  operation.run atlas files arguments

end JavaAtlas
