import JavaAtlas.Wire.Encode

set_option autoImplicit false

/-! # Failures

Everything that can go wrong between a request and its answer, with the text that a client reads and
the stable kind on which a client can branch. -/

namespace JavaAtlas

/-- What went wrong. -/
inductive Failure where
  | duplicateName (name : String)
  | unknownOperation (name : String)
  | invalidArguments (operation problem : String)
  | contextNotReady (detail : String)
  | contextClosed
  | analysis (problem : String)
  | encoding (error : EncodeError)
  | config (problem : String)
  | file (problem : String)
  | json (problem : String)
  | toml (problem : String)
deriving DecidableEq, Repr

/-- The kind of a failure, as clients see it. -/
inductive FailureKind where
  | duplicateName
  | unknownOperation
  | invalidArguments
  | contextNotReady
  | contextClosed
  | analysis
  | encoding
  | keyCollision
  | internal
deriving DecidableEq, Repr

namespace FailureKind

/-- The name of the kind. -/
def name : FailureKind → String
  | duplicateName => "DuplicateNameError"
  | unknownOperation => "UnknownOperationError"
  | invalidArguments => "InvalidArgumentsError"
  | contextNotReady => "ContextNotReadyError"
  | contextClosed => "ContextClosedError"
  | analysis => "AnalysisError"
  | encoding => "EncodingError"
  | keyCollision => "KeyCollisionError"
  | internal => "InternalError"

end FailureKind

namespace Failure

/-- The text of the failure. -/
def message : Failure → String
  | duplicateName name => "operation '" ++ name ++ "' is already registered"
  | unknownOperation name => "unknown operation: " ++ name
  | invalidArguments operation problem =>
    "invalid arguments for '" ++ operation ++ "': " ++ problem
  | contextNotReady detail => "analysis context is not ready: " ++ detail
  | contextClosed => "analysis context is closed"
  | analysis problem => "analysis error: " ++ problem
  | encoding error => "encoding error: " ++ error.message
  | config problem => "config error: " ++ problem
  | file problem => "io error: " ++ problem
  | json problem => "json error: " ++ problem
  | toml problem => "toml error: " ++ problem

/-- The kind of the failure. -/
def kind : Failure → FailureKind
  | duplicateName _ => .duplicateName
  | unknownOperation _ => .unknownOperation
  | invalidArguments _ _ => .invalidArguments
  | contextNotReady _ => .contextNotReady
  | contextClosed => .contextClosed
  | analysis _ => .analysis
  | encoding (.keyCollision _) => .keyCollision
  | encoding (.unencodable _) => .encoding
  | config _ | file _ | json _ | toml _ => .internal

end Failure

end JavaAtlas
