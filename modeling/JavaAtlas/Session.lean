import JavaAtlas.Atlas.Basic
import JavaAtlas.Text.Quoted

set_option autoImplicit false

/-! # The life cycle of a session

A session is bound to one project. Its atlas is drawn at most once: the session leaves its first
state when drawing begins, becomes ready or failed when drawing ends, and may be closed at any time,
after which nothing revives it. State, atlas and failure text are three cells that are written one
after the other, so the steps between two writes are functions of their own; `complete` runs them
in order. -/

namespace JavaAtlas

/-- The state of a session. -/
inductive SessionState where
  | uninitialized
  | initializing
  | ready
  | failed
  | closed
deriving DecidableEq, Repr

namespace SessionState

/-- The name of the state. -/
def name : SessionState → String
  | uninitialized => "uninitialized"
  | initializing => "initializing"
  | ready => "ready"
  | failed => "failed"
  | closed => "closed"

/-- The name of the state in diagnostics. -/
def label : SessionState → String
  | uninitialized => "Uninitialized"
  | initializing => "Initializing"
  | ready => "Ready"
  | failed => "Failed"
  | closed => "Closed"

/-- Whether the session can no longer become ready from here. -/
def isSettled : SessionState → Bool
  | ready | failed | closed => true
  | uninitialized | initializing => false

end SessionState

/-- A session: its project, its state, the atlas once it has been drawn, and the text of the failure
if drawing failed. -/
structure Session where
  root : Path
  state : SessionState := .uninitialized
  atlas : Option Atlas := none
  failure : Option String := none

namespace Session

/-- A session that has not started. -/
def new (root : Path) : Session := { root := root }

/-! ## Steps -/

/-- Moves from one state to another; the answer says whether the session was in the first one. -/
def move (session : Session) (source target : SessionState) : Bool × Session :=
  if session.state = source then (true, { session with state := target }) else (false, session)

/-- Stores the atlas, unless one is stored already. -/
def storeAtlas (session : Session) (atlas : Atlas) : Session :=
  { session with atlas := session.atlas.or (some atlas) }

/-- Stores the text of the failure, unless one is stored already. -/
def storeFailure (session : Session) (text : String) : Session :=
  { session with failure := session.failure.or (some text) }

/-- Closes the session. -/
def close (session : Session) : Session := { session with state := .closed }

/-- The failure that says why the session has no atlas to offer in its state. -/
def notReady (session : Session) : Failure :=
  match session.state with
  | .closed => .contextClosed
  | .uninitialized => .contextNotReady "session has not started"
  | .initializing => .contextNotReady "analysis is still initializing"
  | .ready => .contextNotReady "model missing"
  | .failed =>
    .contextNotReady ("initialization failed: " ++ session.failure.getD "unknown error")

/-- The atlas of a ready session. -/
def current (session : Session) : Except Failure Atlas :=
  match session.state, session.atlas with
  | .ready, some atlas => .ok atlas
  | _, _ => .error session.notReady

/-! ## Initialization -/

/-- Begins to draw the atlas: `none` when drawing has begun before or the session is closed. -/
def begin (session : Session) : Option Session :=
  match session.move .uninitialized .initializing with
  | (true, session) => some session
  | (false, _) => none

/-- Ends drawing with its outcome: the outcome is stored, and the session moves on if it is still
waiting for it. -/
def complete (session : Session) : Except Failure Atlas → Session
  | .ok atlas => ((session.storeAtlas atlas).move .initializing .ready).2
  | .error failure => ((session.storeFailure failure.message).move .initializing .failed).2

/-- What the caller that drew the atlas is told. -/
def report (session : Session) : Except Failure Atlas → Except Failure Unit
  | .ok _ => session.current.map fun _ => ()
  | .error failure => .error failure

/-- Draws the atlas if that has not been tried before, and tells whether there is one. -/
def start (session : Session) (draw : Path → Except Failure Atlas) :
    Except Failure Unit × Session :=
  match session.begin with
  | none => (session.current.map fun _ => (), session)
  | some session =>
    let outcome := draw session.root
    let session := session.complete outcome
    (session.report outcome, session)

/-- The session in diagnostics. -/
def describe (session : Session) : String :=
  "AnalysisContext \x7b project_root: " ++ Text.quotePath session.root.display ++ ", state: " ++
    session.state.label ++ " \x7d"

end Session

end JavaAtlas
