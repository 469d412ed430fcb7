import JavaAtlas.File.System

set_option autoImplicit false

/-! # Launching programs

How a program is run lies outside the library: a `Launcher` takes the program and its arguments and
answers with the outcome and the file system that the program leaves behind. -/

namespace JavaAtlas

/-- How a program ended. -/
inductive ExitStatus where
  | exited (code : Nat)
  | signaled (number : Nat)
deriving DecidableEq, Repr

namespace ExitStatus

/-- Whether the program ended well. -/
def isSuccess : ExitStatus → Bool
  | exited code => code == 0
  | signaled _ => false

/-- The names of signals. -/
def signalNames : List (Nat × String) := [
  (1, "SIGHUP"), (2, "SIGINT"), (3, "SIGQUIT"), (4, "SIGILL"), (5, "SIGTRAP"), (6, "SIGABRT"),
  (7, "SIGBUS"), (8, "SIGFPE"), (9, "SIGKILL"), (10, "SIGUSR1"), (11, "SIGSEGV"), (12, "SIGUSR2"),
  (13, "SIGPIPE"), (14, "SIGALRM"), (15, "SIGTERM"), (16, "SIGSTKFLT"), (17, "SIGCHLD"),
  (18, "SIGCONT"), (19, "SIGSTOP"), (20, "SIGTSTP"), (21, "SIGTTIN"), (22, "SIGTTOU"),
  (23, "SIGURG"), (24, "SIGXCPU"), (25, "SIGXFSZ"), (26, "SIGVTALRM"), (27, "SIGPROF"),
  (28, "SIGWINCH"), (29, "SIGIO"), (30, "SIGPWR"), (31, "SIGSYS")]

/-- The text of the status. -/
def message : ExitStatus → String
  | exited code => "exit status: " ++ toString code
  | signaled number => match Assoc.find? number signalNames with
    | some name => "signal: " ++ toString number ++ " (" ++ name ++ ")"
    | none => "signal: " ++ toString number

end ExitStatus

/-- What a program that ran leaves behind. -/
structure Outcome where
  status : ExitStatus
  /-- What the program wrote to its error channel. -/
  errors : List UInt8
  files : FileSystem

/-- A way to run programs. -/
structure Launcher where
  launch : FileSystem → Path → List Path → Except FileFault Outcome

namespace Launcher

/-- The launcher that finds no program. -/
def none : Launcher := ⟨fun _ _ _ => .error .notFound⟩

end Launcher

end JavaAtlas
