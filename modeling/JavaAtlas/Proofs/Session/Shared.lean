import Mathlib.Data.List.Induction
import JavaAtlas.Session

set_option autoImplicit false

/-! # Sessions with many callers

Any number of callers share one session. Each runs one call, which is a few steps that read or write
one cell of the session; the steps of different callers follow one another in any order. What a
caller knows between two steps is its position. The steps of `start` are those of `Session.start`
taken apart: a caller that nobody disturbs is told what `Session.start` answers and leaves the
session that it leaves (`exists_run_start`).

A caller that makes several calls appears as several callers, and one that gives up takes no further
step, so both are covered. Drawing an atlas may end with any outcome. -/

namespace JavaAtlas

namespace Session

/-! ## The steps between two writes -/

/-- Stores the outcome of drawing. -/
def store (session : Session) : Except Failure Atlas → Session
  | .ok atlas => session.storeAtlas atlas
  | .error failure => session.storeFailure failure.message

/-- Moves on because of the outcome of drawing, if the session is still waiting for it. -/
def settle (session : Session) : Except Failure Atlas → Session
  | .ok _ => (session.move .initializing .ready).2
  | .error _ => (session.move .initializing .failed).2

theorem complete_eq (session : Session) (outcome : Except Failure Atlas) :
    session.complete outcome = (session.store outcome).settle outcome := by
  cases outcome <;> rfl

/-- What the cells answer to a caller that has read the state before. -/
def answerIn (session : Session) (seen : SessionState) : Except Failure Atlas :=
  { session with state := seen }.current

end Session

/-! ## Callers -/

namespace SharedSession

/-- What a caller asks for. -/
inductive Call where
  | start
  | current
  | close
deriving DecidableEq, Repr

/-- What a caller is told when its call returns. -/
inductive Answer where
  | started (outcome : Except Failure Unit)
  | atlas (outcome : Except Failure Atlas)
  | closed

/-- What a caller does next, with what it knows by then. -/
inductive Position where
  /-- Tries to be the one that draws. -/
  | entering
  | drawing
  | storing (outcome : Except Failure Atlas)
  | settling (outcome : Except Failure Atlas)
  /-- Reads the state. -/
  | asking
  /-- Reads the cell that belongs to the state that it has seen. -/
  | fetching (seen : SessionState)
  | closing
  | done

/-- The first position of a call. -/
def Call.entry : Call → Position
  | .start => .entering
  | .current => .asking
  | .close => .closing

/-- What can be noticed of a step: a call begins, an atlas is drawn, a caller is told its answer, or
nothing. -/
inductive Event where
  | enter (caller : Nat) (call : Call)
  | step (caller : Nat)
  | draw (caller : Nat) (outcome : Except Failure Atlas)
  | tell (caller : Nat) (answer : Answer)

/-- The caller that drew an atlas, and the outcome. -/
def Event.drawn? : Event → Option (Nat × Except Failure Atlas)
  | .draw caller outcome => some (caller, outcome)
  | _ => none

/-- The steps of a caller on the session. -/
inductive CallerStep (caller : Nat) :
    Call → Session → Position → Event → Session → Position → Prop where
  | begin {session session' : Session} : session.begin = some session' →
    CallerStep caller .start session .entering (.step caller) session' .drawing
  | join {session : Session} : session.begin = none →
    CallerStep caller .start session .entering (.step caller) session .asking
  | draw {session : Session} (outcome : Except Failure Atlas) :
    CallerStep caller .start session .drawing (.draw caller outcome) session (.storing outcome)
  | store {session : Session} {outcome : Except Failure Atlas} :
    CallerStep caller .start session (.storing outcome) (.step caller) (session.store outcome)
      (.settling outcome)
  | succeed {session : Session} {atlas : Atlas} :
    CallerStep caller .start session (.settling (.ok atlas)) (.step caller)
      (session.settle (.ok atlas)) .asking
  | fail {session : Session} {failure : Failure} :
    CallerStep caller .start session (.settling (.error failure))
      (.tell caller (.started (.error failure))) (session.settle (.error failure)) .done
  | ask {call : Call} {session : Session} :
    CallerStep caller call session .asking (.step caller) session (.fetching session.state)
  | tellStarted {session : Session} {seen : SessionState} :
    CallerStep caller .start session (.fetching seen)
      (.tell caller (.started ((session.answerIn seen).map fun _ => ()))) session .done
  | tellAtlas {session : Session} {seen : SessionState} :
    CallerStep caller .current session (.fetching seen)
      (.tell caller (.atlas (session.answerIn seen))) session .done
  | close {session : Session} :
    CallerStep caller .close session .closing (.tell caller .closed) session.close .done

end SharedSession

/-! ## The shared session -/

/-- A session and its callers, in the order in which their calls began. -/
structure SharedSession where
  session : Session
  callers : List (SharedSession.Call × SharedSession.Position) := []

namespace SharedSession

/-- A session that nobody has called. -/
def new (root : Path) : SharedSession := { session := .new root }

/-- One step: a call begins, or some caller goes on. -/
inductive Step : SharedSession → Event → SharedSession → Prop where
  | enter (shared : SharedSession) (call : Call) :
    Step shared (.enter shared.callers.length call)
      { shared with callers := shared.callers ++ [(call, call.entry)] }
  | act {shared : SharedSession} {caller : Nat} {call : Call} {position position' : Position}
    {event : Event} {session' : Session} : shared.callers[caller]? = some (call, position) →
      CallerStep caller call shared.session position event session' position' →
        Step shared event ⟨session', shared.callers.set caller (call, position')⟩

/-- Any number of steps, with their events in order. -/
inductive Run (shared : SharedSession) : List Event → SharedSession → Prop where
  | nil : Run shared [] shared
  | snoc {events : List Event} {event : Event} {middle shared' : SharedSession} :
    Run shared events middle → Step middle event shared' → Run shared (events ++ [event]) shared'

namespace Run

variable {shared shared' shared'' : SharedSession} {events events' : List Event} {event : Event}

theorem single (h : Step shared event shared') : Run shared [event] shared' :=
  snoc nil h

theorem append (h : Run shared events shared') (h' : Run shared' events' shared'') :
    Run shared (events ++ events') shared'' := by
  induction h' with
  | nil => rwa [List.append_nil]
  | snoc _ hstep ih =>
    rw [← List.append_assoc]
    exact ih.snoc hstep

theorem cons (hstep : Step shared event shared') (h : Run shared' events shared'') :
    Run shared (event :: events) shared'' :=
  (single hstep).append h

theorem concat_inv (h : Run shared (events ++ [event]) shared'') :
    ∃ shared', Run shared events shared' ∧ Step shared' event shared'' := by
  generalize hall : events ++ [event] = all at h
  cases h with
  | nil => exact absurd hall (by simp)
  | snoc hrun hstep =>
    obtain ⟨rfl, heq⟩ := List.append_inj' hall rfl
    obtain rfl := List.singleton_inj.1 heq
    exact ⟨_, hrun, hstep⟩

/-- A run can be cut anywhere. -/
theorem append_inv (h : Run shared (events ++ events') shared'') :
    ∃ shared', Run shared events shared' ∧ Run shared' events' shared'' := by
  induction events' using List.reverseRecOn generalizing shared'' with
  | nil =>
    rw [List.append_nil] at h
    exact ⟨shared'', h, .nil⟩
  | append_singleton rest event ih =>
    rw [← List.append_assoc] at h
    obtain ⟨middle, hrun, hstep⟩ := h.concat_inv
    obtain ⟨shared', hfirst, hrest⟩ := ih hrun
    exact ⟨shared', hfirst, hrest.snoc hstep⟩

end Run

/-! ## A caller that nobody disturbs -/

variable {session session' session'' : Session} {call : Call} {position position' : Position}
  {event : Event}

/-- The steps of one caller alone. -/
inductive CallerRun (caller : Nat) (call : Call) :
    Session → Position → List Event → Session → Position → Prop where
  | nil {session : Session} {position : Position} :
    CallerRun caller call session position [] session position
  | cons {session session' session'' : Session} {position position' position'' : Position}
    {event : Event} {events : List Event} :
      CallerStep caller call session position event session' position' →
        CallerRun caller call session' position' events session'' position'' →
          CallerRun caller call session position (event :: events) session'' position''

theorem run_of_callerRun {caller : Nat} {events : List Event}
    (h : CallerRun caller call session position events session' position')
    (callers : List (Call × Position)) (hcaller : callers[caller]? = some (call, position)) :
    Run ⟨session, callers⟩ events ⟨session', callers.set caller (call, position')⟩ := by
  induction h generalizing callers with
  | nil =>
    obtain ⟨hlt, hget⟩ := List.getElem?_eq_some_iff.1 hcaller
    rw [← hget, List.set_getElem_self]
    exact .nil
  | @cons _ _ _ _ position' _ _ _ hstep _ ih =>
    obtain ⟨hlt, _⟩ := List.getElem?_eq_some_iff.1 hcaller
    have hnext := ih (callers.set caller (call, position')) (by simp [hlt])
    rw [List.set_set] at hnext
    exact .cons (.act hcaller hstep) hnext

/-- Reading the state and then its cell comes to reading both at once. -/
theorem callerRun_current (caller : Nat) (session : Session) :
    CallerRun caller .current session .asking
      [.step caller, .tell caller (.atlas session.current)] session .done :=
  .cons .ask (.cons .tellAtlas .nil)

/-- The steps of `start`, taken one after the other, come to `Session.start`. -/
theorem callerRun_start (caller : Nat) (session : Session) (draw : Path → Except Failure Atlas) :
    ∃ events, CallerRun caller .start session .entering
      (events ++ [.tell caller (.started (session.start draw).1)])
      (session.start draw).2 .done := by
  unfold Session.start
  cases hbegin : session.begin with
  | none => exact ⟨[_, _], .cons (.join hbegin) (.cons .ask (.cons .tellStarted .nil))⟩
  | some session' =>
    simp only [Session.complete_eq]
    cases hdraw : draw session'.root with
    | ok atlas =>
      exact ⟨[_, _, _, _, _], .cons (.begin hbegin) (.cons (.draw (.ok atlas)) (.cons .store
        (.cons .succeed (.cons .ask (.cons .tellStarted .nil)))))⟩
    | error failure =>
      exact ⟨[_, _, _], .cons (.begin hbegin) (.cons (.draw (.error failure)) (.cons .store
        (.cons .fail .nil)))⟩

/-- A caller that starts the session and is not disturbed is told what `Session.start` answers, and
leaves the session that it leaves. -/
theorem exists_run_start (shared : SharedSession) (draw : Path → Except Failure Atlas) :
    ∃ events callers, Run shared
      (events ++ [.tell shared.callers.length (.started (shared.session.start draw).1)])
      ⟨(shared.session.start draw).2, callers⟩ := by
  obtain ⟨events, hcaller⟩ := callerRun_start shared.callers.length shared.session draw
  have hrun := run_of_callerRun hcaller (shared.callers ++ [(.start, .entering)]) (by simp)
  exact ⟨.enter _ .start :: events, _, .cons (.enter shared .start) hrun⟩

end SharedSession

end JavaAtlas
