import JavaAtlas.Session

set_option autoImplicit false

/-! # The states of a session

Callers take the steps of a session one at a time and in any order, except that an outcome is stored
before the session moves on because of it. So a ready session has its atlas and a failed one the
text of its failure (`Reachable.isSound`), whatever else happens between two steps. -/

namespace JavaAtlas.Session

/-- The sessions that single steps lead to. -/
inductive Reachable (root : Path) : Session → Prop where
  | new : Reachable root (.new root)
  | begin {session session' : Session} :
    Reachable root session → session.begin = some session' → Reachable root session'
  | storeAtlas {session : Session} (atlas : Atlas) :
    Reachable root session → Reachable root (session.storeAtlas atlas)
  | storeFailure {session : Session} (text : String) :
    Reachable root session → Reachable root (session.storeFailure text)
  | becomeReady {session : Session} :
    Reachable root session → session.atlas.isSome = true →
      Reachable root (session.move .initializing .ready).2
  | becomeFailed {session : Session} :
    Reachable root session → session.failure.isSome = true →
      Reachable root (session.move .initializing .failed).2
  | close {session : Session} : Reachable root session → Reachable root session.close

/-- Whether the session has what its state promises. -/
structure IsSound (session : Session) : Prop where
  atlas : session.state = .ready → session.atlas.isSome = true
  failure : session.state = .failed → session.failure.isSome = true

/-! ## One step -/

theorem begin_eq_some_iff {session session' : Session} :
    session.begin = some session' ↔
      session.state = .uninitialized ∧ session' = { session with state := .initializing } := by
  unfold begin move
  by_cases h : session.state = .uninitialized
  · rw [if_pos h]
    simp [h, eq_comm]
  · rw [if_neg h]
    simp [h]

theorem atlas_move (session : Session) (source target : SessionState) :
    (session.move source target).2.atlas = session.atlas := by
  unfold move
  split <;> rfl

theorem failure_move (session : Session) (source target : SessionState) :
    (session.move source target).2.failure = session.failure := by
  unfold move
  split <;> rfl

theorem isSound_move {session : Session} (h : session.IsSound) {source target : SessionState}
    (hatlas : target = .ready → session.atlas.isSome = true)
    (hfailure : target = .failed → session.failure.isSome = true) :
    (session.move source target).2.IsSound := by
  unfold move
  split
  · exact ⟨hatlas, hfailure⟩
  · exact h

theorem isSome_atlas_storeAtlas (session : Session) (atlas : Atlas) :
    (session.storeAtlas atlas).atlas.isSome = true := by
  unfold storeAtlas
  rw [Option.isSome_or, Option.isSome_some, Bool.or_true]

theorem isSome_failure_storeFailure (session : Session) (text : String) :
    (session.storeFailure text).failure.isSome = true := by
  unfold storeFailure
  rw [Option.isSome_or, Option.isSome_some, Bool.or_true]

/-! ## Any number of steps -/

variable {root : Path} {session : Session}

theorem Reachable.isSound (h : Reachable root session) : session.IsSound := by
  induction h with
  | new => exact ⟨nofun, nofun⟩
  | begin _ hbegin ih =>
    obtain ⟨_, rfl⟩ := begin_eq_some_iff.1 hbegin
    exact ⟨nofun, nofun⟩
  | @storeAtlas session atlas _ ih =>
    exact ⟨fun _ => isSome_atlas_storeAtlas session atlas, ih.failure⟩
  | @storeFailure session text _ ih =>
    exact ⟨ih.atlas, fun _ => isSome_failure_storeFailure session text⟩
  | becomeReady _ hatlas ih => exact isSound_move ih (fun _ => hatlas) nofun
  | becomeFailed _ hfailure ih => exact isSound_move ih nofun fun _ => hfailure
  | close _ ih => exact ⟨nofun, nofun⟩

theorem Reachable.complete (h : Reachable root session) (outcome : Except Failure Atlas) :
    Reachable root (session.complete outcome) := by
  cases outcome with
  | ok atlas => exact (h.storeAtlas atlas).becomeReady (isSome_atlas_storeAtlas session atlas)
  | error failure =>
    exact (h.storeFailure failure.message).becomeFailed
      (isSome_failure_storeFailure session failure.message)

/-- A caller that starts a session and is not disturbed takes such steps. -/
theorem Reachable.start (h : Reachable root session) (draw : Path → Except Failure Atlas) :
    Reachable root (session.start draw).2 := by
  unfold Session.start
  split
  · exact h
  · next session' hbegin => exact (h.begin hbegin).complete _

/-! ## The atlas -/

theorem exists_current_of_ready (h : session.IsSound) (hready : session.state = .ready) :
    ∃ atlas, session.current = .ok atlas := by
  obtain ⟨atlas, hatlas⟩ := Option.isSome_iff_exists.1 (h.atlas hready)
  refine ⟨atlas, ?_⟩
  unfold current
  rw [hready, hatlas]

/-- The kind of failure with which a session has no atlas to offer in a state. -/
def refusal? : SessionState → Option FailureKind
  | .ready => none
  | .closed => some .contextClosed
  | .uninitialized | .initializing | .failed => some .contextNotReady

theorem refusal?_eq_none_iff {state : SessionState} : refusal? state = none ↔ state = .ready := by
  cases state <;> decide

theorem refusal?_eq_closed_iff {state : SessionState} :
    refusal? state = some .contextClosed ↔ state = .closed := by
  cases state <;> decide

theorem refusal?_eq_notReady_iff {state : SessionState} :
    refusal? state = some .contextNotReady ↔ state ≠ .ready ∧ state ≠ .closed := by
  cases state <;> decide

theorem exists_current_of_refusal {kind : FailureKind} (h : refusal? session.state = some kind) :
    ∃ failure, session.current = .error failure ∧ failure.kind = kind := by
  unfold current notReady
  cases hstate : session.state with
  | ready =>
    rw [hstate] at h
    exact absurd h (by simp [refusal?])
  | closed | uninitialized | initializing | failed =>
    rw [hstate] at h
    exact ⟨_, rfl, Option.some.inj h⟩

theorem state_of_current_closed {failure : Failure} (h : session.current = .error failure)
    (hkind : failure.kind = .contextClosed) : session.state = .closed := by
  unfold current at h
  split at h
  · cases h
  · obtain rfl := Except.error.inj h
    unfold notReady at hkind
    cases hstate : session.state with
    | closed => rfl
    | uninitialized | initializing | ready | failed =>
      rw [hstate] at hkind
      cases hkind

end JavaAtlas.Session
