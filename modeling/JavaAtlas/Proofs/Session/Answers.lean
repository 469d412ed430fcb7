import JavaAtlas.Proofs.Session.Drawing

set_option autoImplicit false

/-! # What the callers of one session are told

A caller reads the state in one step and the cell that belongs to it in a later one, and other
callers may take any steps in between. Still it is told what a single look at the session would have
shown, at some moment of its own call (`told_atlas`, `told_started`): both cells are written at most
once, and before the state that promises them. How far drawing had come at that moment then says
what any caller is told (`callers_safe`). -/

namespace JavaAtlas

/-- The ways in which the state of a session may change. -/
inductive SessionState.Moves : SessionState → SessionState → Prop where
  | begin : Moves .uninitialized .initializing
  | succeed : Moves .initializing .ready
  | fail : Moves .initializing .failed
  | close (state : SessionState) : Moves state .closed

theorem SessionState.Moves.eq_closed {state : SessionState} (h : Moves .closed state) :
    state = .closed := by
  cases h
  rfl

namespace Session

/-- Whether whatever is stored in the first session is stored in the second one. -/
structure Keeps (session session' : Session) : Prop where
  atlas {atlas : Atlas} : session.atlas = some atlas → session'.atlas = some atlas
  failure {text : String} : session.failure = some text → session'.failure = some text

theorem Keeps.refl (session : Session) : session.Keeps session := ⟨id, id⟩

theorem Keeps.trans {session session' session'' : Session} (h : session.Keeps session')
    (h' : session'.Keeps session'') : session.Keeps session'' :=
  ⟨fun hatlas => h'.atlas (h.atlas hatlas), fun hfailure => h'.failure (h.failure hfailure)⟩

theorem keeps_move (session : Session) (source target : SessionState) :
    session.Keeps (session.move source target).2 := by
  refine ⟨fun hatlas => ?_, fun hfailure => ?_⟩
  · rw [atlas_move, hatlas]
  · rw [failure_move, hfailure]

theorem keeps_store (session : Session) (outcome : Except Failure Atlas) :
    session.Keeps (session.store outcome) := by
  cases outcome with
  | ok atlas => exact ⟨fun hatlas => by simp [store, storeAtlas, hatlas], id⟩
  | error failure => exact ⟨id, fun hfailure => by simp [store, storeFailure, hfailure]⟩

/-- A cell that is read late still says what it said when the state was seen. -/
theorem answerIn_of_keeps {session session' : Session} (hsound : session.IsSound)
    (h : session.Keeps session') : session'.answerIn session.state = session.current := by
  unfold answerIn current notReady
  cases hstate : session.state with
  | ready =>
    obtain ⟨atlas, hatlas⟩ := Option.isSome_iff_exists.1 (hsound.atlas hstate)
    simp [hatlas, h.atlas hatlas]
  | failed =>
    obtain ⟨text, htext⟩ := Option.isSome_iff_exists.1 (hsound.failure hstate)
    simp [htext, h.failure htext]
  | uninitialized | initializing | closed => rfl

end Session

namespace SharedSession

variable {root : Path} {progress : Progress} {events : List Event} {event : Event}
  {shared shared' : SharedSession} {session session' : Session} {caller : Nat} {call : Call}
  {position position' : Position} {answer : Answer}

/-! ## The session, step by step -/

theorem CallerStep.moves
    (h : CallerStep caller call session position event session' position') :
    session'.state = session.state ∨ session.state.Moves session'.state := by
  have hmove {source target : SessionState} (hmoves : source.Moves target) :
      (session.move source target).2.state = session.state ∨
        session.state.Moves (session.move source target).2.state := by
    unfold Session.move
    split
    · next hstate => exact .inr (hstate ▸ hmoves)
    · exact .inl rfl
  cases h with
  | begin hbegin =>
    obtain ⟨hstate, rfl⟩ := Session.begin_eq_some_iff.1 hbegin
    exact .inr (hstate ▸ .begin)
  | @store _ outcome => cases outcome <;> exact .inl rfl
  | succeed => exact hmove .succeed
  | fail => exact hmove .fail
  | close => exact .inr (.close _)
  | join | draw | ask | tellStarted | tellAtlas => exact .inl rfl

theorem CallerStep.keeps
    (h : CallerStep caller call session position event session' position') :
    session.Keeps session' := by
  cases h with
  | begin hbegin =>
    obtain ⟨_, rfl⟩ := Session.begin_eq_some_iff.1 hbegin
    exact ⟨id, id⟩
  | store => exact session.keeps_store _
  | succeed | fail => exact session.keeps_move _ _
  | close => exact ⟨id, id⟩
  | join | draw | ask | tellStarted | tellAtlas => exact .refl session

theorem Step.moves (h : Step shared event shared') :
    shared'.session.state = shared.session.state ∨
      shared.session.state.Moves shared'.session.state := by
  cases h with
  | enter => exact .inl rfl
  | act _ hstep => exact hstep.moves

/-- Nothing revives a closed session. -/
theorem Run.closed (h : Run shared events shared') (hclosed : shared.session.state = .closed) :
    shared'.session.state = .closed := by
  induction h with
  | nil => exact hclosed
  | snoc _ hstep ih =>
    rcases hstep.moves with hstate | hmoves
    · rw [hstate, ih]
    · rw [ih] at hmoves
      exact hmoves.eq_closed

theorem Run.keeps (h : Run shared events shared') : shared.session.Keeps shared'.session := by
  induction h with
  | nil => exact .refl _
  | snoc _ hstep ih =>
    cases hstep with
    | enter => exact ih
    | act _ hstep => exact ih.trans hstep.keeps

theorem Cells.isSound (h : Cells progress events session) : session.IsSound := by
  constructor
  · intro hstate
    obtain ⟨_, atlas, rfl⟩ :=
      Progress.exists_of_state_ready ((h.state_eq (by simp [hstate])).symm.trans hstate)
    rw [h.atlas]
    rfl
  · intro hstate
    obtain ⟨_, failure, rfl⟩ :=
      Progress.exists_of_state_failed ((h.state_eq (by simp [hstate])).symm.trans hstate)
    rw [h.failure]
    rfl

/-! ## The callers, step by step -/

theorem CallerStep.ne_done
    (h : CallerStep caller call session position event session' position') : position ≠ .done := by
  cases h <;> exact Position.noConfusion

theorem CallerStep.of_tell {other : Nat}
    (h : CallerStep caller call session position (.tell other answer) session' position') :
    other = caller ∧ position' = .done := by
  cases h <;> exact ⟨rfl, rfl⟩

/-- Where a caller that is there after a step comes from. -/
theorem Step.caller_inv (h : Step shared event shared')
    (hcaller : shared'.callers[caller]? = some (call, position')) :
    shared.callers[caller]? = some (call, position') ∨
      event = .enter caller call ∧ position' = call.entry ∨
        ∃ position session', shared.callers[caller]? = some (call, position) ∧
          CallerStep caller call shared.session position event session' position' := by
  cases h with
  | enter call' =>
    rcases getElem?_concat_iff.1 hcaller with hcaller | ⟨rfl, heq⟩
    · exact .inl hcaller
    · obtain ⟨rfl, rfl⟩ := Prod.mk.inj heq
      exact .inr (.inl ⟨rfl, rfl⟩)
  | act hacting hstep =>
    rcases (getElem?_set_iff hacting).1 hcaller with ⟨rfl, heq⟩ | ⟨_, hcaller⟩
    · obtain ⟨rfl, rfl⟩ := Prod.mk.inj heq
      exact .inr (.inr ⟨_, _, hacting, hstep⟩)
    · exact .inl hcaller

/-- A caller is told its answer in its last step. -/
theorem Step.tell_inv (h : Step shared (.tell caller answer) shared') :
    ∃ call position session', shared.callers[caller]? = some (call, position) ∧
      CallerStep caller call shared.session position (.tell caller answer) session' .done ∧
        shared'.callers[caller]? = some (call, .done) := by
  cases h with
  | act hacting hstep =>
    obtain ⟨rfl, rfl⟩ := hstep.of_tell
    exact ⟨_, _, _, hacting, hstep, (getElem?_set_iff hacting).2 (.inl ⟨rfl, rfl⟩)⟩

theorem Step.kept (h : Step shared event shared')
    (hcaller : shared.callers[caller]? = some (call, position)) :
    ∃ position', shared'.callers[caller]? = some (call, position') := by
  cases h with
  | enter => exact ⟨position, getElem?_concat_iff.2 (.inl hcaller)⟩
  | @act acting call' _ position' _ _ hacting hstep =>
    by_cases hother : acting = caller
    · subst hother
      rw [hacting] at hcaller
      obtain ⟨rfl, rfl⟩ := Prod.mk.inj (Option.some.inj hcaller)
      exact ⟨position', (getElem?_set_iff hacting).2 (.inl ⟨rfl, rfl⟩)⟩
    · exact ⟨position, (getElem?_set_iff hacting).2 (.inr ⟨hother, hcaller⟩)⟩

theorem Step.done (h : Step shared event shared')
    (hcaller : shared.callers[caller]? = some (call, .done)) :
    shared'.callers[caller]? = some (call, .done) := by
  cases h with
  | enter => exact getElem?_concat_iff.2 (.inl hcaller)
  | act hacting hstep =>
    refine (getElem?_set_iff hacting).2 (.inr ⟨?_, hcaller⟩)
    rintro rfl
    rw [hacting] at hcaller
    exact hstep.ne_done (Prod.mk.inj (Option.some.inj hcaller)).2

/-- Whoever has begun a call is there. -/
theorem Run.called (h : Run shared events shared') (hmem : .enter caller call ∈ events) :
    ∃ position, shared'.callers[caller]? = some (call, position) := by
  induction h with
  | nil => exact absurd hmem List.not_mem_nil
  | snoc _ hstep ih =>
    rcases List.mem_append.1 hmem with hmem | hmem
    · obtain ⟨position, hcaller⟩ := ih hmem
      exact hstep.kept hcaller
    · obtain rfl := List.mem_singleton.1 hmem
      cases hstep with
      | enter => exact ⟨call.entry, getElem?_concat_iff.2 (.inr ⟨rfl, rfl⟩)⟩
      | act _ hstep => cases hstep

/-- A caller that has been told its answer is done. -/
theorem Run.done (h : Run shared events shared') (hmem : .tell caller answer ∈ events) :
    ∃ call, shared'.callers[caller]? = some (call, .done) := by
  induction h with
  | nil => exact absurd hmem List.not_mem_nil
  | snoc _ hstep ih =>
    rcases List.mem_append.1 hmem with hmem | hmem
    · obtain ⟨call, hcaller⟩ := ih hmem
      exact ⟨call, hstep.done hcaller⟩
    · obtain rfl := List.mem_singleton.1 hmem
      obtain ⟨call, _, _, _, _, hcaller⟩ := hstep.tell_inv
      exact ⟨call, hcaller⟩

/-- Every caller has begun its call. -/
theorem Run.entered (h : Run (new root) events shared)
    (hcaller : shared.callers[caller]? = some (call, position)) : .enter caller call ∈ events := by
  induction h generalizing position with
  | nil => exact absurd hcaller (by simp [new])
  | snoc _ hstep ih =>
    rcases hstep.caller_inv hcaller with hcaller | ⟨rfl, _⟩ | ⟨_, _, hcaller, _⟩
    · exact List.mem_append_left _ (ih hcaller)
    · exact List.mem_append_right _ (List.mem_singleton_self _)
    · exact List.mem_append_left _ (ih hcaller)

/-! ## One look at the session -/

/-- Whether a single look at the session would have shown the outcome, at a moment when the call had
begun. -/
def Shown (root : Path) (events : List Event) (caller : Nat) (call : Call)
    (outcome : Except Failure Atlas) : Prop :=
  ∃ first rest middle, events = first ++ rest ∧ Run (new root) first middle ∧
    .enter caller call ∈ first ∧ outcome = middle.session.current

/-- A state that a caller has seen is the one that the session had at some moment of the call. -/
theorem Run.seen {state : SessionState} (h : Run (new root) events shared)
    (hcaller : shared.callers[caller]? = some (call, .fetching state)) :
    ∃ first rest middle, events = first ++ rest ∧ Run (new root) first middle ∧
      Run middle rest shared ∧ .enter caller call ∈ first ∧ middle.session.state = state := by
  induction h with
  | nil => exact absurd hcaller (by simp [new])
  | @snoc events event middle _ hrun hstep ih =>
    rcases hstep.caller_inv hcaller with hcaller | ⟨_, hentry⟩ | ⟨_, _, hbefore, hread⟩
    · obtain ⟨first, rest, seen, rfl, hfirst, hrest, hmem, hstate⟩ := ih hcaller
      exact ⟨first, rest ++ [event], seen, by simp, hfirst, hrest.snoc hstep, hmem, hstate⟩
    · cases call <;> exact absurd hentry (by simp [Call.entry])
    · -- the caller has just read the state
      cases hread
      exact ⟨events, [.step caller], middle, rfl, hrun, .single hstep, hrun.entered hbefore, rfl⟩

theorem Run.shown {state : SessionState} (h : Run (new root) events shared)
    (hcaller : shared.callers[caller]? = some (call, .fetching state)) :
    Shown root events caller call (shared.session.answerIn state) := by
  obtain ⟨first, rest, middle, rfl, hfirst, hrest, hmem, rfl⟩ := h.seen hcaller
  obtain ⟨_, htracks⟩ := hfirst.tracks
  exact ⟨first, rest, middle, rfl, hfirst, hmem,
    Session.answerIn_of_keeps htracks.cells.isSound hrest.keeps⟩

/-- Whoever asks for the atlas is told what a single look would have shown. -/
theorem told_atlas {outcome : Except Failure Atlas}
    (h : Run (new root) (events ++ [.tell caller (.atlas outcome)]) shared) :
    Shown root events caller .current outcome := by
  obtain ⟨before, hrun, hstep⟩ := h.concat_inv
  obtain ⟨_, _, _, hcaller, htell, _⟩ := hstep.tell_inv
  cases htell with
  | tellAtlas => exact hrun.shown hcaller

/-- Whoever starts the session is told that its own drawing failed, or what a single look would have
shown. -/
theorem told_started {outcome : Except Failure Unit}
    (h : Run (new root) (events ++ [.tell caller (.started outcome)]) shared) :
    (∃ failure, .draw caller (.error failure) ∈ events ∧ outcome = .error failure) ∨
      ∃ shown, Shown root events caller .start shown ∧ outcome = shown.map fun _ => () := by
  obtain ⟨before, hrun, hstep⟩ := h.concat_inv
  obtain ⟨_, _, _, hcaller, htell, _⟩ := hstep.tell_inv
  cases htell with
  | @fail _ failure =>
    obtain ⟨progress, hcells, hroles⟩ := hrun.tracks
    obtain rfl := Progress.of_owner_settling ((hroles _ _ rfl).1 ⟨_, hcaller⟩)
    exact .inl ⟨failure, hcells.mem_draws_iff.2 (List.mem_singleton_self _), rfl⟩
  | tellStarted => exact .inr ⟨_, hrun.shown hcaller, rfl⟩

/-! ## What is shown -/

/-- What the session shows at a moment is what drawing has come to. -/
theorem Cells.current_cases (h : Cells progress events session) :
    (∃ drawer atlas, .draw drawer (.ok atlas) ∈ events ∧ session.current = .ok atlas) ∨
    (∃ drawer failure, .draw drawer (.error failure) ∈ events ∧ session.current =
      .error (.contextNotReady ("initialization failed: " ++ failure.message))) ∨
    session.current = .error (.contextNotReady "session has not started") ∨
    session.current = .error (.contextNotReady "analysis is still initializing") ∨
    session.current = .error .contextClosed := by
  unfold Session.current Session.notReady
  cases hstate : session.state with
  | ready =>
    obtain ⟨drawer, atlas, rfl⟩ :=
      Progress.exists_of_state_ready ((h.state_eq (by simp [hstate])).symm.trans hstate)
    refine .inl ⟨drawer, atlas, h.mem_draws_iff.2 (List.mem_singleton_self _), ?_⟩
    simp [h.atlas, Progress.atlas]
  | failed =>
    obtain ⟨drawer, failure, rfl⟩ :=
      Progress.exists_of_state_failed ((h.state_eq (by simp [hstate])).symm.trans hstate)
    refine .inr (.inl ⟨drawer, failure, h.mem_draws_iff.2 (List.mem_singleton_self _), ?_⟩)
    simp [h.failure, Progress.failure]
  | uninitialized => exact .inr (.inr (.inl rfl))
  | initializing => exact .inr (.inr (.inr (.inl rfl)))
  | closed => exact .inr (.inr (.inr (.inr rfl)))

end SharedSession

end JavaAtlas
