import JavaAtlas.Proofs.Session.Answers

set_option autoImplicit false

/-! # The life cycle of a session with many callers

Whatever calls are made of one session, by however many callers and in whatever order their steps
fall, the atlas is drawn at most once, the state follows its life cycle, no answer betrays an empty
cell, and calls that follow one another see what came before (`callers_safe`). -/

namespace JavaAtlas

/-! ## Texts of failures -/

theorem append_ne_of_not_prefix {start text : String} (h : ¬start.toList <+: text.toList)
    (rest : String) : start ++ rest ≠ text := by
  rintro rfl
  rw [String.toList_append] at h
  exact h (List.prefix_append _ _)

theorem Failure.message_ne_unknown (failure : Failure) : failure.message ≠ "unknown error" := by
  cases failure with
  | duplicateName name =>
    show "operation '" ++ name ++ "' is already registered" ≠ _
    rw [String.append_assoc]
    apply append_ne_of_not_prefix
    decide +kernel
  | invalidArguments operation problem =>
    show "invalid arguments for '" ++ operation ++ "': " ++ problem ≠ _
    rw [String.append_assoc, String.append_assoc]
    apply append_ne_of_not_prefix
    decide +kernel
  | contextClosed => decide +kernel
  | unknownOperation | contextNotReady | analysis | encoding | config | file | json | toml =>
    unfold message
    apply append_ne_of_not_prefix
    decide +kernel

namespace SharedSession

variable {root : Path} {progress : Progress} {events before after : List Event} {event : Event}
  {shared shared' : SharedSession} {session : Session} {caller drawer : Nat} {call : Call}
  {answer : Answer} {outcome : Except Failure Atlas}

/-- The failures of a session whose state promises a cell that is empty. -/
def missingFailures : List Failure :=
  [.contextNotReady "model missing", .contextNotReady "initialization failed: unknown error"]

/-- What a caller is told that starts a session for which drawing has ended with the outcome. -/
def startedAgain : Except Failure Atlas → Except Failure Unit
  | .ok _ => .ok ()
  | .error failure => .error (.contextNotReady ("initialization failed: " ++ failure.message))

/-- What holds of a shared session after these events, whatever the callers have done. -/
structure Safe (events : List Event) (shared : SharedSession) : Prop where
  drawn_once : (events.filterMap Event.drawn?).length ≤ 1
  /-- While a caller draws, nobody has drawn yet, and nobody else draws. -/
  draws_alone : ∀ (caller : Nat) (call : Call), shared.callers[caller]? = some (call, .drawing) →
    events.filterMap Event.drawn? = [] ∧ ∀ (other : Nat) (call' : Call),
      shared.callers[other]? = some (call', .drawing) → other = caller
  moves : ∀ event shared', Step shared event shared' →
    shared'.session.state = shared.session.state ∨
      shared.session.state.Moves shared'.session.state
  stays_closed : ∀ events' shared', Run shared events' shared' →
    shared.session.state = .closed → shared'.session.state = .closed
  /-- A ready session has the atlas that was drawn. -/
  ready : shared.session.state = .ready →
    ∃ drawer atlas, .draw drawer (.ok atlas) ∈ events ∧ shared.session.atlas = some atlas
  /-- A failed session has the text of the failure of drawing. -/
  failed : shared.session.state = .failed → ∃ drawer failure,
    .draw drawer (.error failure) ∈ events ∧ shared.session.failure = some failure.message
  /-- Nobody is told of an empty cell, unless that is how its own drawing failed. -/
  none_missing : ∀ failure ∈ missingFailures, ∀ caller : Nat,
    .tell caller (.atlas (.error failure)) ∉ events ∧
      (.tell caller (.started (.error failure)) ∈ events → .draw caller (.error failure) ∈ events)
  /-- Whoever is given an atlas is given the one that was drawn. -/
  atlas_drawn : ∀ (caller : Nat) (atlas : Atlas), .tell caller (.atlas (.ok atlas)) ∈ events →
    ∃ drawer, .draw drawer (.ok atlas) ∈ events
  /-- Whoever asks for the atlas after somebody has closed the session is told so. -/
  after_close : ∀ (before after rest : List Event) (caller : Nat) (answer : Answer),
    events = before ++ .enter caller .current :: after ++ .tell caller answer :: rest →
      Closes before → answer = .atlas (.error .contextClosed)
  /-- Whoever starts the session after the caller that drew the atlas has been told its answer, and
  is told its own before anybody closes the session, is told how drawing ended. -/
  after_draw : ∀ (before after rest : List Event) (drawer : Nat) (outcome : Except Failure Atlas)
    (first : Answer) (caller : Nat) (answer : Answer),
    events = before ++ .enter caller .start :: after ++ .tell caller answer :: rest →
      .draw drawer outcome ∈ before → .tell drawer first ∈ before →
        ¬Closes (before ++ .enter caller .start :: after) →
          answer = .started (startedAgain outcome)

/-! ## What has been told -/

/-- The step of a run at which something happened. -/
theorem Run.at_event (h : Run shared events shared') (hmem : event ∈ events) :
    ∃ first rest middle,
      events = first ++ event :: rest ∧ Run shared (first ++ [event]) middle := by
  obtain ⟨first, rest, rfl⟩ := List.append_of_mem hmem
  rw [List.append_cons] at h
  obtain ⟨middle, hfirst, _⟩ := h.append_inv
  exact ⟨first, rest, middle, rfl, hfirst⟩

theorem Shown.cases (h : Shown root events caller call outcome) :
    (∃ drawer atlas, .draw drawer (.ok atlas) ∈ events ∧ outcome = .ok atlas) ∨
    (∃ drawer failure, .draw drawer (.error failure) ∈ events ∧ outcome =
      .error (.contextNotReady ("initialization failed: " ++ failure.message))) ∨
    outcome = .error (.contextNotReady "session has not started") ∨
    outcome = .error (.contextNotReady "analysis is still initializing") ∨
    outcome = .error .contextClosed := by
  obtain ⟨first, rest, middle, rfl, hrun, _, rfl⟩ := h
  obtain ⟨progress, hcells, _⟩ := hrun.tracks
  rcases hcells.current_cases with ⟨drawer, atlas, hmem, h⟩ | ⟨drawer, failure, hmem, h⟩ | h
  · exact .inl ⟨drawer, atlas, List.mem_append_left _ hmem, h⟩
  · exact .inr (.inl ⟨drawer, failure, List.mem_append_left _ hmem, h⟩)
  · exact .inr (.inr h)

theorem Shown.not_missing (h : Shown root events caller call outcome) {failure : Failure}
    (hfailure : failure ∈ missingFailures) : outcome ≠ .error failure := by
  rintro rfl
  rcases h.cases with ⟨_, _, _, h⟩ | ⟨_, drawn, _, h⟩ | h | h | h
  · cases h
  · obtain rfl := Except.error.inj h
    rcases List.mem_cons.1 hfailure with h | h
    · exact append_ne_of_not_prefix (by decide +kernel) _ (Failure.contextNotReady.inj h)
    · have htext := Failure.contextNotReady.inj (List.mem_singleton.1 h)
      have hunknown : "initialization failed: unknown error" =
        "initialization failed: " ++ "unknown error" := by decide +kernel
      rw [hunknown, String.append_right_inj] at htext
      exact drawn.message_ne_unknown htext
  all_goals
    obtain rfl := Except.error.inj h
    exact absurd hfailure (by decide +kernel)

theorem Run.not_missing_of_atlas (h : Run (new root) events shared) {failure : Failure}
    (htold : .tell caller (.atlas (.error failure)) ∈ events) : failure ∉ missingFailures := by
  obtain ⟨_, _, _, rfl, hrun⟩ := h.at_event htold
  intro hfailure
  exact (told_atlas hrun).not_missing hfailure rfl

theorem Run.drawn_of_missing (h : Run (new root) events shared) {failure : Failure}
    (htold : .tell caller (.started (.error failure)) ∈ events)
    (hfailure : failure ∈ missingFailures) : .draw caller (.error failure) ∈ events := by
  obtain ⟨_, _, _, rfl, hrun⟩ := h.at_event htold
  rcases told_started hrun with ⟨failure', hdraw, heq⟩ | ⟨shown, hshown, heq⟩
  · obtain rfl := Except.error.inj heq
    exact List.mem_append_left _ hdraw
  · cases shown with
    | ok => cases heq
    | error failure' =>
      obtain rfl := Except.error.inj heq
      exact absurd rfl (hshown.not_missing hfailure)

theorem Run.drawn_of_atlas (h : Run (new root) events shared) {atlas : Atlas}
    (htold : .tell caller (.atlas (.ok atlas)) ∈ events) :
    ∃ drawer, .draw drawer (.ok atlas) ∈ events := by
  obtain ⟨_, _, _, rfl, hrun⟩ := h.at_event htold
  rcases (told_atlas hrun).cases with ⟨drawer, _, hdraw, heq⟩ | ⟨_, _, _, heq⟩ | heq | heq | heq
  · obtain rfl := Except.ok.inj heq
    exact ⟨drawer, List.mem_append_left _ hdraw⟩
  all_goals cases heq

/-! ## Calls that follow one another -/

/-- A call begins only once. -/
theorem Run.fresh (h : Run shared (before ++ [.enter caller call]) shared') {call' : Call} :
    .enter caller call' ∉ before := by
  intro hmem
  obtain ⟨middle, hrun, hstep⟩ := h.concat_inv
  obtain ⟨position, hcaller⟩ := hrun.called hmem
  cases hstep with
  | enter => exact absurd hcaller (by simp)
  | act _ hstep => cases hstep

/-- What comes before a call comes before every moment of the call. -/
theorem Run.prefix_of_entered {first rest : List Event}
    (h : Run shared (before ++ .enter caller call :: after) shared')
    (heq : before ++ .enter caller call :: after = first ++ rest)
    (hmem : .enter caller call ∈ first) : before <+: first := by
  have hbefore : before <+: first ++ rest := ⟨_, heq⟩
  rcases List.prefix_or_prefix_of_prefix hbefore (List.prefix_append first rest) with h' | h'
  · exact h'
  · rw [List.append_cons] at h
    obtain ⟨_, hbegun, _⟩ := h.append_inv
    exact absurd (h'.subset hmem) hbegun.fresh

/-- Drawing has come to its end once the caller that drew has been told its answer. -/
theorem Tracks.settled (h : Tracks progress events shared) (hrun : Run (new root) events shared)
    (hdraw : .draw drawer outcome ∈ events) (htold : .tell drawer answer ∈ events) :
    progress = .settled drawer outcome := by
  obtain ⟨call, hdone⟩ := hrun.done htold
  have howner : ∀ position, position.owns = true → progress.owner? ≠ some (drawer, position) := by
    intro position howns howner
    obtain ⟨call', hcaller⟩ := (h.roles drawer position howns).2 howner
    rw [hdone] at hcaller
    obtain ⟨_, rfl⟩ := Prod.mk.inj (Option.some.inj hcaller)
    exact absurd howns (by simp [Position.owns])
  have hmem := h.cells.mem_draws_iff.1 hdraw
  cases progress with
  | waiting | drawing => exact absurd hmem List.not_mem_nil
  | drawn =>
    obtain ⟨rfl, rfl⟩ := Prod.mk.inj (List.mem_singleton.1 hmem)
    exact absurd rfl (howner _ rfl)
  | stored =>
    obtain ⟨rfl, rfl⟩ := Prod.mk.inj (List.mem_singleton.1 hmem)
    exact absurd rfl (howner _ rfl)
  | settled =>
    obtain ⟨rfl, rfl⟩ := Prod.mk.inj (List.mem_singleton.1 hmem)
    rfl

theorem Cells.current_settled (h : Cells (.settled drawer outcome) events session)
    (hopen : ¬Closes events) : (session.current.map fun _ => ()) = startedAgain outcome := by
  unfold Session.current Session.notReady
  rw [h.opened hopen]
  cases outcome with
  | ok atlas => simp [Progress.state, h.atlas, Progress.atlas, startedAgain, Except.map]
  | error failure =>
    simp [Progress.state, h.failure, Progress.failure, startedAgain, Except.map]

theorem Cells.drawn_unique (h : Cells progress events session) {outcome' : Except Failure Atlas}
    (hdraw : .draw drawer outcome ∈ events) (hdraw' : .draw caller outcome' ∈ events) :
    drawer = caller := by
  have hmem := h.mem_draws_iff.1 hdraw
  have hmem' := h.mem_draws_iff.1 hdraw'
  cases progress with
  | waiting | drawing => exact absurd hmem List.not_mem_nil
  | drawn | stored | settled =>
    obtain ⟨rfl, _⟩ := Prod.mk.inj (List.mem_singleton.1 hmem)
    exact (Prod.mk.inj (List.mem_singleton.1 hmem')).1.symm

theorem Run.told_of_current (h : Run (new root) (events ++ [.tell caller answer]) shared)
    (hmem : .enter caller .current ∈ events) :
    ∃ outcome, answer = .atlas outcome ∧ Shown root events caller .current outcome := by
  obtain ⟨_, hrun, hstep⟩ := h.concat_inv
  obtain ⟨call, _, _, hcaller, htell, _⟩ := hstep.tell_inv
  obtain ⟨_, hcurrent⟩ := hrun.called hmem
  rw [hcaller] at hcurrent
  obtain ⟨rfl, _⟩ := Prod.mk.inj (Option.some.inj hcurrent)
  cases htell with
  | tellAtlas => exact ⟨_, rfl, told_atlas h⟩

theorem Run.told_of_start (h : Run (new root) (events ++ [.tell caller answer]) shared)
    (hmem : .enter caller .start ∈ events) :
    ∃ outcome, answer = .started outcome ∧
      ((∃ failure, .draw caller (.error failure) ∈ events ∧ outcome = .error failure) ∨
        ∃ shown, Shown root events caller .start shown ∧ outcome = shown.map fun _ => ()) := by
  obtain ⟨_, hrun, hstep⟩ := h.concat_inv
  obtain ⟨call, _, _, hcaller, htell, _⟩ := hstep.tell_inv
  obtain ⟨_, hstart⟩ := hrun.called hmem
  rw [hcaller] at hstart
  obtain ⟨rfl, _⟩ := Prod.mk.inj (Option.some.inj hstart)
  cases htell with
  | fail | tellStarted => exact ⟨_, rfl, told_started h⟩

/-- A call for the atlas that begins after a close meets a closed session. -/
theorem Run.current_after_close
    (h : Run (new root) (before ++ .enter caller .current :: after ++ [.tell caller answer]) shared)
    (hclose : Closes before) : answer = .atlas (.error .contextClosed) := by
  obtain ⟨_, rfl, first, rest, middle, heq, hrun, hentered, rfl⟩ :=
    h.told_of_current (List.mem_append_right _ List.mem_cons_self)
  obtain ⟨_, hcall, _⟩ := h.concat_inv
  obtain ⟨later, rfl⟩ := hcall.prefix_of_entered heq hentered
  obtain ⟨_, hcells, _⟩ := hrun.tracks
  have hclosed := hcells.closed hclose.mono
  simp [Session.current, Session.notReady, hclosed]

/-- A call that starts the session and begins after drawing has come to its end meets a session that
drawing has settled. -/
theorem Run.start_after_draw
    (h : Run (new root) (before ++ .enter caller .start :: after ++ [.tell caller answer]) shared)
    {first : Answer} (hdraw : .draw drawer outcome ∈ before) (htold : .tell drawer first ∈ before)
    (hopen : ¬Closes (before ++ .enter caller .start :: after)) :
    answer = .started (startedAgain outcome) := by
  obtain ⟨_, rfl, hanswer⟩ := h.told_of_start (List.mem_append_right _ List.mem_cons_self)
  obtain ⟨_, hcall, _⟩ := h.concat_inv
  obtain ⟨_, hcells, _⟩ := hcall.tracks
  rcases hanswer with ⟨_, hown, _⟩ | ⟨_, ⟨seen, rest, middle, heq, hrun, hentered, rfl⟩, rfl⟩
  · -- the caller would have drawn, so it would be the one that was told its answer before
    obtain rfl := hcells.drawn_unique (List.mem_append_left _ hdraw) hown
    rw [List.append_cons] at hcall
    obtain ⟨_, hbegun, _⟩ := hcall.append_inv
    obtain ⟨_, hbefore, hstep⟩ := hbegun.concat_inv
    obtain ⟨_, hdone⟩ := hbefore.done htold
    cases hstep with
    | enter => exact absurd hdone (by simp)
    | act _ hstep => cases hstep
  · obtain ⟨later, rfl⟩ := hcall.prefix_of_entered heq hentered
    obtain ⟨_, htracks⟩ := hrun.tracks
    obtain rfl := htracks.settled hrun (List.mem_append_left _ hdraw) (List.mem_append_left _ htold)
    rw [heq] at hopen
    rw [htracks.cells.current_settled fun hclose => hopen hclose.mono]

/-! ## Every run -/

/-- **Whatever its callers do, a shared session is safe.** For every run of callers that start a
session, ask for its atlas or close it, in any order of their steps and with any outcome of drawing:
the atlas is drawn at most once, and by one caller; the state follows its life cycle, and a closed
session stays closed; a ready session has the atlas and a failed one the text of the failure, so
that nobody is told of an empty cell; every atlas that is given is the one that was drawn; whoever
asks after a close is told that the session is closed; and whoever starts the session after drawing
has come to its end is told how it ended. -/
theorem callers_safe (h : Run (new root) events shared) : Safe events shared := by
  obtain ⟨progress, htracks⟩ := h.tracks
  have hcells := htracks.cells
  constructor
  case drawn_once =>
    rw [hcells.drawn]
    exact progress.length_draws_le
  case draws_alone =>
    intro caller call hcaller
    obtain rfl := Progress.of_owner_drawing ((htracks.roles _ _ rfl).1 ⟨call, hcaller⟩)
    refine ⟨hcells.drawn, fun other call' hother => ?_⟩
    obtain ⟨rfl, _⟩ := Prod.mk.inj (Option.some.inj ((htracks.roles _ _ rfl).1 ⟨call', hother⟩))
    rfl
  case moves => exact fun _ _ hstep => hstep.moves
  case stays_closed => exact fun _ _ hrun hclosed => hrun.closed hclosed
  case ready =>
    intro hready
    obtain ⟨drawer, atlas, rfl⟩ := Progress.exists_of_state_ready
      ((hcells.state_eq (by simp [hready])).symm.trans hready)
    exact ⟨drawer, atlas, hcells.mem_draws_iff.2 (List.mem_singleton_self _), hcells.atlas⟩
  case failed =>
    intro hfailed
    obtain ⟨drawer, failure, rfl⟩ := Progress.exists_of_state_failed
      ((hcells.state_eq (by simp [hfailed])).symm.trans hfailed)
    exact ⟨drawer, failure, hcells.mem_draws_iff.2 (List.mem_singleton_self _), hcells.failure⟩
  case none_missing =>
    exact fun _ hfailure _ => ⟨fun htold => h.not_missing_of_atlas htold hfailure,
      fun htold => h.drawn_of_missing htold hfailure⟩
  case atlas_drawn => exact fun _ _ htold => h.drawn_of_atlas htold
  case after_close =>
    intro before after rest caller answer heq hclose
    subst heq
    rw [List.append_cons] at h
    obtain ⟨_, hrun, _⟩ := h.append_inv
    exact hrun.current_after_close hclose
  case after_draw =>
    intro before after rest drawer outcome first caller answer heq hdraw htold hopen
    subst heq
    rw [List.append_cons] at h
    obtain ⟨_, hrun, _⟩ := h.append_inv
    exact hrun.start_after_draw hdraw htold hopen

/-- Two callers start a session; while the first one draws, the second one is told to wait. A third
caller has seen the session ready when a fourth one closes it, and is still given the atlas; a fifth
one comes too late. -/
def raceOfCallers : List Event :=
  [.enter 0 .start, .enter 1 .start, .step 0, .step 1, .draw 0 (.ok default), .step 1, .step 0,
    .tell 1 (.started (.error (.contextNotReady "analysis is still initializing"))), .step 0,
    .enter 2 .current, .step 2, .step 0, .enter 3 .close, .tell 3 .closed,
    .tell 2 (.atlas (.ok default)), .tell 0 (.started (.ok ())), .enter 4 .current, .step 4,
    .tell 4 (.atlas (.error .contextClosed))]

/-- The shared session after the race. -/
def sharedAfterRace : SharedSession where
  session := { root := .ofString "/p", state := .closed, atlas := some default }
  callers := [(.start, .done), (.start, .done), (.current, .done), (.close, .done),
    (.current, .done)]

theorem callers_safe_race : Run (new (.ofString "/p")) raceOfCallers sharedAfterRace ∧
    Safe raceOfCallers sharedAfterRace := by
  have hrun : Run (new (.ofString "/p")) raceOfCallers sharedAfterRace := by
    refine .cons (.enter _ _) (.cons (.enter _ _) ?_)
    refine .cons (.act rfl (.begin rfl)) (.cons (.act rfl (.join rfl)) ?_)
    refine .cons (.act rfl (.draw _)) (.cons (.act rfl .ask) ?_)
    refine .cons (.act rfl .store) ?_
    refine .cons (@Step.act _ 1 .start (.fetching .initializing) _ _ _ rfl .tellStarted) ?_
    refine .cons (.act rfl .succeed) (.cons (.enter _ _) ?_)
    refine .cons (.act rfl .ask) (.cons (.act rfl .ask) ?_)
    refine .cons (.enter _ _) (.cons (.act rfl .close) ?_)
    refine .cons (@Step.act _ 2 .current (.fetching .ready) _ _ _ rfl .tellAtlas) ?_
    refine .cons (@Step.act _ 0 .start (.fetching .ready) _ _ _ rfl .tellStarted) ?_
    refine .cons (.enter _ _) (.cons (.act rfl .ask) ?_)
    exact .single (@Step.act _ 4 .current (.fetching .closed) _ _ _ rfl .tellAtlas)
  exact ⟨hrun, callers_safe hrun⟩

end SharedSession

end JavaAtlas
