import JavaAtlas.Dispatch
import JavaAtlas.Proofs.Catalogue.Builtin
import JavaAtlas.Proofs.Session

set_option autoImplicit false

/-! # How invocations fail

An invocation is turned away at the first of three doors: the name, the arguments and the state of
the session (`refusal?`). Behind them an operation of the catalogue runs, and it fails as a query
fails or because its answer has no wire form (`run_cases`). The kinds of these failures do not
overlap, so a client learns from the kind at which door it was turned away. -/

namespace JavaAtlas

theorem FailureKind.name_inj {kind kind' : FailureKind} (h : kind.name = kind'.name) :
    kind = kind' := by
  cases kind <;> cases kind' <;> first | rfl | exact absurd h (by decide)

/-- Whether an outcome is a failure of a kind. -/
def FailsAs {α : Type} (kind : FailureKind) (outcome : Except Failure α) : Prop :=
  ∃ failure, outcome = .error failure ∧ failure.kind = kind

theorem failsAs_error_iff {α : Type} {kind : FailureKind} {failure : Failure} :
    FailsAs kind (.error failure : Except Failure α) ↔ failure.kind = kind := by
  constructor
  · rintro ⟨_, h, hkind⟩
    obtain rfl := Except.error.inj h
    exact hkind
  · intro hkind
    exact ⟨failure, rfl, hkind⟩

theorem FailsAs.unique {α : Type} {kind kind' : FailureKind} {outcome : Except Failure α}
    (h : FailsAs kind outcome) (h' : FailsAs kind' outcome) : kind = kind' := by
  obtain ⟨failure, rfl, hkind⟩ := h
  exact hkind.symm.trans (failsAs_error_iff.1 h')

/-- Whether an outcome is one that an operation can have once it runs. -/
def IsAnswered {α : Type} (outcome : Except Failure α) : Prop :=
  (∃ value, outcome = .ok value) ∨ FailsAs .analysis outcome ∨ FailsAs .encoding outcome ∨
    FailsAs .keyCollision outcome

theorem IsAnswered.kind {α : Type} {kind : FailureKind} {outcome : Except Failure α}
    (hanswered : IsAnswered outcome) (h : FailsAs kind outcome) :
    kind = .analysis ∨ kind = .encoding ∨ kind = .keyCollision := by
  rcases hanswered with ⟨value, rfl⟩ | hfails | hfails | hfails
  · obtain ⟨_, hok, _⟩ := h
    exact absurd hok (by simp)
  · exact .inl (h.unique hfails)
  · exact .inr (.inl (h.unique hfails))
  · exact .inr (.inr (h.unique hfails))

theorem Operation.run_of_error {operation : Operation} {atlas : Atlas} {files : FileSystem}
    {arguments : Arguments} {failure : Failure}
    (h : operation.action atlas files arguments = .error failure) :
    operation.run atlas files arguments = .error failure := by
  unfold Operation.run
  rw [h]

theorem Operation.run_eq_ok_iff {operation : Operation} {atlas : Atlas} {files : FileSystem}
    {arguments : Arguments} {value : Json} :
    operation.run atlas files arguments = .ok value ↔
      operation.action atlas files arguments = .ok (.ok value) := by
  unfold Operation.run
  cases operation.action atlas files arguments with
  | error failure => simp
  | ok encoded => cases encoded <;> simp

/-- What an operation whose action answers comes to when it runs. -/
theorem Operation.run_cases {operation : Operation} {parameters : List Parameter} {atlas : Atlas}
    {files : FileSystem} {arguments : Arguments}
    (hanswers : Catalogue.Answers parameters operation.action)
    (hconforms : arguments.Conforms parameters) :
    IsAnswered (operation.run atlas files arguments) := by
  unfold Operation.run
  rcases hanswers atlas files arguments hconforms with ⟨encoded, h⟩ | ⟨problem, h⟩
  · rw [h]
    cases encoded with
    | ok value => exact .inl ⟨value, rfl⟩
    | error error =>
      cases error with
      | unencodable subject => exact .inr (.inr (.inl ⟨_, rfl, rfl⟩))
      | keyCollision key => exact .inr (.inr (.inr ⟨_, rfl, rfl⟩))
  · rw [h]
    exact .inr (.inl ⟨_, rfl, rfl⟩)

namespace Registry

/-! ## Refusals -/

/-- The kind of failure with which an invocation is turned away before the operation runs. -/
def refusal? (registry : Registry) (session : Session) (name : String)
    (raw : List (String × Json)) : Option FailureKind :=
  match registry.find? name with
  | none => some .unknownOperation
  | some operation => match Arguments.validate operation.descriptor raw with
    | .error _ => some .invalidArguments
    | .ok _ => Session.refusal? session.state

variable {registry : Registry} {session : Session} {files : FileSystem} {name : String}
  {raw : List (String × Json)}

theorem refusal?_eq_unknown_iff :
    registry.refusal? session name raw = some .unknownOperation ↔ name ∉ registry.names := by
  rw [← find?_eq_none_iff]
  unfold refusal?
  cases registry.find? name with
  | none => simp
  | some operation =>
    cases hvalidate : Arguments.validate operation.descriptor raw with
    | error failure => simp [hvalidate]
    | ok arguments => cases session.state <;> simp [hvalidate, Session.refusal?]

theorem refusal?_eq_invalid_iff {operation : Operation}
    (h : registry.find? name = some operation) :
    registry.refusal? session name raw = some .invalidArguments ↔
      ∃ failure, Arguments.validate operation.descriptor raw = .error failure := by
  unfold refusal?
  rw [h]
  cases hvalidate : Arguments.validate operation.descriptor raw with
  | error failure => simp [hvalidate]
  | ok arguments => cases session.state <;> simp [hvalidate, Session.refusal?]

theorem refusal?_of_valid {operation : Operation} {arguments : Arguments}
    (h : registry.find? name = some operation)
    (hvalidate : Arguments.validate operation.descriptor raw = .ok arguments) :
    registry.refusal? session name raw = Session.refusal? session.state := by
  unfold refusal?
  rw [h]
  simp only [hvalidate]

/-! ## Invocations -/

theorem invoke_of_unknown (h : registry.find? name = none) :
    registry.invoke session files name raw = .error (.unknownOperation name) := by
  unfold invoke resolve
  rw [h]
  rfl

theorem invoke_of_invalid {operation : Operation} {failure : Failure}
    (h : registry.find? name = some operation)
    (hvalidate : Arguments.validate operation.descriptor raw = .error failure) :
    registry.invoke session files name raw = .error failure := by
  unfold invoke resolve
  rw [h]
  show (Arguments.validate operation.descriptor raw >>= _) = _
  rw [hvalidate]
  rfl

theorem invoke_of_valid {operation : Operation} {arguments : Arguments}
    (h : registry.find? name = some operation)
    (hvalidate : Arguments.validate operation.descriptor raw = .ok arguments) :
    registry.invoke session files name raw =
      session.current >>= fun atlas => operation.run atlas files arguments := by
  unfold invoke resolve
  rw [h]
  show (Arguments.validate operation.descriptor raw >>= _) = _
  rw [hvalidate]
  rfl

/-- An invocation succeeds exactly if it is not turned away and the operation answers for the atlas
of the session. -/
theorem invoke_eq_ok_iff {value : Json} :
    registry.invoke session files name raw = .ok value ↔
      ∃ operation arguments atlas, registry.find? name = some operation ∧
        Arguments.validate operation.descriptor raw = .ok arguments ∧
        session.current = .ok atlas ∧
        operation.action atlas files arguments = .ok (.ok value) := by
  constructor
  · intro h
    cases hfind : registry.find? name with
    | none =>
      rw [invoke_of_unknown hfind] at h
      exact absurd h (by simp)
    | some operation =>
      cases hvalidate : Arguments.validate operation.descriptor raw with
      | error failure =>
        rw [invoke_of_invalid hfind hvalidate] at h
        exact absurd h (by simp)
      | ok arguments =>
        rw [invoke_of_valid hfind hvalidate] at h
        obtain ⟨atlas, hcurrent, hrun⟩ := Fallible.bind_eq_ok_iff.1 h
        exact ⟨operation, arguments, atlas, rfl, hvalidate, hcurrent,
          Operation.run_eq_ok_iff.1 hrun⟩
  · rintro ⟨operation, arguments, atlas, hfind, hvalidate, hcurrent, haction⟩
    rw [invoke_of_valid hfind hvalidate]
    exact Fallible.bind_eq_ok_iff.2 ⟨atlas, hcurrent, Operation.run_eq_ok_iff.2 haction⟩

/-- An invocation that is turned away fails as its refusal says. -/
theorem failsAs_of_refusal {kind : FailureKind}
    (h : registry.refusal? session name raw = some kind) :
    FailsAs kind (registry.invoke session files name raw) := by
  unfold refusal? at h
  cases hfind : registry.find? name with
  | none =>
    rw [hfind] at h
    rw [invoke_of_unknown hfind]
    exact ⟨_, rfl, Option.some.inj h⟩
  | some operation =>
    rw [hfind] at h
    cases hvalidate : Arguments.validate operation.descriptor raw with
    | error failure =>
      simp only [hvalidate, Option.some.injEq] at h
      rw [invoke_of_invalid hfind hvalidate]
      exact ⟨failure, rfl, (Arguments.kind_of_validate_error hvalidate).trans h⟩
    | ok arguments =>
      simp only [hvalidate] at h
      obtain ⟨failure, hcurrent, hkind⟩ := Session.exists_current_of_refusal h
      rw [invoke_of_valid hfind hvalidate, hcurrent]
      exact ⟨failure, rfl, hkind⟩

/-- Whether the operations read what they declare. -/
def IsWellTyped (registry : Registry) : Prop :=
  ∀ operation ∈ registry.operations,
    Catalogue.Answers operation.descriptor.parameters operation.action ∧
      (operation.descriptor.parameters.map Parameter.name).Nodup

/-- An invocation that is not turned away comes to an answer. -/
theorem isAnswered_of_admitted (htyped : registry.IsWellTyped) (hsound : session.IsSound)
    (h : registry.refusal? session name raw = none) :
    IsAnswered (registry.invoke session files name raw) := by
  unfold refusal? at h
  cases hfind : registry.find? name with
  | none =>
    rw [hfind] at h
    exact absurd h (by simp)
  | some operation =>
    rw [hfind] at h
    cases hvalidate : Arguments.validate operation.descriptor raw with
    | error failure =>
      simp only [hvalidate] at h
      exact absurd h (by simp)
    | ok arguments =>
      simp only [hvalidate] at h
      obtain ⟨atlas, hcurrent⟩ :=
        Session.exists_current_of_ready hsound (Session.refusal?_eq_none_iff.1 h)
      obtain ⟨hanswers, hnodup⟩ := htyped operation (mem_of_find?_eq_some hfind).1
      rw [invoke_of_valid hfind hvalidate, hcurrent]
      exact Operation.run_cases hanswers (Arguments.conforms_of_validate hnodup hvalidate)

/-- The refusal can be read off the kind of the failure. -/
theorem failsAs_iff_refusal (htyped : registry.IsWellTyped) (hsound : session.IsSound)
    {kind : FailureKind} (hkind : kind ≠ .analysis ∧ kind ≠ .encoding ∧ kind ≠ .keyCollision) :
    FailsAs kind (registry.invoke session files name raw) ↔
      registry.refusal? session name raw = some kind := by
  refine ⟨fun h => ?_, failsAs_of_refusal⟩
  cases hrefusal : registry.refusal? session name raw with
  | none =>
    -- the operation runs, and what it can fail as is none of these kinds
    rcases (isAnswered_of_admitted htyped hsound hrefusal).kind h with heq | heq | heq
    · exact absurd heq hkind.1
    · exact absurd heq hkind.2.1
    · exact absurd heq hkind.2.2
  | some kind' => rw [(failsAs_of_refusal hrefusal).unique h]

/-! ## The catalogue -/

theorem isWellTyped_builtin (hbuiltin : ∀ operation ∈ registry.operations,
    ∃ c ∈ Catalogue.candidates, ∃ kind, operation = .ofCandidate kind c) :
    registry.IsWellTyped := by
  intro operation hoperation
  obtain ⟨c, hc, kind, rfl⟩ := hbuiltin operation hoperation
  exact ⟨Catalogue.answers_of_mem_candidates hc, Catalogue.nodup_parameterNames c hc⟩

theorem isWellTyped_of_builtin (h : Catalogue.builtin = .ok registry) : registry.IsWellTyped := by
  obtain ⟨registry', hregistry, _, hbuiltin⟩ := Catalogue.exists_builtin
  obtain rfl := Except.ok.inj (h.symm.trans hregistry)
  exact isWellTyped_builtin hbuiltin

/-- An invocation is told that the session is closed only if it is. -/
theorem state_of_failsAs_closed (htyped : registry.IsWellTyped)
    (h : FailsAs .contextClosed (registry.invoke session files name raw)) :
    session.state = .closed := by
  cases hfind : registry.find? name with
  | none =>
    rw [invoke_of_unknown hfind, failsAs_error_iff] at h
    cases h
  | some operation =>
    cases hvalidate : Arguments.validate operation.descriptor raw with
    | error failure =>
      rw [invoke_of_invalid hfind hvalidate, failsAs_error_iff,
        Arguments.kind_of_validate_error hvalidate] at h
      cases h
    | ok arguments =>
      rw [invoke_of_valid hfind hvalidate] at h
      cases hcurrent : session.current with
      | error failure =>
        rw [hcurrent] at h
        exact Session.state_of_current_closed hcurrent (failsAs_error_iff.1 h)
      | ok atlas =>
        obtain ⟨hanswers, hnodup⟩ := htyped operation (mem_of_find?_eq_some hfind).1
        rw [hcurrent] at h
        have hkind := (Operation.run_cases hanswers
          (Arguments.conforms_of_validate hnodup hvalidate)).kind h
        exact absurd hkind (by decide)

/-- **Every invocation is classified by its kind of failure.** An invocation of a built-in operation
fails for the name exactly if the name is not registered, else for the arguments exactly if they
are rejected, whatever the session is like, else for the session exactly if that is not ready; and
else it succeeds, or fails as a query or an encoding fails. No action fails to read its checked
arguments. -/
theorem invoke_classified :
    ∃ registry, Catalogue.builtin = .ok registry ∧
      (∀ name, name ∈ registry.names ↔ name ∈ Catalogue.candidates.map Candidate.name) ∧
      ∀ root session files name raw, Session.Reachable root session →
        let outcome := registry.invoke session files name raw
        (FailsAs .unknownOperation outcome ↔ name ∉ registry.names) ∧
        (name ∈ registry.names → ∃ operation, registry.find? name = some operation ∧
          (∃ c ∈ Catalogue.candidates, ∃ kind, operation = .ofCandidate kind c) ∧
          (FailsAs .invalidArguments outcome ↔
            ∃ failure, Arguments.validate operation.descriptor raw = .error failure) ∧
          ∀ arguments, Arguments.validate operation.descriptor raw = .ok arguments →
            (FailsAs .contextClosed outcome ↔ session.state = .closed) ∧
            (FailsAs .contextNotReady outcome ↔
              session.state ≠ .ready ∧ session.state ≠ .closed) ∧
            (session.state = .ready → (∃ value, outcome = .ok value) ∨
              FailsAs .analysis outcome ∨ FailsAs .encoding outcome ∨
                FailsAs .keyCollision outcome) ∧
            ∀ atlas, (∃ encoded, operation.action atlas files arguments = .ok encoded) ∨
              ∃ problem, operation.action atlas files arguments = .error (.analysis problem)) := by
  obtain ⟨registry, hregistry, hnames, hbuiltin⟩ := Catalogue.exists_builtin
  have htyped := isWellTyped_builtin hbuiltin
  refine ⟨registry, hregistry, hnames, ?_⟩
  intro root session files name raw hreachable outcome
  have hsound := hreachable.isSound
  refine ⟨?_, fun hname => ?_⟩
  · rw [failsAs_iff_refusal htyped hsound (by decide), refusal?_eq_unknown_iff]
  · obtain ⟨operation, hfind⟩ := exists_find?_of_mem_names hname
    have hoperation := (mem_of_find?_eq_some hfind).1
    refine ⟨operation, hfind, hbuiltin operation hoperation, ?_, fun arguments hvalidate => ?_⟩
    · rw [failsAs_iff_refusal htyped hsound (by decide), refusal?_eq_invalid_iff hfind]
    · have hrefusal : registry.refusal? session name raw = Session.refusal? session.state :=
        refusal?_of_valid hfind hvalidate
      refine ⟨?_, ?_, fun hready => ?_, fun atlas => ?_⟩
      · rw [failsAs_iff_refusal htyped hsound (by decide), hrefusal, Session.refusal?_eq_closed_iff]
      · rw [failsAs_iff_refusal htyped hsound (by decide), hrefusal,
          Session.refusal?_eq_notReady_iff]
      · exact isAnswered_of_admitted htyped hsound
          (hrefusal.trans (Session.refusal?_eq_none_iff.2 hready))
      · obtain ⟨hanswers, hnodup⟩ := htyped operation hoperation
        exact hanswers atlas files arguments (Arguments.conforms_of_validate hnodup hvalidate)

/-- A session that has been started and whose atlas is that of an empty report. -/
def startedSession : Session :=
  ((Session.new (.ofString "/p")).start fun root => .ok (Atlas.ofReport root {})).2

theorem invoke_classified_started :
    Session.Reachable (.ofString "/p") startedSession ∧ startedSession.state = .ready ∧
      ∃ registry, Catalogue.builtin = .ok registry ∧
        FailsAs .unknownOperation
          (registry.invoke startedSession default "get_everything_tool" []) ∧
        IsAnswered (registry.invoke startedSession default "are_we_ready_tool" []) := by
  have hreachable : Session.Reachable (.ofString "/p") startedSession :=
    Session.Reachable.new.start _
  obtain ⟨registry, hregistry, hnames, hinvoke⟩ := invoke_classified
  refine ⟨hreachable, rfl, registry, hregistry, ?_, ?_⟩
  · obtain ⟨hunknown, _⟩ := hinvoke _ _ default "get_everything_tool" [] hreachable
    rw [hunknown, hnames]
    decide +kernel
  · have hname : "are_we_ready_tool" ∈ registry.names := (hnames _).2 (by decide +kernel)
    obtain ⟨_, hfound⟩ := hinvoke _ _ default _ [] hreachable
    obtain ⟨_, hfind, ⟨c, hc, kind, rfl⟩, _, hvalid⟩ := hfound hname
    have hparameters : ∀ c ∈ Catalogue.candidates, c.name = "are_we_ready_tool" →
        c.parameters = [] := by decide +kernel
    have hvalidate : Arguments.validate (Operation.ofCandidate kind c).descriptor [] =
        .ok ⟨c.name, .empty⟩ := by
      unfold Arguments.validate Arguments.check Operation.ofCandidate
      rw [hparameters c hc (mem_of_find?_eq_some hfind).2]
      rfl
    exact (hvalid _ hvalidate).2.2.1 rfl

end Registry

end JavaAtlas
