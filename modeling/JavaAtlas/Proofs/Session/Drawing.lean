import Mathlib.Data.List.Basic
import JavaAtlas.Proofs.Session
import JavaAtlas.Proofs.Session.Shared

set_option autoImplicit false

/-! # How far drawing has come

The drawing of the atlas makes progress through five stages, in each of which at most one caller has
drawing to do. The stage determines the atlas and the failure text that are stored, and it
determines the state unless the session has been closed. Every step of every caller leaves the stage
or moves it on by one (`Tracks.step`), so every run keeps track of it (`Run.tracks`). -/

namespace JavaAtlas.SharedSession

/-! ## Progress -/

/-- How far drawing has come, by which caller, and with what outcome. -/
inductive Progress where
  | waiting
  | drawing (caller : Nat)
  | drawn (caller : Nat) (outcome : Except Failure Atlas)
  | stored (caller : Nat) (outcome : Except Failure Atlas)
  | settled (caller : Nat) (outcome : Except Failure Atlas)

namespace Progress

/-- The state of a session that nobody has closed. -/
def state : Progress → SessionState
  | waiting => .uninitialized
  | drawing _ | drawn _ _ | stored _ _ => .initializing
  | settled _ (.ok _) => .ready
  | settled _ (.error _) => .failed

/-- The cell of the atlas. -/
def atlas : Progress → Option Atlas
  | stored _ (.ok atlas) | settled _ (.ok atlas) => some atlas
  | _ => none

/-- The cell of the failure. -/
def failure : Progress → Option String
  | stored _ (.error failure) | settled _ (.error failure) => some failure.message
  | _ => none

/-- What has been drawn. -/
def draws : Progress → List (Nat × Except Failure Atlas)
  | waiting | drawing _ => []
  | drawn caller outcome | stored caller outcome | settled caller outcome => [(caller, outcome)]

/-- The caller that has drawing to do, and where it stands. -/
def owner? : Progress → Option (Nat × Position)
  | drawing caller => some (caller, .drawing)
  | drawn caller outcome => some (caller, .storing outcome)
  | stored caller outcome => some (caller, .settling outcome)
  | waiting | settled _ _ => none

theorem of_owner_drawing {progress : Progress} {caller : Nat}
    (h : progress.owner? = some (caller, .drawing)) : progress = .drawing caller := by
  cases progress <;> simp_all [owner?]

theorem of_owner_storing {progress : Progress} {caller : Nat} {outcome : Except Failure Atlas}
    (h : progress.owner? = some (caller, .storing outcome)) : progress = .drawn caller outcome := by
  cases progress <;> simp_all [owner?]

theorem of_owner_settling {progress : Progress} {caller : Nat} {outcome : Except Failure Atlas}
    (h : progress.owner? = some (caller, .settling outcome)) :
    progress = .stored caller outcome := by
  cases progress <;> simp_all [owner?]

theorem length_draws_le (progress : Progress) : progress.draws.length ≤ 1 := by
  cases progress <;> simp [draws]

theorem eq_waiting_of_state {progress : Progress} (h : progress.state = .uninitialized) :
    progress = .waiting := by
  cases progress with
  | waiting => rfl
  | settled _ outcome => cases outcome <;> exact absurd h (by simp [state])
  | drawing | drawn | stored => exact absurd h (by simp [state])

theorem exists_of_state_ready {progress : Progress} (h : progress.state = .ready) :
    ∃ caller atlas, progress = .settled caller (.ok atlas) := by
  cases progress with
  | settled caller outcome => cases outcome with
    | ok atlas => exact ⟨caller, atlas, rfl⟩
    | error _ => exact absurd h (by simp [state])
  | waiting | drawing | drawn | stored => exact absurd h (by simp [state])

theorem exists_of_state_failed {progress : Progress} (h : progress.state = .failed) :
    ∃ caller failure, progress = .settled caller (.error failure) := by
  cases progress with
  | settled caller outcome => cases outcome with
    | ok _ => exact absurd h (by simp [state])
    | error failure => exact ⟨caller, failure, rfl⟩
  | waiting | drawing | drawn | stored => exact absurd h (by simp [state])

end Progress

/-! ## The cells -/

variable {root : Path} {progress progress' : Progress} {events : List Event} {event : Event}
  {shared shared' : SharedSession} {session session' : Session} {caller : Nat} {call : Call}
  {position position' : Position} {callers : List (Call × Position)}

/-- Whether some caller has closed the session. -/
def Closes (events : List Event) : Prop := ∃ caller, .tell caller .closed ∈ events

theorem Closes.mono {events' : List Event} (h : Closes events) : Closes (events ++ events') := by
  obtain ⟨caller, hmem⟩ := h
  exact ⟨caller, List.mem_append_left _ hmem⟩

theorem closes_concat_iff :
    Closes (events ++ [event]) ↔ Closes events ∨ ∃ caller, event = .tell caller .closed := by
  simp [Closes, exists_or, eq_comm]

/-- Whether the cells are as far as drawing. -/
structure Cells (progress : Progress) (events : List Event) (session : Session) : Prop where
  opened : ¬Closes events → session.state = progress.state
  closed : Closes events → session.state = .closed
  atlas : session.atlas = progress.atlas
  failure : session.failure = progress.failure
  drawn : events.filterMap Event.drawn? = progress.draws

/-- Whether an event neither draws an atlas nor closes the session. -/
def Event.IsQuiet (event : Event) : Prop :=
  event.drawn? = none ∧ ∀ caller, event ≠ .tell caller .closed

namespace Cells

/-- A step that is not noticed in the state takes the cells to where they belong. -/
theorem quiet (h : Cells progress events session) (hquiet : event.IsQuiet)
    (hstate : session.state = progress.state → session'.state = progress'.state)
    (hclosed : session.state = .closed → session'.state = .closed)
    (hatlas : session'.atlas = progress'.atlas) (hfailure : session'.failure = progress'.failure)
    (hdraws : progress'.draws = progress.draws) : Cells progress' (events ++ [event]) session' := by
  have hcloses : Closes (events ++ [event]) ↔ Closes events := by
    rw [closes_concat_iff]
    exact or_iff_left fun ⟨caller, h⟩ => hquiet.2 caller h
  refine ⟨fun hopen => hstate (h.opened (hcloses.not.1 hopen)),
    fun hclose => hclosed (h.closed (hcloses.1 hclose)), hatlas, hfailure, ?_⟩
  rw [List.filterMap_append, List.filterMap_cons_none hquiet.1, List.filterMap_nil,
    List.append_nil, h.drawn, hdraws]

theorem refl (h : Cells progress events session) (hquiet : event.IsQuiet) :
    Cells progress (events ++ [event]) session :=
  h.quiet hquiet id id h.atlas h.failure rfl

theorem mem_draws_iff (h : Cells progress events session) {outcome : Except Failure Atlas} :
    .draw caller outcome ∈ events ↔ (caller, outcome) ∈ progress.draws := by
  rw [← h.drawn, List.mem_filterMap]
  constructor
  · intro hmem
    exact ⟨_, hmem, rfl⟩
  · rintro ⟨event, hmem, hevent⟩
    cases event with
    | draw => obtain ⟨rfl, rfl⟩ := Prod.mk.inj (Option.some.inj hevent); exact hmem
    | enter | step | tell => exact absurd hevent (by simp [Event.drawn?])

theorem state_cases (h : Cells progress events session) :
    session.state = progress.state ∨ session.state = .closed ∧ Closes events := by
  by_cases hclose : Closes events
  · exact .inr ⟨h.closed hclose, hclose⟩
  · exact .inl (h.opened hclose)

theorem state_eq (h : Cells progress events session) (hstate : session.state ≠ .closed) :
    session.state = progress.state :=
  h.state_cases.resolve_right fun hclosed => hstate hclosed.1

end Cells

/-! ## The cells, one step on -/

namespace Cells

variable {outcome : Except Failure Atlas}

theorem begin (h : Cells .waiting events session) (hbegin : session.begin = some session')
    (hquiet : event.IsQuiet) : Cells (.drawing caller) (events ++ [event]) session' := by
  obtain ⟨hstate, rfl⟩ := Session.begin_eq_some_iff.1 hbegin
  refine h.quiet hquiet (fun _ => rfl) (fun hclosed => ?_) h.atlas h.failure rfl
  rw [hstate] at hclosed
  exact SessionState.noConfusion hclosed

theorem draw (h : Cells (.drawing caller) events session) :
    Cells (.drawn caller outcome) (events ++ [.draw caller outcome]) session := by
  have hcloses : Closes (events ++ [.draw caller outcome]) ↔ Closes events := by
    rw [closes_concat_iff]
    exact or_iff_left nofun
  refine ⟨fun hopen => h.opened (hcloses.not.1 hopen), fun hclose => h.closed (hcloses.1 hclose),
    h.atlas, h.failure, ?_⟩
  rw [List.filterMap_append, h.drawn]
  rfl

theorem store (h : Cells (.drawn caller outcome) events session) (hquiet : event.IsQuiet) :
    Cells (.stored caller outcome) (events ++ [event]) (session.store outcome) := by
  have hatlas := h.atlas
  have hfailure := h.failure
  cases outcome with
  | ok atlas =>
    refine h.quiet hquiet id id ?_ hfailure rfl
    simp [Session.store, Session.storeAtlas, hatlas, Progress.atlas]
  | error failure =>
    refine h.quiet hquiet id id hatlas ?_ rfl
    simp [Session.store, Session.storeFailure, hfailure, Progress.failure]

theorem settle (h : Cells (.stored caller outcome) events session) (hquiet : event.IsQuiet) :
    Cells (.settled caller outcome) (events ++ [event]) (session.settle outcome) := by
  cases outcome with
  | ok atlas =>
    refine h.quiet hquiet (fun hstate => ?_) (fun hclosed => ?_) ?_ ?_ rfl
    · simp [Session.settle, Session.move, hstate, Progress.state]
    · simp [Session.settle, Session.move, hclosed]
    · rw [Session.settle, Session.atlas_move]
      exact h.atlas
    · rw [Session.settle, Session.failure_move]
      exact h.failure
  | error failure =>
    refine h.quiet hquiet (fun hstate => ?_) (fun hclosed => ?_) ?_ ?_ rfl
    · simp [Session.settle, Session.move, hstate, Progress.state]
    · simp [Session.settle, Session.move, hclosed]
    · rw [Session.settle, Session.atlas_move]
      exact h.atlas
    · rw [Session.settle, Session.failure_move]
      exact h.failure

theorem close (h : Cells progress events session) :
    Cells progress (events ++ [.tell caller .closed]) session.close := by
  have hcloses : Closes (events ++ [.tell caller .closed]) :=
    closes_concat_iff.2 (.inr ⟨caller, rfl⟩)
  refine ⟨fun hopen => absurd hcloses hopen, fun _ => rfl, h.atlas, h.failure, ?_⟩
  rw [List.filterMap_append, h.drawn]
  exact List.append_nil _

end Cells

/-! ## The callers -/

/-- Whether a caller in the position has drawing to do. -/
def Position.owns : Position → Bool
  | .drawing | .storing _ | .settling _ => true
  | .entering | .asking | .fetching _ | .closing | .done => false

/-- Whether exactly the owner has drawing to do. -/
def Roles (callers : List (Call × Position)) (owner? : Option (Nat × Position)) : Prop :=
  ∀ caller position, position.owns = true →
    ((∃ call, callers[caller]? = some (call, position)) ↔ owner? = some (caller, position))

theorem getElem?_set_iff {other : Nat} {entry entry' : Call × Position}
    (h : callers[caller]? = some entry) {found : Call × Position} :
    (callers.set caller entry')[other]? = some found ↔
      caller = other ∧ entry' = found ∨ caller ≠ other ∧ callers[other]? = some found := by
  obtain ⟨hlt, _⟩ := List.getElem?_eq_some_iff.1 h
  rw [List.getElem?_set]
  by_cases hother : caller = other
  · simp [hother, hother ▸ hlt]
  · simp [hother]

theorem getElem?_concat_iff {other : Nat} {entry found : Call × Position} :
    (callers ++ [entry])[other]? = some found ↔
      callers[other]? = some found ∨ other = callers.length ∧ entry = found := by
  rw [List.getElem?_append]
  by_cases hlt : other < callers.length
  · rw [if_pos hlt]
    simp [Nat.ne_of_lt hlt]
  · rw [if_neg hlt, List.getElem?_eq_none (Nat.le_of_not_lt hlt)]
    by_cases heq : other = callers.length
    · simp [heq]
    · have hpos : other - callers.length ≠ 0 := by omega
      simp [heq, hpos]

namespace Roles

/-- A caller without drawing to do goes on to another such position. -/
theorem quiet {owner? : Option (Nat × Position)} (h : Roles callers owner?)
    (hcaller : callers[caller]? = some (call, position)) (hposition : position.owns = false)
    (hposition' : position'.owns = false) :
    Roles (callers.set caller (call, position')) owner? := by
  intro other found hfound
  rw [← h other found hfound]
  refine exists_congr fun call' => ?_
  rw [getElem?_set_iff hcaller]
  constructor
  · rintro (⟨_, heq⟩ | ⟨_, hmem⟩)
    · obtain ⟨_, rfl⟩ := Prod.mk.inj heq
      exact absurd hfound (by simp [hposition'])
    · exact hmem
  · intro hmem
    refine .inr ⟨?_, hmem⟩
    rintro rfl
    rw [hcaller] at hmem
    obtain ⟨_, rfl⟩ := Prod.mk.inj (Option.some.inj hmem)
    exact absurd hfound (by simp [hposition])

/-- The owner goes on, or a caller becomes the owner because there is none. -/
theorem advance {owner? : Option (Nat × Position)} (h : Roles callers owner?)
    (hcaller : callers[caller]? = some (call, position))
    (howner : ∀ other found, owner? = some (other, found) → other = caller) :
    Roles (callers.set caller (call, position')) (some (caller, position')) := by
  intro other found hfound
  constructor
  · rintro ⟨call', hmem⟩
    rcases (getElem?_set_iff hcaller).1 hmem with ⟨rfl, heq⟩ | ⟨hne, hmem⟩
    · obtain ⟨_, rfl⟩ := Prod.mk.inj heq
      rfl
    · exact absurd (howner _ _ ((h other found hfound).1 ⟨call', hmem⟩)).symm hne
  · intro heq
    obtain ⟨rfl, rfl⟩ := Prod.mk.inj (Option.some.inj heq)
    exact ⟨call, (getElem?_set_iff hcaller).2 (.inl ⟨rfl, rfl⟩)⟩

/-- The owner has no more drawing to do. -/
theorem retire {owner? : Option (Nat × Position)} (h : Roles callers owner?)
    (hcaller : callers[caller]? = some (call, position))
    (howner : ∀ other found, owner? = some (other, found) → other = caller)
    (hposition' : position'.owns = false) : Roles (callers.set caller (call, position')) none := by
  intro other found hfound
  refine iff_of_false ?_ (by simp)
  rintro ⟨call', hmem⟩
  rcases (getElem?_set_iff hcaller).1 hmem with ⟨rfl, heq⟩ | ⟨hne, hmem⟩
  · obtain ⟨_, rfl⟩ := Prod.mk.inj heq
    exact absurd hfound (by simp [hposition'])
  · exact absurd (howner _ _ ((h other found hfound).1 ⟨call', hmem⟩)).symm hne

theorem enter {owner? : Option (Nat × Position)} (h : Roles callers owner?) (call : Call) :
    Roles (callers ++ [(call, call.entry)]) owner? := by
  intro other found hfound
  rw [← h other found hfound]
  refine exists_congr fun call' => ?_
  rw [getElem?_concat_iff]
  refine or_iff_left ?_
  rintro ⟨_, heq⟩
  obtain ⟨_, rfl⟩ := Prod.mk.inj heq
  cases call <;> exact absurd hfound (by simp [Call.entry, Position.owns])

end Roles

/-! ## One step -/

/-- Whether the shared session, after these events, is as far as drawing. -/
structure Tracks (progress : Progress) (events : List Event) (shared : SharedSession) : Prop where
  cells : Cells progress events shared.session
  roles : Roles shared.callers progress.owner?

/-- The session that nobody has called waits. -/
theorem tracks_new (root : Path) : Tracks .waiting [] (new root) := by
  refine ⟨⟨fun _ => rfl, fun ⟨_, hmem⟩ => absurd hmem List.not_mem_nil, rfl, rfl, rfl⟩, ?_⟩
  intro caller position _
  refine iff_of_false ?_ (by simp [Progress.owner?])
  rintro ⟨call, hcaller⟩
  exact absurd hcaller (by simp [new])

theorem Tracks.act (h : Tracks progress events shared)
    (hcaller : shared.callers[caller]? = some (call, position))
    (hstep : CallerStep caller call shared.session position event session' position') :
    ∃ progress', Tracks progress' (events ++ [event])
      ⟨session', shared.callers.set caller (call, position')⟩ := by
  obtain ⟨hcells, hroles⟩ := h
  have howner (howns : position.owns = true) : progress.owner? = some (caller, position) :=
    (hroles caller position howns).1 ⟨call, hcaller⟩
  cases hstep with
  | begin hbegin =>
    have hstate := (Session.begin_eq_some_iff.1 hbegin).1
    have hprogress : progress.state = .uninitialized := by
      rw [← hcells.state_eq (by simp [hstate]), hstate]
    obtain rfl := Progress.eq_waiting_of_state hprogress
    exact ⟨_, hcells.begin hbegin ⟨rfl, nofun⟩, hroles.advance hcaller nofun⟩
  | draw outcome =>
    obtain rfl := Progress.of_owner_drawing (howner rfl)
    exact ⟨_, hcells.draw, hroles.advance hcaller fun _ _ howner => by cases howner; rfl⟩
  | store =>
    obtain rfl := Progress.of_owner_storing (howner rfl)
    exact ⟨_, hcells.store ⟨rfl, nofun⟩,
      hroles.advance hcaller fun _ _ howner => by cases howner; rfl⟩
  | succeed =>
    obtain rfl := Progress.of_owner_settling (howner rfl)
    exact ⟨_, hcells.settle ⟨rfl, nofun⟩,
      hroles.retire hcaller (fun _ _ howner => by cases howner; rfl) rfl⟩
  | fail =>
    obtain rfl := Progress.of_owner_settling (howner rfl)
    exact ⟨_, hcells.settle ⟨rfl, nofun⟩,
      hroles.retire hcaller (fun _ _ howner => by cases howner; rfl) rfl⟩
  | join | ask | tellStarted | tellAtlas =>
    exact ⟨progress, hcells.refl ⟨rfl, nofun⟩, hroles.quiet hcaller rfl rfl⟩
  | close => exact ⟨progress, hcells.close, hroles.quiet hcaller rfl rfl⟩

theorem Tracks.step (h : Tracks progress events shared) (hstep : Step shared event shared') :
    ∃ progress', Tracks progress' (events ++ [event]) shared' := by
  cases hstep with
  | enter call => exact ⟨progress, h.cells.refl ⟨rfl, nofun⟩, h.roles.enter call⟩
  | act hcaller hstep => exact h.act hcaller hstep

/-- Every run of callers is as far as drawing has come. -/
theorem Run.tracks (h : Run (new root) events shared) :
    ∃ progress, Tracks progress events shared := by
  induction h with
  | nil => exact ⟨.waiting, tracks_new root⟩
  | snoc _ hstep ih =>
    obtain ⟨progress, htracks⟩ := ih
    exact htracks.step hstep

end JavaAtlas.SharedSession
