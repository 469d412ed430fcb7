import Mathlib.Data.List.Nodup
import JavaAtlas.Operation.Registry
import JavaAtlas.Proofs.Data.Except
import JavaAtlas.Proofs.Data.Sorting

set_option autoImplicit false

/-! # Filling a registry

Registering fails only for a name that is taken, so a list of candidates with distinct names can be
registered in any order, and the registry then holds these candidates and no others
(`exists_discover`). Each registration keeps the operations in the order of their names
(`IsOrdered.register`), and with it a run of registrations does. -/

namespace JavaAtlas.Registry

/-! ## Lookup -/

theorem find?_eq_none_iff {registry : Registry} {name : String} :
    registry.find? name = none ↔ name ∉ registry.names := by
  unfold find? names
  simp

theorem mem_of_find?_eq_some {registry : Registry} {name : String} {operation : Operation}
    (h : registry.find? name = some operation) :
    operation ∈ registry.operations ∧ operation.name = name := by
  unfold find? at h
  have hname := List.find?_some h
  exact ⟨List.mem_of_find?_eq_some h, of_decide_eq_true hname⟩

theorem exists_find?_of_mem_names {registry : Registry} {name : String}
    (h : name ∈ registry.names) : ∃ operation, registry.find? name = some operation := by
  rw [← Option.ne_none_iff_exists']
  intro hnone
  exact find?_eq_none_iff.1 hnone h

/-! ## Registration -/

theorem mem_insertInOrder {operation other : Operation} {operations : List Operation} :
    other ∈ insertInOrder operation operations ↔ other = operation ∨ other ∈ operations := by
  induction operations with
  | nil => exact List.mem_cons
  | cons first rest ih =>
    rw [insertInOrder]
    split
    · exact List.mem_cons
    · rw [List.mem_cons, List.mem_cons, ih]
      constructor
      · rintro (h | h | h)
        · exact .inr (.inl h)
        · exact .inl h
        · exact .inr (.inr h)
      · rintro (h | h | h)
        · exact .inr (.inl h)
        · exact .inl h
        · exact .inr (.inr h)

theorem register_eq_ok {registry : Registry} {c : Candidate} (kind : OperationKind)
    (h : c.name ∉ registry.names) :
    registry.register kind c = .ok ⟨insertInOrder (.ofCandidate kind c) registry.operations⟩ := by
  unfold register
  rw [find?_eq_none_iff.2 h]

theorem register_eq_error {registry : Registry} {c : Candidate} (kind : OperationKind)
    (h : c.name ∈ registry.names) :
    registry.register kind c = .error (.duplicateName c.name) := by
  obtain ⟨operation, hfind⟩ := exists_find?_of_mem_names h
  unfold register
  rw [hfind]

/-! ## The order of operations -/

/-- Whether the operations are in the order of their names, with no name twice. -/
def IsOrdered (registry : Registry) : Prop := IncreasingBy Operation.name registry.operations

theorem isOrdered_empty : empty.IsOrdered := List.Pairwise.nil

theorem increasingBy_insertInOrder {operation : Operation} {operations : List Operation}
    (h : IncreasingBy Operation.name operations)
    (hfresh : operation.name ∉ operations.map Operation.name) :
    IncreasingBy Operation.name (insertInOrder operation operations) := by
  induction operations with
  | nil => exact List.pairwise_singleton ..
  | cons other rest ih =>
    obtain ⟨hother, hrest⟩ := List.pairwise_cons.1 h
    rw [List.map_cons, List.mem_cons, not_or] at hfresh
    rw [insertInOrder]
    split
    · next hlt =>
      refine List.pairwise_cons.2 ⟨fun later hlater => ?_, h⟩
      rcases List.mem_cons.1 hlater with rfl | hlater
      · exact hlt
      · exact String.lt_trans hlt (hother later hlater)
    · next hle =>
      -- the new operation comes after the first one, whose name is another one
      have hlt : other.name < operation.name := lt_of_le_of_ne hle (Ne.symm hfresh.1)
      refine List.pairwise_cons.2 ⟨fun later hlater => ?_, ih hrest hfresh.2⟩
      rcases mem_insertInOrder.1 hlater with rfl | hlater
      · exact hlt
      · exact hother later hlater

theorem IsOrdered.register {registry result : Registry} (h : registry.IsOrdered)
    {kind : OperationKind} {c : Candidate} (hregister : registry.register kind c = .ok result) :
    result.IsOrdered := by
  by_cases hname : c.name ∈ registry.names
  · rw [register_eq_error kind hname] at hregister
    exact absurd hregister (by simp)
  · rw [register_eq_ok kind hname] at hregister
    obtain rfl := Except.ok.inj hregister
    exact increasingBy_insertInOrder h hname

theorem IsOrdered.registerAll {entries : List (OperationKind × Candidate)}
    {registry result : Registry} (h : registry.IsOrdered)
    (hresult : entries.foldlM (fun registry entry => registry.register entry.1 entry.2) registry =
      Except.ok result) : result.IsOrdered := by
  induction entries generalizing registry with
  | nil =>
    obtain rfl := Except.ok.inj hresult
    exact h
  | cons entry rest ih =>
    rw [List.foldlM_cons] at hresult
    obtain ⟨next, hnext, hrest⟩ := Fallible.bind_eq_ok_iff.1 hresult
    exact ih (h.register hnext) hrest

/-! ## Runs of registrations -/

/-- The names of some candidates to be registered. -/
def entryNames (entries : List (OperationKind × Candidate)) : List String :=
  entries.map fun entry => entry.2.name

/-- Candidates with distinct names that are not taken can be registered one after the other. -/
theorem exists_registerAll {entries : List (OperationKind × Candidate)} (registry : Registry)
    (hnodup : (entryNames entries).Nodup)
    (hfresh : ∀ entry ∈ entries, entry.2.name ∉ registry.names) :
    ∃ result, entries.foldlM (fun registry entry => registry.register entry.1 entry.2) registry =
        Except.ok result ∧
      ∀ operation, operation ∈ result.operations ↔ operation ∈ registry.operations ∨
        ∃ entry ∈ entries, operation = .ofCandidate entry.1 entry.2 := by
  induction entries generalizing registry with
  | nil => exact ⟨registry, rfl, fun operation => by simp⟩
  | cons entry rest ih =>
    rw [entryNames, List.map_cons, List.nodup_cons, List.mem_map] at hnodup
    obtain ⟨hnew, hrest⟩ := hnodup
    have hregister := register_eq_ok entry.1 (hfresh entry List.mem_cons_self)
    -- the names that are left are not the one that is taken now
    have hleft : ∀ other ∈ rest, other.2.name ∉
        (Registry.mk (insertInOrder (.ofCandidate entry.1 entry.2) registry.operations)).names := by
      intro other hother hname
      obtain ⟨operation, hoperation, hsame⟩ := List.mem_map.1 hname
      rcases mem_insertInOrder.1 hoperation with rfl | hold
      · exact hnew ⟨other, hother, hsame.symm⟩
      · exact hfresh other (List.mem_cons_of_mem _ hother) (hsame ▸ List.mem_map_of_mem hold)
    obtain ⟨result, hresult, hmem⟩ := ih _ hrest hleft
    refine ⟨result, ?_, fun operation => ?_⟩
    · rw [List.foldlM_cons, hregister]
      exact hresult
    · rw [hmem, mem_insertInOrder]
      simp only [List.mem_cons, exists_eq_or_imp]
      constructor
      · rintro ((h | h) | h)
        · exact .inr (.inl h)
        · exact .inl h
        · exact .inr (.inr h)
      · rintro (h | h | h)
        · exact .inl (.inr h)
        · exact .inl (.inl h)
        · exact .inr h

/-- The candidates that discovery takes up, each with the kind that its name says. -/
def matching (candidates : List Candidate) : List (OperationKind × Candidate) :=
  candidates.filterMap fun c => (OperationKind.ofName? c.name).map (·, c)

theorem mem_matching {candidates : List Candidate} {kind : OperationKind} {c : Candidate} :
    (kind, c) ∈ matching candidates ↔
      c ∈ candidates ∧ OperationKind.ofName? c.name = some kind := by
  unfold matching
  simp only [List.mem_filterMap, Option.map_eq_some_iff, Prod.mk.injEq]
  constructor
  · rintro ⟨_, hc, _, hkind, rfl, rfl⟩
    exact ⟨hc, hkind⟩
  · rintro ⟨hc, hkind⟩
    exact ⟨c, hc, kind, hkind, rfl, rfl⟩

theorem entryNames_matching (candidates : List Candidate) :
    entryNames (matching candidates) =
      (candidates.map Candidate.name).filter fun name => (OperationKind.ofName? name).isSome := by
  induction candidates with
  | nil => rfl
  | cons c rest ih =>
    unfold entryNames matching at ih ⊢
    rw [List.map_cons, List.filterMap_cons]
    cases hkind : OperationKind.ofName? c.name with
    | none =>
      rw [List.filter_cons_of_neg (by simp [hkind]), ← ih]
      rfl
    | some kind =>
      rw [List.filter_cons_of_pos (by simp [hkind]), ← ih]
      rfl

/-- The candidates that discovery takes up, in the order in which it registers them. -/
def inOrder (candidates : List Candidate) : List (OperationKind × Candidate) :=
  sortByText (fun entry => entry.2.name) (matching candidates)

theorem discover_eq (candidates : List Candidate) :
    discover candidates = (inOrder candidates).foldlM
      (fun registry entry => registry.register entry.1 entry.2) empty := rfl

theorem perm_entryNames_inOrder (candidates : List Candidate) :
    (entryNames (inOrder candidates)).Perm (entryNames (matching candidates)) :=
  (List.mergeSort_perm _ _).map _

/-- Candidates that discovery takes up under distinct names are registered, and nothing else is. -/
theorem exists_discover_of_matching {candidates : List Candidate}
    (hnodup : (entryNames (matching candidates)).Nodup) :
    ∃ registry, discover candidates = .ok registry ∧ registry.IsOrdered ∧
      ∀ operation, operation ∈ registry.operations ↔ ∃ c ∈ candidates, ∃ kind,
        OperationKind.ofName? c.name = some kind ∧ operation = .ofCandidate kind c := by
  obtain ⟨registry, hregistry, hmem⟩ := exists_registerAll empty
    ((perm_entryNames_inOrder candidates).nodup_iff.2 hnodup) (fun _ _ => List.not_mem_nil)
  refine ⟨registry, hregistry, isOrdered_empty.registerAll hregistry, fun operation => ?_⟩
  rw [hmem, inOrder]
  simp only [mem_sortByText, Prod.exists, mem_matching]
  constructor
  · rintro (h | ⟨kind, c, ⟨hc, hkind⟩, rfl⟩)
    · exact absurd h List.not_mem_nil
    · exact ⟨c, hc, kind, hkind, rfl⟩
  · rintro ⟨c, hc, kind, hkind, rfl⟩
    exact .inr ⟨kind, c, ⟨hc, hkind⟩, rfl⟩

/-- Candidates with distinct names are discovered, each as the kind that its name says. -/
theorem exists_discover {candidates : List Candidate}
    (hnodup : (candidates.map Candidate.name).Nodup) :
    ∃ registry, discover candidates = .ok registry ∧
      ∀ operation, operation ∈ registry.operations ↔ ∃ c ∈ candidates, ∃ kind,
        OperationKind.ofName? c.name = some kind ∧ operation = .ofCandidate kind c := by
  have hmatching : (entryNames (matching candidates)).Nodup := by
    rw [entryNames_matching]
    exact hnodup.filter _
  obtain ⟨registry, hregistry, -, hmem⟩ := exists_discover_of_matching hmatching
  exact ⟨registry, hregistry, hmem⟩

end JavaAtlas.Registry
