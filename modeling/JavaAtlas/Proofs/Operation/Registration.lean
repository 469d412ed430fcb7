import JavaAtlas.Proofs.Operation.Discovery

set_option autoImplicit false

/-! # Runs of registrations in which calls may fail

A call to register that fails leaves the registry as it was, so a run goes on after it. Whatever the
calls of a run are, the registry holds the first call under each name and nothing else, in the order
of the names (`holdsFirst_registered`): a call under a new name adds its operation
(`HoldsFirst.attempt_fresh`), and a call under a name that is taken changes nothing
(`HoldsFirst.attempt_taken`). -/

namespace JavaAtlas.Registry

/-! ## Calls -/

/-- A call to register: its outcome, and the registry that it leaves. -/
def attempt (registry : Registry) (entry : OperationKind × Candidate) :
    Except Failure Unit × Registry :=
  match registry.register entry.1 entry.2 with
  | .ok result => (.ok (), result)
  | .error failure => (.error failure, registry)

/-- The registry that a run of calls leaves of the empty one. -/
def registered (entries : List (OperationKind × Candidate)) : Registry :=
  entries.foldl (fun registry entry => (registry.attempt entry).2) empty

theorem registered_concat (entries : List (OperationKind × Candidate))
    (entry : OperationKind × Candidate) :
    registered (entries ++ [entry]) = ((registered entries).attempt entry).2 := by
  unfold registered
  rw [List.foldl_append]
  rfl

theorem attempt_of_mem {registry : Registry} {entry : OperationKind × Candidate}
    (h : entry.2.name ∈ registry.names) :
    registry.attempt entry = (.error (.duplicateName entry.2.name), registry) := by
  unfold attempt
  rw [register_eq_error _ h]

theorem attempt_of_not_mem {registry : Registry} {entry : OperationKind × Candidate}
    (h : entry.2.name ∉ registry.names) :
    registry.attempt entry =
      (.ok (), ⟨insertInOrder (.ofCandidate entry.1 entry.2) registry.operations⟩) := by
  unfold attempt
  rw [register_eq_ok _ h]

theorem names_eq (registry : Registry) : registry.names = registry.list.map Descriptor.name := by
  unfold names list
  rw [List.map_map]
  rfl

/-! ## First calls -/

/-- The first of some calls under a name. -/
def firstUnder (name : String) (entries : List (OperationKind × Candidate)) :
    Option (OperationKind × Candidate) :=
  entries.find? fun entry => entry.2.name = name

theorem name_of_firstUnder {name : String} {entries : List (OperationKind × Candidate)}
    {entry : OperationKind × Candidate} (h : firstUnder name entries = some entry) :
    entry.2.name = name := by
  unfold firstUnder at h
  simpa using List.find?_some h

theorem exists_firstUnder {entries : List (OperationKind × Candidate)}
    {entry : OperationKind × Candidate} (h : entry ∈ entries) :
    ∃ first, firstUnder entry.2.name entries = some first := by
  rw [← Option.ne_none_iff_exists']
  intro hnone
  exact absurd (decide_eq_true rfl) (List.find?_eq_none.1 hnone entry h)

theorem firstUnder_concat (name : String) (entries : List (OperationKind × Candidate))
    (entry : OperationKind × Candidate) :
    firstUnder name (entries ++ [entry]) =
      (firstUnder name entries).or (if entry.2.name = name then some entry else none) := by
  unfold firstUnder
  rw [List.find?_append, List.find?_singleton]
  simp only [decide_eq_true_eq]

/-! ## What a run leaves -/

/-- Whether a registry holds, in the order of names, the first of some calls under each name, and
nothing else. -/
structure HoldsFirst (entries : List (OperationKind × Candidate)) (registry : Registry) : Prop where
  ordered : registry.IsOrdered
  mem_iff : ∀ operation, operation ∈ registry.operations ↔
    ∃ entry, firstUnder operation.name entries = some entry ∧
      operation = .ofCandidate entry.1 entry.2

namespace HoldsFirst

variable {entries : List (OperationKind × Candidate)} {registry : Registry}

theorem mem_of_firstUnder (h : HoldsFirst entries registry) {name : String}
    {entry : OperationKind × Candidate} (hfirst : firstUnder name entries = some entry) :
    .ofCandidate entry.1 entry.2 ∈ registry.operations := by
  obtain rfl := name_of_firstUnder hfirst
  exact (h.mem_iff _).2 ⟨entry, hfirst, rfl⟩

theorem mem_names_iff (h : HoldsFirst entries registry) {name : String} :
    name ∈ registry.names ↔ ∃ entry, firstUnder name entries = some entry := by
  unfold names
  rw [List.mem_map]
  constructor
  · rintro ⟨operation, hoperation, rfl⟩
    obtain ⟨entry, hfirst, -⟩ := (h.mem_iff operation).1 hoperation
    exact ⟨entry, hfirst⟩
  · rintro ⟨entry, hfirst⟩
    exact ⟨_, h.mem_of_firstUnder hfirst, name_of_firstUnder hfirst⟩

/-- A call under a name that is taken leaves first calls and registry as they are. -/
theorem attempt_taken (h : HoldsFirst entries registry) {entry : OperationKind × Candidate}
    (htaken : entry.2.name ∈ registry.names) :
    HoldsFirst (entries ++ [entry]) (registry.attempt entry).2 := by
  obtain ⟨first, hfirst⟩ := h.mem_names_iff.1 htaken
  have hsame : ∀ name, firstUnder name (entries ++ [entry]) = firstUnder name entries := by
    intro name
    rw [firstUnder_concat]
    by_cases hname : entry.2.name = name
    · subst hname
      rw [hfirst, Option.some_or]
    · rw [if_neg hname, Option.or_none]
  rw [attempt_of_mem htaken]
  refine ⟨h.ordered, fun operation => ?_⟩
  rw [hsame]
  exact h.mem_iff operation

/-- A call under a new name is the first one under that name, and its operation comes in. -/
theorem attempt_fresh (h : HoldsFirst entries registry) {entry : OperationKind × Candidate}
    (hfresh : entry.2.name ∉ registry.names) :
    HoldsFirst (entries ++ [entry]) (registry.attempt entry).2 := by
  have hnone : firstUnder entry.2.name entries = none := by
    by_contra hsome
    exact hfresh (h.mem_names_iff.2 (Option.ne_none_iff_exists'.1 hsome))
  rw [attempt_of_not_mem hfresh]
  refine ⟨increasingBy_insertInOrder h.ordered hfresh, fun operation => ?_⟩
  rw [mem_insertInOrder, h.mem_iff, firstUnder_concat]
  by_cases hname : entry.2.name = operation.name
  · -- under the new name there is the new operation only
    rw [← hname, hnone, if_pos rfl]
    simp only [reduceCtorEq, false_and, exists_false, or_false, Option.none_or, Option.some.injEq,
      exists_eq_left']
  · rw [if_neg hname, Option.or_none]
    constructor
    · rintro (rfl | hold)
      · exact absurd rfl hname
      · exact hold
    · exact .inr

theorem attempt (h : HoldsFirst entries registry) (entry : OperationKind × Candidate) :
    HoldsFirst (entries ++ [entry]) (registry.attempt entry).2 := by
  by_cases hname : entry.2.name ∈ registry.names
  · exact h.attempt_taken hname
  · exact h.attempt_fresh hname

/-- Every listed descriptor is found again under its name. -/
theorem exists_resolve (h : HoldsFirst entries registry) {descriptor : Descriptor}
    (hmem : descriptor ∈ registry.list) :
    ∃ operation, registry.resolve descriptor.name = .ok operation ∧
      operation.descriptor = descriptor := by
  obtain ⟨operation, hoperation, rfl⟩ := List.mem_map.1 hmem
  exact ⟨operation, h.ordered.resolve hoperation, rfl⟩

theorem mem_list_iff (h : HoldsFirst entries registry) {descriptor : Descriptor} :
    descriptor ∈ registry.list ↔ ∃ entry, firstUnder descriptor.name entries = some entry ∧
      descriptor = (Operation.ofCandidate entry.1 entry.2).descriptor := by
  unfold list
  rw [List.mem_map]
  constructor
  · rintro ⟨operation, hoperation, rfl⟩
    obtain ⟨entry, hfirst, hsame⟩ := (h.mem_iff operation).1 hoperation
    exact ⟨entry, hfirst, congrArg Operation.descriptor hsame⟩
  · rintro ⟨entry, hfirst, hsame⟩
    exact ⟨_, h.mem_of_firstUnder hfirst, hsame.symm⟩

end HoldsFirst

theorem holdsFirst_empty : HoldsFirst [] empty :=
  ⟨isOrdered_empty, fun operation => by simp [empty, firstUnder]⟩

/-- A run leaves the first call under each name. -/
theorem holdsFirst_registered (entries : List (OperationKind × Candidate)) :
    HoldsFirst entries (registered entries) := by
  induction entries using List.reverseRecOn with
  | nil => exact holdsFirst_empty
  | append_singleton entries entry ih =>
    rw [registered_concat]
    exact ih.attempt entry

/-- **The registry over runs of registrations.** After any run of calls the list is strictly
increasing in the bytes of the names; under each name that was called it has one descriptor, which
is that of the first call under the name, and it has no others. The next call fails with the
duplicate name exactly if the name is listed, and then the registry is as before; otherwise it goes
on the list. A name resolves to the listed descriptor of that name, and a name that is not listed is
an unknown operation. The size is the length of the list. -/
theorem registrations_exact (entries : List (OperationKind × Candidate)) :
    (registered entries).list.Pairwise (fun a b => Utf8.encode a.name < Utf8.encode b.name) ∧
    (∀ entry ∈ entries, ∃! descriptor,
      descriptor ∈ (registered entries).list ∧ descriptor.name = entry.2.name) ∧
    (∀ descriptor, descriptor ∈ (registered entries).list ↔ ∃ kind c,
      entries.find? (fun entry => entry.2.name = descriptor.name) = some (kind, c) ∧
        descriptor = ⟨c.name, kind, c.parameters, c.shape, c.description⟩) ∧
    (∀ entry : OperationKind × Candidate, (registered entries).attempt entry =
      if entry.2.name ∈ (registered entries).list.map Descriptor.name then
        (.error (.duplicateName entry.2.name), registered entries)
      else (.ok (), registered (entries ++ [entry]))) ∧
    (∀ descriptor ∈ (registered entries).list, ∃ operation,
      (registered entries).resolve descriptor.name = .ok operation ∧
        operation.descriptor = descriptor) ∧
    (∀ name, name ∉ (registered entries).list.map Descriptor.name →
      (registered entries).resolve name = .error (.unknownOperation name)) ∧
    (registered entries).size = (registered entries).list.length := by
  have h := holdsFirst_registered entries
  refine ⟨List.pairwise_map.2 (h.ordered.imp Utf8.encode_lt_iff.2), ?_, ?_, ?_,
    fun _ => h.exists_resolve, ?_, (List.length_map _).symm⟩
  · intro entry hentry
    obtain ⟨first, hfirst⟩ := exists_firstUnder hentry
    have hname := name_of_firstUnder hfirst
    refine ⟨(Operation.ofCandidate first.1 first.2).descriptor,
      ⟨List.mem_map_of_mem (h.mem_of_firstUnder hfirst), hname⟩, ?_⟩
    rintro descriptor ⟨hmem, hsame⟩
    obtain ⟨other, hother, rfl⟩ := h.mem_list_iff.1 hmem
    rw [hsame, hfirst] at hother
    rw [Option.some.inj hother]
  · intro descriptor
    rw [h.mem_list_iff, Prod.exists]
    rfl
  · intro entry
    rw [← names_eq]
    split
    · next htaken => exact attempt_of_mem htaken
    · next hfresh => rw [registered_concat, attempt_of_not_mem hfresh]
  · intro name hname
    rw [← names_eq] at hname
    exact resolve_of_not_mem hname

theorem registrations_exact_sharedNames :
    let first : OperationKind × Candidate := (.tool, named "b")
    let again : OperationKind × Candidate := (.explainer, { named "b" with shape := .list })
    let registry := registered [first, again, (.tool, named "a")]
    first ∈ [first, again, (.tool, named "a")] ∧ "c" ∉ registry.list.map Descriptor.name ∧
      registry.list = [⟨"a", .tool, [], .scalar, ""⟩, ⟨"b", .tool, [], .scalar, ""⟩] ∧
      (∃! descriptor, descriptor ∈ registry.list ∧ descriptor.name = "b") ∧
      registry.resolve "c" = .error (.unknownOperation "c") := by
  intro first again registry
  obtain ⟨-, hone, -, -, -, hunknown, -⟩ := registrations_exact [first, again, (.tool, named "a")]
  have hfirst : first ∈ [first, again, (.tool, named "a")] := List.mem_cons_self
  have hlist : registry.list =
      [⟨"a", .tool, [], .scalar, ""⟩, ⟨"b", .tool, [], .scalar, ""⟩] := by decide
  have hname : "c" ∉ registry.list.map Descriptor.name := by
    rw [hlist]
    decide
  exact ⟨hfirst, hname, hlist, hone first hfirst, hunknown "c" hname⟩

end JavaAtlas.Registry
