import JavaAtlas.Proofs.Data.Lists
import JavaAtlas.Proofs.Operation.Registry
import JavaAtlas.Proofs.Text.ByteOrder

set_option autoImplicit false

/-! # Discovery, exactly

Discovery sorts the candidates that it takes up and registers them one after the other. If two of
them share a name, the first registration that fails is the one of the least shared name
(`discover_of_isShared`): what was registered before has each name once, and what comes later has
greater names. Both outcomes are said of the candidates as a collection, so their order does not
matter. -/

namespace JavaAtlas

/-! ## The ends of names -/

namespace OperationKind

/-- The end of the names of operations of a kind. -/
def suffix : OperationKind → String
  | tool => "_tool"
  | explainer => "_explainer"

/-- Whether a name ends as the names of the kind do. -/
def Ends (kind : OperationKind) (name : String) : Prop := kind.suffix.toList <:+ name.toList

instance (kind : OperationKind) (name : String) : Decidable (kind.Ends name) :=
  inferInstanceAs (Decidable (_ <:+ _))

/-- No name ends in two ways, since the ends have different last letters. -/
theorem Ends.unique {name : String} (htool : tool.Ends name) (hexplainer : explainer.Ends name) :
    False := by
  obtain ⟨front, hfront⟩ := htool
  obtain ⟨front', hfront'⟩ := hexplainer
  have hlast := congrArg List.getLast? (hfront.trans hfront'.symm)
  rw [List.getLast?_append, List.getLast?_append] at hlast
  have htool : tool.suffix.toList.getLast? = some 'l' := by decide
  have hexplainer : explainer.suffix.toList.getLast? = some 'r' := by decide
  rw [htool, hexplainer, Option.some_or, Option.some_or] at hlast
  exact absurd hlast (by decide)

theorem ofName?_eq_some_iff {name : String} {kind : OperationKind} :
    ofName? name = some kind ↔ kind.Ends name := by
  have htest : ∀ kind : OperationKind,
      kind.suffix.toList.isSuffixOf name.toList = true ↔ kind.Ends name :=
    fun _ => List.isSuffixOf_iff_suffix
  show (if tool.suffix.toList.isSuffixOf name.toList then some tool
    else if explainer.suffix.toList.isSuffixOf name.toList then some explainer else none) = _ ↔ _
  by_cases htool : tool.Ends name
  · rw [if_pos ((htest tool).2 htool)]
    cases kind with
    | tool => simpa using htool
    | explainer => simpa using htool.unique
  · rw [if_neg (mt (htest tool).1 htool)]
    by_cases hexplainer : explainer.Ends name
    · rw [if_pos ((htest explainer).2 hexplainer)]
      cases kind <;> simp [htool, hexplainer]
    · rw [if_neg (mt (htest explainer).1 hexplainer)]
      cases kind <;> simp [htool, hexplainer]

end OperationKind

namespace Registry

/-! ## Shared names -/

/-- Whether two candidates that discovery takes up have the name. -/
def IsShared (candidates : List Candidate) (name : String) : Prop :=
  (∃ kind : OperationKind, kind.Ends name) ∧ 1 < (candidates.map Candidate.name).count name

theorem count_entryNames_matching {candidates : List Candidate} {name : String}
    {kind : OperationKind} (hkind : kind.Ends name) :
    (entryNames (matching candidates)).count name = (candidates.map Candidate.name).count name := by
  rw [entryNames_matching, List.count_filter]
  rw [OperationKind.ofName?_eq_some_iff.2 hkind]
  rfl

theorem isShared_iff {candidates : List Candidate} {name : String} :
    IsShared candidates name ↔ 1 < (entryNames (matching candidates)).count name := by
  constructor
  · rintro ⟨⟨kind, hkind⟩, hcount⟩
    rw [count_entryNames_matching hkind]
    exact hcount
  · intro hcount
    have hmem : name ∈ entryNames (matching candidates) := List.count_pos_iff.1 (by omega)
    obtain ⟨⟨kind, c⟩, hc, rfl⟩ := List.mem_map.1 hmem
    have hkind := OperationKind.ofName?_eq_some_iff.1 (mem_matching.1 hc).2
    rw [count_entryNames_matching hkind] at hcount
    exact ⟨⟨kind, hkind⟩, hcount⟩

theorem nodup_entryNames_matching_iff {candidates : List Candidate} :
    (entryNames (matching candidates)).Nodup ↔ ∀ name, ¬IsShared candidates name := by
  simp only [List.nodup_iff_count_le_one, isShared_iff, Nat.not_lt]

/-! ## The two outcomes -/

/-- Without a shared name, discovery succeeds. -/
theorem discover_of_not_isShared {candidates : List Candidate}
    (h : ∀ name, ¬IsShared candidates name) :
    ∃ registry, discover candidates = .ok registry ∧ registry.IsOrdered ∧
      ∀ operation, operation ∈ registry.operations ↔ ∃ c ∈ candidates, ∃ kind : OperationKind,
        kind.Ends c.name ∧ operation = .ofCandidate kind c := by
  obtain ⟨registry, hregistry, hordered, hmem⟩ :=
    exists_discover_of_matching (nodup_entryNames_matching_iff.2 h)
  simp only [OperationKind.ofName?_eq_some_iff] at hmem
  exact ⟨registry, hregistry, hordered, hmem⟩

/-- Registering candidates in the order of their names fails at the second one that has the least
shared name. -/
theorem exists_least_repeat {entries : List (OperationKind × Candidate)}
    (hsorted : entries.Pairwise fun a b => a.2.name ≤ b.2.name)
    (hrepeat : ¬(entryNames entries).Nodup) :
    ∃ before entry after, entries = before ++ entry :: after ∧ (entryNames before).Nodup ∧
      entry.2.name ∈ entryNames before ∧ 1 < (entryNames entries).count entry.2.name ∧
        ∀ other, 1 < (entryNames entries).count other → entry.2.name ≤ other := by
  obtain ⟨before, entry, after, rfl, hnodup, hmem⟩ := Lists.exists_first_repeat hrepeat
  have hsum : ∀ name, (entryNames (before ++ entry :: after)).count name =
      (entryNames before).count name + (entryNames (entry :: after)).count name := by
    intro name
    unfold entryNames
    rw [List.map_append, List.count_append]
  refine ⟨before, entry, after, rfl, hnodup, hmem, ?_, ?_⟩
  · have hbefore : 0 < (entryNames before).count entry.2.name := List.count_pos_iff.2 hmem
    have hafter : 0 < (entryNames (entry :: after)).count entry.2.name :=
      List.count_pos_iff.2 List.mem_cons_self
    rw [hsum]
    omega
  · intro other hother
    -- one of the two occurrences is not before the entry
    have hle : (entryNames before).count other ≤ 1 := List.nodup_iff_count_le_one.1 hnodup other
    rw [hsum] at hother
    have hafter : other ∈ entryNames (entry :: after) := List.count_pos_iff.1 (by omega)
    obtain ⟨later, hlater, rfl⟩ := List.mem_map.1 hafter
    rcases List.mem_cons.1 hlater with rfl | hlater
    · exact String.le_refl _
    · exact (List.pairwise_cons.1 (List.pairwise_append.1 hsorted).2.1).1 later hlater

/-- With a shared name, discovery fails and names the least one. -/
theorem discover_of_isShared {candidates : List Candidate} {shared : String}
    (h : IsShared candidates shared) :
    ∃ name, discover candidates = .error (.duplicateName name) ∧ IsShared candidates name ∧
      ∀ other, IsShared candidates other → name ≤ other := by
  have hcount : ∀ name, IsShared candidates name ↔
      1 < (entryNames (inOrder candidates)).count name := by
    intro name
    rw [isShared_iff, (perm_entryNames_inOrder candidates).count_eq]
  have hrepeat : ¬(entryNames (inOrder candidates)).Nodup := by
    intro hnodup
    have hle := List.nodup_iff_count_le_one.1 hnodup shared
    have hlt := (hcount shared).1 h
    omega
  obtain ⟨before, entry, after, hsplit, hnodup, hmem, htwice, hleast⟩ :=
    exists_least_repeat (pairwise_sortByText _ (matching candidates)) hrepeat
  refine ⟨entry.2.name, ?_, (hcount _).2 htwice, fun other hother => hleast _ ((hcount _).1 hother)⟩
  -- what stands before is registered, and then the name is taken
  obtain ⟨registry, hregistry, hregistered⟩ :=
    exists_registerAll empty hnodup (fun _ _ => List.not_mem_nil)
  have htaken : entry.2.name ∈ registry.names := by
    obtain ⟨other, hother, hname⟩ := List.mem_map.1 hmem
    exact List.mem_map.2 ⟨.ofCandidate other.1 other.2,
      (hregistered _).2 (.inr ⟨other, hother, rfl⟩), hname⟩
  rw [discover_eq, inOrder, hsplit, List.foldlM_append, hregistry]
  refine Fallible.bind_eq_error_iff.2 (.inr ⟨registry, rfl, ?_⟩)
  rw [List.foldlM_cons, register_eq_error _ htaken]
  rfl

/-! ## Lookup in a discovered registry -/

theorem IsOrdered.resolve {registry : Registry} (h : registry.IsOrdered) {operation : Operation}
    (hmem : operation ∈ registry.operations) :
    registry.resolve operation.name = .ok operation := by
  have hfind : registry.find? operation.name = some operation :=
    (Lists.find?_eq_some_iff h.nodup).2 ⟨hmem, rfl⟩
  unfold Registry.resolve
  rw [hfind]

theorem resolve_of_not_mem {registry : Registry} {name : String} (h : name ∉ registry.names) :
    registry.resolve name = .error (.unknownOperation name) := by
  unfold Registry.resolve
  rw [find?_eq_none_iff.2 h]

/-! ## Order does not matter -/

theorem isShared_of_perm {candidates others : List Candidate} (h : others.Perm candidates)
    {name : String} : IsShared others name ↔ IsShared candidates name := by
  unfold IsShared
  rw [(h.map Candidate.name).count_eq]

theorem discover_of_perm {candidates others : List Candidate} (h : others.Perm candidates) :
    discover others = discover candidates := by
  by_cases hshared : ∃ name, IsShared candidates name
  · obtain ⟨shared, hshared⟩ := hshared
    obtain ⟨name, herror, hname, hleast⟩ := discover_of_isShared hshared
    obtain ⟨name', herror', hname', hleast'⟩ :=
      discover_of_isShared ((isShared_of_perm h).2 hshared)
    have hsame : name' = name := String.le_antisymm
      (hleast' name ((isShared_of_perm h).2 hname)) (hleast name' ((isShared_of_perm h).1 hname'))
    rw [herror, herror', hsame]
  · rw [not_exists] at hshared
    obtain ⟨registry, hok, hordered, hmem⟩ := discover_of_not_isShared hshared
    obtain ⟨registry', hok', hordered', hmem'⟩ :=
      discover_of_not_isShared fun name => mt (isShared_of_perm h).1 (hshared name)
    have hsame : registry'.operations = registry.operations := by
      refine eq_of_increasingBy hordered' hordered fun operation => ?_
      rw [hmem, hmem']
      simp only [h.mem_iff]
    rw [hok, hok']
    exact congrArg (fun operations => Except.ok (Registry.mk operations)) hsame

/-- **Discovery is exact and does not depend on order.** Candidates in another order give the same
outcome. Discovery fails exactly if two candidates whose names end in `_tool` or `_explainer` share
a name, and the failure names the first such name in the order of bytes. Otherwise the registry
lists those candidates, each as the kind that its name says, in strictly increasing order of the
bytes of their names, and nothing else; every listed name resolves to its candidate and no other
name resolves. -/
theorem discover_exact (candidates : List Candidate) :
    (∀ others : List Candidate, others.Perm candidates → discover others = discover candidates) ∧
    ((∃ failure, discover candidates = .error failure) ↔ ∃ name, IsShared candidates name) ∧
    (∀ failure, discover candidates = .error failure → ∃ name,
      failure = .duplicateName name ∧ IsShared candidates name ∧
        ∀ other, IsShared candidates other → Utf8.encode name ≤ Utf8.encode other) ∧
    (∀ registry, discover candidates = .ok registry →
      registry.list.Pairwise (fun a b => Utf8.encode a.name < Utf8.encode b.name) ∧
      (∀ descriptor, descriptor ∈ registry.list ↔ ∃ c ∈ candidates, ∃ kind : OperationKind,
        kind.Ends c.name ∧
          descriptor = ⟨c.name, kind, c.parameters, c.shape, c.description⟩) ∧
      (∀ c ∈ candidates, ∀ kind : OperationKind, kind.Ends c.name →
        registry.resolve c.name = .ok (.ofCandidate kind c)) ∧
      (∀ name, (∀ c ∈ candidates, ∀ kind : OperationKind, kind.Ends c.name → c.name ≠ name) →
        registry.resolve name = .error (.unknownOperation name))) := by
  refine ⟨fun _ => discover_of_perm, ?_⟩
  by_cases hshared : ∃ name, IsShared candidates name
  · obtain ⟨shared, hname⟩ := hshared
    obtain ⟨name, herror, hname, hleast⟩ := discover_of_isShared hname
    simp only [herror, Except.error.injEq, exists_eq', true_iff, reduceCtorEq, false_implies,
      implies_true, and_true]
    refine ⟨⟨name, hname⟩, ?_⟩
    rintro failure rfl
    refine ⟨name, rfl, hname, fun other hother hlt => ?_⟩
    exact hleast other hother (Utf8.encode_lt_iff.1 hlt)
  · obtain ⟨registry, hok, hordered, hmem⟩ := discover_of_not_isShared (not_exists.1 hshared)
    simp only [hok, Except.ok.injEq, reduceCtorEq, exists_false, false_iff, false_implies,
      implies_true, true_and]
    refine ⟨hshared, ?_⟩
    rintro registry rfl
    refine ⟨?_, ?_, ?_, ?_⟩
    · exact List.pairwise_map.2 (hordered.imp Utf8.encode_lt_iff.2)
    · intro descriptor
      unfold list
      simp only [List.mem_map, hmem]
      constructor
      · rintro ⟨_, ⟨c, hc, kind, hkind, rfl⟩, rfl⟩
        exact ⟨c, hc, kind, hkind, rfl⟩
      · rintro ⟨c, hc, kind, hkind, rfl⟩
        exact ⟨.ofCandidate kind c, ⟨c, hc, kind, hkind, rfl⟩, rfl⟩
    · intro c hc kind hkind
      exact hordered.resolve ((hmem _).2 ⟨c, hc, kind, hkind, rfl⟩)
    · intro name hname
      refine resolve_of_not_mem fun htaken => ?_
      obtain ⟨operation, hoperation, hsame⟩ := List.mem_map.1 htaken
      obtain ⟨c, hc, kind, hkind, rfl⟩ := (hmem operation).1 hoperation
      exact hname c hc kind hkind hsame

/-- A candidate with a name and nothing else to it. -/
def named (name : String) : Candidate where
  name := name
  description := ""
  parameters := []
  shape := .scalar
  action := fun _ _ _ => .ok (.ok .null)

theorem discover_exact_sharedNames :
    let candidates := [named "b_tool", named "note", named "a_tool", named "b_tool",
      named "a_tool", named "note"]
    candidates.reverse.Perm candidates ∧ IsShared candidates "a_tool" ∧
      ∃ name, discover candidates = .error (.duplicateName name) ∧
        discover candidates.reverse = .error (.duplicateName name) ∧
          Utf8.encode name ≤ Utf8.encode "a_tool" := by
  intro candidates
  have hperm : candidates.reverse.Perm candidates := List.reverse_perm candidates
  have hshared : IsShared candidates "a_tool" := ⟨⟨.tool, by decide⟩, by decide⟩
  obtain ⟨hsame, hfails, hnamed, -⟩ := discover_exact candidates
  obtain ⟨failure, hfailure⟩ := hfails.2 ⟨_, hshared⟩
  obtain ⟨name, rfl, -, hleast⟩ := hnamed failure hfailure
  exact ⟨hperm, hshared, name, hfailure, (hsame _ hperm).trans hfailure, hleast _ hshared⟩

end Registry

end JavaAtlas
