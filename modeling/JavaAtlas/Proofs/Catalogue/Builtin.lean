import JavaAtlas.Catalogue.Builtin
import JavaAtlas.Proofs.Operation.Arguments
import JavaAtlas.Proofs.Operation.Registry

set_option autoImplicit false

/-! # The built-in operations

Every action reads its arguments by name and kind, apart from the parameters that its operation
declares. The two agree: on checked arguments no read fails, and what is left to fail is the query
itself (`answers_of_mem_candidates`). The names are distinct, so the registry of the built-in
operations exists and holds all of them (`exists_builtin`). -/

namespace JavaAtlas.Catalogue

open Arguments

/-- Whether an action answers from arguments for the parameters, or fails only as queries fail. -/
def Answers (parameters : List Parameter) (action : Action) : Prop :=
  ∀ atlas files arguments, arguments.Conforms parameters →
    (∃ encoded, action atlas files arguments = .ok encoded) ∨
      ∃ problem, action atlas files arguments = .error (.analysis problem)

variable {α : Type} [Encode α] {parameters : List Parameter}

theorem answer_cases (a : Answer α) :
    (∃ encoded, answer a = .ok encoded) ∨ ∃ problem, answer a = .error (.analysis problem) := by
  cases a with
  | ok value => exact .inl ⟨_, rfl⟩
  | error fault => exact .inr ⟨_, rfl⟩

/-! ## Kinds of actions -/

theorem answers_ofAtlas (query : Atlas → α) : Answers parameters (ofAtlas query) :=
  fun _ _ _ _ => .inl ⟨_, rfl⟩

theorem answers_ofClass (query : Atlas → String → Answer α)
    (hclass : Offers parameters "qualified_class_name" .text) :
    Answers parameters (ofClass query) := by
  intro atlas files arguments hconforms
  obtain ⟨name, hname⟩ := exists_text hconforms hclass
  unfold ofClass
  rw [hname]
  exact answer_cases (query atlas name)

theorem answers_ofMethod (parameter : String) (query : Atlas → String → String → Answer α)
    (hclass : Offers parameters "qualified_class_name" .text)
    (hsignature : Offers parameters parameter .text) :
    Answers parameters (ofMethod parameter query) := by
  intro atlas files arguments hconforms
  obtain ⟨className, hname⟩ := exists_text hconforms hclass
  obtain ⟨signature, hsignature⟩ := exists_text hconforms hsignature
  unfold ofMethod
  rw [hname, hsignature]
  exact answer_cases (query atlas className signature)

theorem answers_ofFile (query : Atlas → String → Answer α)
    (hfile : Offers parameters "file_path" .text) : Answers parameters (ofFile query) := by
  intro atlas files arguments hconforms
  obtain ⟨path, hpath⟩ := exists_text hconforms hfile
  unfold ofFile
  rw [hpath]
  exact answer_cases (query atlas path)

theorem exists_graphSource {arguments : Arguments} (hconforms : arguments.Conforms parameters)
    (hflag : Offers parameters "using_symbol_table" .flag) :
    ∃ source, graphSource arguments = .ok source := by
  obtain ⟨b, hb⟩ := exists_flag hconforms hflag
  unfold graphSource
  rw [hb]
  exact ⟨_, rfl⟩

theorem answers_callGraphAction (hflag : Offers parameters "using_symbol_table" .flag) :
    Answers parameters callGraphAction := by
  intro atlas files arguments hconforms
  obtain ⟨source, hsource⟩ := exists_graphSource hconforms hflag
  unfold callGraphAction
  rw [hsource]
  exact .inl ⟨_, rfl⟩

theorem answers_callersAction (hclass : Offers parameters "target_class_name" .text)
    (hsignature : Offers parameters "target_method_declaration" .text)
    (hflag : Offers parameters "using_symbol_table" .flag) :
    Answers parameters callersAction := by
  intro atlas files arguments hconforms
  obtain ⟨className, hname⟩ := exists_text hconforms hclass
  obtain ⟨signature, hsignature⟩ := exists_text hconforms hsignature
  obtain ⟨source, hsource⟩ := exists_graphSource hconforms hflag
  unfold callersAction
  rw [hname, hsignature, hsource]
  exact answer_cases (atlas.callers className signature source)

theorem answers_calleesAction (hclass : Offers parameters "source_class_name" .text)
    (hsignature : Offers parameters "source_method_declaration" .text)
    (hflag : Offers parameters "using_symbol_table" .flag) :
    Answers parameters calleesAction := by
  intro atlas files arguments hconforms
  obtain ⟨className, hname⟩ := exists_text hconforms hclass
  obtain ⟨signature, hsignature⟩ := exists_text hconforms hsignature
  obtain ⟨source, hsource⟩ := exists_graphSource hconforms hflag
  unfold calleesAction
  rw [hname, hsignature, hsource]
  exact answer_cases (atlas.callees className signature source)

theorem answers_criteriaAction (hinclusions : Offers parameters "inclusions" .textList)
    (hexclusions : Offers parameters "exclusions" .textList) :
    Answers parameters criteriaAction := by
  intro atlas files arguments hconforms
  obtain ⟨inclusions, hinclusions⟩ := exists_textList hconforms hinclusions
  obtain ⟨exclusions, hexclusions⟩ := exists_textList hconforms hexclusions
  unfold criteriaAction
  rw [hinclusions, hexclusions]
  exact .inl ⟨_, rfl⟩

theorem answers_classCallsAction (hclass : Offers parameters "qualified_class_name" .text)
    (hflag : Offers parameters "using_symbol_table" .flag) :
    Answers parameters classCallsAction := by
  intro atlas files arguments hconforms
  obtain ⟨className, hname⟩ := exists_text hconforms hclass
  obtain ⟨source, hsource⟩ := exists_graphSource hconforms hflag
  unfold classCallsAction
  rw [hname, hsource]
  -- the signature is read as a text that need not be there, which does not fail
  exact answer_cases (atlas.classCalls className (arguments.text? "method_signature") source)

theorem answers_sourcesAction : Answers parameters sourcesAction :=
  fun atlas files _ _ => answer_cases (atlas.sourceWithoutComments files)

theorem answers_explainer (ρ : Type) [Record ρ] (description : String) (related : List String) :
    Answers parameters (explainer ρ description related).action :=
  fun _ _ _ _ => .inl ⟨_, rfl⟩

/-! ## The catalogue -/

theorem answers_of_mem_tools : ∀ c ∈ tools, Answers c.parameters c.action := by
  unfold tools
  repeat' refine List.forall_mem_cons.2 ⟨?_, ?_⟩
  all_goals first
    | exact answers_ofAtlas _
    | exact answers_ofClass _ (by decide)
    | exact answers_ofMethod _ _ (by decide) (by decide)
    | exact answers_ofFile _ (by decide)
    | exact answers_callGraphAction (by decide)
    | exact answers_callersAction (by decide) (by decide) (by decide)
    | exact answers_calleesAction (by decide) (by decide) (by decide)
    | exact answers_criteriaAction (by decide) (by decide)
    | exact answers_classCallsAction (by decide) (by decide)
    | exact answers_sourcesAction
    | exact List.forall_mem_nil _

theorem answers_of_mem_explainers : ∀ c ∈ explainers, Answers c.parameters c.action := by
  unfold explainers
  repeat' refine List.forall_mem_cons.2 ⟨?_, ?_⟩
  all_goals first
    | exact answers_explainer _ _ _
    | exact List.forall_mem_nil _

/-- Every built-in action answers from checked arguments or fails as a query fails. -/
theorem answers_of_mem_candidates {c : Candidate} (hc : c ∈ candidates) :
    Answers c.parameters c.action := by
  rcases List.mem_append.1 hc with hc | hc
  · exact answers_of_mem_tools c hc
  · exact answers_of_mem_explainers c hc

/-! ## The registry -/

theorem nodup_names : (candidates.map Candidate.name).Nodup := by decide +kernel

theorem isSome_ofName? : ∀ c ∈ candidates, (OperationKind.ofName? c.name).isSome = true := by
  decide +kernel

theorem nodup_parameterNames : ∀ c ∈ candidates, (c.parameters.map Parameter.name).Nodup := by
  decide +kernel

theorem exists_builtin :
    ∃ registry, builtin = .ok registry ∧
      (∀ name, name ∈ registry.names ↔ name ∈ candidates.map Candidate.name) ∧
      ∀ operation ∈ registry.operations, ∃ c ∈ candidates, ∃ kind,
        operation = .ofCandidate kind c := by
  obtain ⟨registry, hregistry, hmem⟩ := Registry.exists_discover nodup_names
  refine ⟨registry, hregistry, fun name => ?_, fun operation hoperation => ?_⟩
  · unfold Registry.names
    simp only [List.mem_map, hmem]
    constructor
    · rintro ⟨_, ⟨c, hc, kind, _, rfl⟩, rfl⟩
      exact ⟨c, hc, rfl⟩
    · rintro ⟨c, hc, rfl⟩
      obtain ⟨kind, hkind⟩ := Option.isSome_iff_exists.1 (isSome_ofName? c hc)
      exact ⟨_, ⟨c, hc, kind, hkind, rfl⟩, rfl⟩
  · obtain ⟨c, hc, kind, _, rfl⟩ := (hmem operation).1 hoperation
    exact ⟨c, hc, kind, rfl⟩

/-- Every candidate is found under its name. -/
theorem exists_find?_builtin {registry : Registry} (h : builtin = .ok registry) {c : Candidate}
    (hc : c ∈ candidates) : ∃ kind, registry.find? c.name = some (.ofCandidate kind c) := by
  obtain ⟨registry', hregistry, hnames, hbuiltin⟩ := exists_builtin
  obtain rfl := Except.ok.inj (h.symm.trans hregistry)
  obtain ⟨operation, hfind⟩ :=
    Registry.exists_find?_of_mem_names ((hnames c.name).2 (List.mem_map_of_mem hc))
  obtain ⟨hoperation, hname⟩ := Registry.mem_of_find?_eq_some hfind
  obtain ⟨c', hc', kind, rfl⟩ := hbuiltin operation hoperation
  obtain rfl : c' = c := List.inj_on_of_nodup_map nodup_names hc' hc hname
  exact ⟨kind, hfind⟩

theorem exists_find?_tool {registry : Registry} (h : builtin = .ok registry) (i : Nat)
    {c : Candidate} (hc : tools[i]? = some c) :
    ∃ kind, registry.find? c.name = some (.ofCandidate kind c) :=
  exists_find?_builtin h (List.mem_append_left _ (List.mem_of_getElem? hc))

end JavaAtlas.Catalogue
