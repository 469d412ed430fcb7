import JavaAtlas.Proofs.Atlas.MethodIdentity

set_option autoImplicit false

/-! # Listings of persistence operations

A listing goes through the methods of the atlas and keeps the operations that it asks for, without
the methods that have none of them (`crudUsages_eq`). So a listing of one kind can be made from the
full one, and an operation occurs in the listing of its own kind as often as in the full one, and in
no other (`crudUsages_partition`). -/

namespace JavaAtlas

open SymbolIndex

/-! ## Usages with fewer operations -/

instance : DecidableEq CrudOperation := fun a b =>
  decidable_of_iff (a.lineNumber = b.lineNumber ∧ a.operationType = b.operationType) (by
    cases a
    cases b
    simp)

namespace Atlas

namespace CrudUsage

/-- The method of a usage. -/
def name (usage : CrudUsage) : MethodName := ⟨usage.className, usage.methodSignature⟩

/-- The usage with those of its operations that satisfy `p`, unless there are none. -/
def select? (p : CrudOperation → Bool) (usage : CrudUsage) : Option CrudUsage :=
  let kept := usage.crudOperations.filter p
  if kept = [] then none else some { usage with crudOperations := kept }

/-- The usage with its operations of one kind, unless there are none. -/
def ofKind? (kind : CrudKind) : CrudUsage → Option CrudUsage :=
  select? fun operation => operation.operationType == some kind

theorem select?_eq_some_iff {p : CrudOperation → Bool} {usage kept : CrudUsage} :
    usage.select? p = some kept ↔
      kept = { usage with crudOperations := usage.crudOperations.filter p } ∧
        kept.crudOperations ≠ [] := by
  unfold select?
  dsimp only
  split
  · next hnone =>
    refine iff_of_false (by simp) ?_
    rintro ⟨rfl, hkept⟩
    exact hkept hnone
  · next hsome =>
    rw [Option.some.injEq]
    constructor
    · rintro rfl
      exact ⟨rfl, hsome⟩
    · rintro ⟨rfl, -⟩
      rfl

/-- Selecting twice is selecting once by both conditions. -/
theorem bind_select? (p q : CrudOperation → Bool) (usage : CrudUsage) :
    (usage.select? p).bind (select? q) =
      usage.select? fun operation => p operation && q operation := by
  have hfilter : usage.crudOperations.filter (fun operation => p operation && q operation) =
      (usage.crudOperations.filter p).filter q := by
    rw [List.filter_filter]
    exact List.filter_congr fun operation _ => Bool.and_comm ..
  unfold select?
  dsimp only
  rw [hfilter]
  by_cases hnone : usage.crudOperations.filter p = []
  · rw [if_pos hnone, hnone]
    rfl
  · rw [if_neg hnone]
    rfl

end CrudUsage

/-- The single operations of a listing, each with its method. -/
def operationsOf (usages : List CrudUsage) : List (MethodName × CrudOperation) :=
  usages.flatMap fun usage => usage.crudOperations.map (usage.name, ·)

theorem operationsOf_cons (usage : CrudUsage) (rest : List CrudUsage) :
    operationsOf (usage :: rest) = usage.crudOperations.map (usage.name, ·) ++ operationsOf rest :=
  List.flatMap_cons

/-- Usages that are dropped have no operation of their own to lose. -/
theorem operationsOf_filterMap_select? (p : CrudOperation → Bool) (usages : List CrudUsage) :
    operationsOf (usages.filterMap (CrudUsage.select? p)) =
      (operationsOf usages).filter fun entry => p entry.2 := by
  induction usages with
  | nil => rfl
  | cons usage rest ih =>
    rw [operationsOf_cons, List.filter_append, List.filter_map, ← ih]
    show _ = (usage.crudOperations.filter p).map (usage.name, ·) ++ _
    cases hkept : usage.select? p with
    | none =>
      have hnone : usage.crudOperations.filter p = [] := by
        by_contra hsome
        rw [CrudUsage.select?_eq_some_iff.2 ⟨rfl, hsome⟩] at hkept
        cases hkept
      rw [List.filterMap_cons_none hkept, hnone]
      rfl
    | some kept =>
      obtain ⟨rfl, -⟩ := CrudUsage.select?_eq_some_iff.1 hkept
      rw [List.filterMap_cons_some hkept, operationsOf_cons]
      rfl

/-! ## Listings -/

/-- Whether a listing asks for an operation: all operations are asked for if no kind is given. -/
def asksFor (kind : Option CrudKind) (operation : CrudOperation) : Bool :=
  kind.isNone || operation.operationType == kind

/-- Every method of the atlas with all its operations. -/
def methodUsages (atlas : Atlas) : List CrudUsage :=
  atlas.classes.entries.flatMap fun (className, type) =>
    type.callableDeclarations.entries.map fun (signature, method) =>
      ⟨className, signature, method.crudOperations⟩

theorem crudUsages_eq (atlas : Atlas) (kind : Option CrudKind) :
    atlas.crudUsages kind = atlas.methodUsages.filterMap (CrudUsage.select? (asksFor kind)) := by
  unfold crudUsages methodUsages
  rw [List.filterMap_flatMap]
  refine List.flatMap_congr fun ⟨className, type⟩ _ => ?_
  rw [List.filterMap_map]
  refine List.filterMap_congr fun ⟨signature, method⟩ _ => ?_
  show (if (method.crudOperations.filter (asksFor kind)).isEmpty = true then _ else _) = _
  simp only [List.isEmpty_iff]
  rfl

/-- The listing of one kind, made from the full one. -/
theorem crudUsages_some (atlas : Atlas) (kind : CrudKind) :
    atlas.crudUsages (some kind) = (atlas.crudUsages none).filterMap (CrudUsage.ofKind? kind) := by
  rw [crudUsages_eq, crudUsages_eq, List.filterMap_filterMap]
  congr 1
  funext usage
  exact (CrudUsage.bind_select? (asksFor none) _ usage).symm

theorem operationsOf_crudUsages_some (atlas : Atlas) (kind : CrudKind) :
    operationsOf (atlas.crudUsages (some kind)) =
      (operationsOf (atlas.crudUsages none)).filter fun entry =>
        entry.2.operationType == some kind := by
  rw [crudUsages_some]
  exact operationsOf_filterMap_select? _ _

theorem names_filterMap_select?_sublist (p : CrudOperation → Bool) (usages : List CrudUsage) :
    ((usages.filterMap (CrudUsage.select? p)).map CrudUsage.name).Sublist
      (usages.map CrudUsage.name) := by
  induction usages with
  | nil => exact .slnil
  | cons usage rest ih =>
    cases hkept : usage.select? p with
    | none =>
      rw [List.filterMap_cons_none hkept]
      exact ih.cons _
    | some kept =>
      obtain ⟨rfl, -⟩ := CrudUsage.select?_eq_some_iff.1 hkept
      rw [List.filterMap_cons_some hkept]
      exact ih.cons_cons _

theorem nodup_names_methodUsages (atlas : Atlas) :
    (atlas.methodUsages.map CrudUsage.name).Nodup := by
  unfold methodUsages
  rw [List.map_flatMap]
  refine Dict.nodup_flatMap_entries _ _ MethodName.className ?_ ?_
  · rintro ⟨className, type⟩ -
    refine List.Nodup.of_map MethodName.signature ?_
    have hkeys := type.callableDeclarations.nodup
    simpa [Assoc.keys, Function.comp_def, CrudUsage.name] using hkeys
  · rintro ⟨className, type⟩ - name hname
    simp only [List.map_map, List.mem_map] at hname
    obtain ⟨_, _, rfl⟩ := hname
    rfl

/-- A listing has at most one usage for each method. -/
theorem nodup_names_crudUsages (atlas : Atlas) (kind : Option CrudKind) :
    ((atlas.crudUsages kind).map CrudUsage.name).Nodup := by
  rw [crudUsages_eq]
  exact (nodup_names_methodUsages atlas).sublist (names_filterMap_select?_sublist _ _)

end Atlas

/-! ## Declared methods -/

/-- The operations of a declared method that a listing asks for. -/
def DeclaredMethod.crudUsage (d : DeclaredMethod) (kind : Option CrudKind) : Atlas.CrudUsage where
  className := d.className
  methodSignature := d.signature
  crudOperations := d.method.crudOperations.filter (Atlas.asksFor kind)

namespace Atlas

variable {root : Path} {report : Report}

theorem mem_methodUsages {usage : CrudUsage} :
    usage ∈ (ofReport root report).methodUsages ↔
      ∃ d ∈ declaredMethods report.symbolTable, d.IsFirst report.symbolTable ∧
        usage = ⟨d.className, d.signature, d.method.crudOperations⟩ := by
  simp only [methodUsages, List.mem_flatMap, List.mem_map, Prod.exists, Dict.mem_entries_iff]
  constructor
  · rintro ⟨className, type, htype, signature, method, hmethod, rfl⟩
    obtain ⟨d, hd, hfirst, rfl, rfl, rfl⟩ := exists_listed_iff.1 ⟨type, htype, hmethod⟩
    exact ⟨d, hd, hfirst, rfl⟩
  · rintro ⟨d, hd, hfirst, rfl⟩
    obtain ⟨type, htype, hmethod⟩ := exists_listed_iff.2 ⟨d, hd, hfirst, rfl, rfl, rfl⟩
    exact ⟨d.className, type, htype, d.signature, d.method, hmethod, rfl⟩

/-- A declaration counts if it stands in the first file that declares the class. -/
theorem isFirst_iff_firstFile? {table : Dict String CompilationUnit} {d : DeclaredMethod} :
    d.IsFirst table ↔ (firstFile? table d.className).map Prod.fst = some d.file := by
  unfold DeclaredMethod.IsFirst
  rw [get?_filesOfClasses_eq_firstFile?]

/-- A listing has the usages of first declarations that are not without operations. -/
theorem mem_crudUsages {kind : Option CrudKind} {usage : CrudUsage} :
    usage ∈ (ofReport root report).crudUsages kind ↔ usage.crudOperations ≠ [] ∧
      ∃ d ∈ declaredMethods report.symbolTable,
        (firstFile? report.symbolTable d.className).map Prod.fst = some d.file ∧
          usage = d.crudUsage kind := by
  simp only [crudUsages_eq, List.mem_filterMap, mem_methodUsages, CrudUsage.select?_eq_some_iff,
    isFirst_iff_firstFile?]
  constructor
  · rintro ⟨_, ⟨d, hd, hfirst, rfl⟩, rfl, hkept⟩
    exact ⟨hkept, d, hd, hfirst, rfl⟩
  · rintro ⟨hkept, d, hd, hfirst, rfl⟩
    exact ⟨_, ⟨d, hd, hfirst, rfl⟩, rfl, hkept⟩

/-- **Listings by kind share out the full listing.** The listing of one kind is the full listing
with the operations of each usage cut down, in order, to those of the kind, and without the usages
that have none. So an operation of a kind occurs in the listing of this kind, under the same method,
as often as in the full listing, and in no listing of another kind; an operation without a kind
occurs in the full listing alone. Every listing has at most one usage for a method, and its usages
are those of the methods in the first file that declares their class, as far as they have
operations. -/
theorem crudUsages_partition (root : Path) (report : Report) :
    let atlas := ofReport root report
    (∀ kind, atlas.crudUsages (some kind) =
      (atlas.crudUsages none).filterMap (CrudUsage.ofKind? kind)) ∧
    (∀ kind name operation,
      (operationsOf (atlas.crudUsages (some kind))).count (name, operation) =
        if operation.operationType = some kind then
          (operationsOf (atlas.crudUsages none)).count (name, operation)
        else 0) ∧
    ∀ kind, ((atlas.crudUsages kind).map CrudUsage.name).Nodup ∧
      ∀ usage, usage ∈ atlas.crudUsages kind ↔ usage.crudOperations ≠ [] ∧
        ∃ d ∈ declaredMethods report.symbolTable,
          (firstFile? report.symbolTable d.className).map Prod.fst = some d.file ∧
            usage = d.crudUsage kind := by
  intro atlas
  refine ⟨crudUsages_some atlas, fun kind name operation => ?_,
    fun kind => ⟨nodup_names_crudUsages atlas kind, fun _ => mem_crudUsages⟩⟩
  rw [operationsOf_crudUsages_some]
  split
  · next hkind => exact List.count_filter (by simp [hkind])
  · next hkind =>
    rw [List.count_eq_zero, List.mem_filter]
    rintro ⟨-, hkept⟩
    exact hkind (by simpa using hkept)

end Atlas

end JavaAtlas
