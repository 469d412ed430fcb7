import JavaAtlas.Atlas.Basic
import JavaAtlas.Proofs.Atlas.Declarations
import JavaAtlas.Proofs.Data.Except

set_option autoImplicit false

/-! # Listings and lookups

The atlas lists all classes at once and looks one up by name, and both go through the index of files
rather than through the symbol table. They show the same program, because a class is listed exactly
if it can be looked up, and under its name there is what the lookup finds (`get?_classes`). -/

namespace JavaAtlas.Atlas

open SymbolIndex

/-- Whether some file of the table declares the class. -/
def DeclaredIn (table : Dict String CompilationUnit) (name : String) : Prop :=
  ∃ unit ∈ table.values, name ∈ unit.typeDeclarations.keys

section

variable {atlas : Atlas} {name : String}

theorem classNamed_eq_ok_iff {type : TypeDeclaration} :
    atlas.classNamed name = .ok type ↔ atlas.index.declaration? name = some type := by
  unfold classNamed
  cases atlas.index.declaration? name <;> simp

/-- The only reason why a class is not found is that there is none of its name. -/
theorem classNamed_eq_error_iff {fault : QueryFault} :
    atlas.classNamed name = .error fault ↔
      atlas.index.declaration? name = none ∧ fault = .unknownClass name := by
  unfold classNamed
  cases atlas.index.declaration? name <;> simp [eq_comm]

theorem fileOfClass_eq_ok_iff {file : String} :
    atlas.fileOfClass name = .ok file ↔ atlas.index.classFiles.get? name = some file := by
  unfold fileOfClass
  cases atlas.index.classFiles.get? name <;> simp

/-- The listing has under each name what the lookup of the name finds. -/
theorem get?_classes (atlas : Atlas) (name : String) :
    atlas.classes.get? name = atlas.index.declaration? name :=
  Dict.get?_filterMap ..

theorem get?_methods (atlas : Atlas) (name : String) :
    atlas.methods.get? name =
      (atlas.index.declaration? name).map TypeDeclaration.callableDeclarations := by
  unfold methods
  rw [Dict.get?_map, get?_classes]

theorem mem_keys_classes_iff :
    name ∈ atlas.classes.keys ↔ ∃ type, atlas.classNamed name = .ok type := by
  rw [Dict.mem_keys_iff]
  simp only [get?_classes, classNamed_eq_ok_iff]

theorem keys_methods (atlas : Atlas) : atlas.methods.keys = atlas.classes.keys := Dict.keys_map ..

theorem extendedClasses_eq_ok_iff {names : List String} :
    atlas.extendedClasses name = .ok names ↔
      ∃ type, atlas.classNamed name = .ok type ∧ type.extendsList = names := by
  unfold extendedClasses
  rw [Fallible.bind_eq_ok_iff]
  simp only [Except.ok.injEq]

theorem implementedInterfaces_eq_ok_iff {names : List String} :
    atlas.implementedInterfaces name = .ok names ↔
      ∃ type, atlas.classNamed name = .ok type ∧ type.implementsList = names := by
  unfold implementedInterfaces
  rw [Fallible.bind_eq_ok_iff]
  simp only [Except.ok.injEq]

/-- The subclasses of a class are the classes that name it as extended or implemented. -/
theorem mem_keys_subclasses_iff {sub : String} :
    sub ∈ (atlas.subclasses name).keys ↔ (∃ type, atlas.classNamed sub = .ok type) ∧
      ((∃ names, atlas.extendedClasses sub = .ok names ∧ name ∈ names) ∨
        ∃ names, atlas.implementedInterfaces sub = .ok names ∧ name ∈ names) := by
  rw [Dict.mem_keys_iff]
  simp only [subclasses, Dict.get?_filter, Option.filter_eq_some_iff, get?_classes,
    Bool.or_eq_true, List.contains_iff_mem, extendedClasses_eq_ok_iff,
    implementedInterfaces_eq_ok_iff, classNamed_eq_ok_iff]
  constructor
  · rintro ⟨type, htype, hextends | himplements⟩
    · exact ⟨⟨type, htype⟩, .inl ⟨_, ⟨type, htype, rfl⟩, hextends⟩⟩
    · exact ⟨⟨type, htype⟩, .inr ⟨_, ⟨type, htype, rfl⟩, himplements⟩⟩
  · rintro ⟨-, ⟨_, ⟨type, htype, rfl⟩, hextends⟩ | ⟨_, ⟨type, htype, rfl⟩, himplements⟩⟩
    · exact ⟨type, htype, .inl hextends⟩
    · exact ⟨type, htype, .inr himplements⟩

end

/-! ## The atlas of a report -/

variable {root : Path} {report : Report} {name : String}

theorem isSome_firstFile?_iff {table : Dict String CompilationUnit} :
    (firstFile? table name).isSome = true ↔ DeclaredIn table name := by
  unfold firstFile? DeclaredIn Dict.values
  simp only [List.find?_isSome, Dict.contains_iff, List.mem_map, exists_exists_and_eq_and]

/-- A class that some file declares is looked up in the first file that does. -/
theorem exists_lookup_of_firstFile? {file : String} {unit : CompilationUnit}
    (h : firstFile? report.symbolTable name = some (file, unit)) :
    ∃ type, unit.typeDeclarations.get? name = some type ∧
      (ofReport root report).fileOfClass name = .ok file ∧
      (ofReport root report).classNamed name = .ok type := by
  have hfind : report.symbolTable.entries.find? (fun entry =>
      entry.2.typeDeclarations.contains name) = some (file, unit) := h
  have hdeclares : unit.typeDeclarations.contains name = true := by
    simpa using List.find?_some hfind
  obtain ⟨type, htype⟩ := Option.isSome_iff_exists.1 hdeclares
  refine ⟨type, htype, ?_, ?_⟩
  · rw [fileOfClass_eq_ok_iff]
    exact (get?_filesOfClasses_eq_firstFile? report.symbolTable name).trans (by rw [h]; rfl)
  · rw [classNamed_eq_ok_iff]
    exact (declaration?_ofTable report.symbolTable name).trans (by rw [h]; exact htype)

theorem exists_classNamed_iff :
    (∃ type, (ofReport root report).classNamed name = .ok type) ↔
      DeclaredIn report.symbolTable name := by
  rw [← isSome_firstFile?_iff]
  constructor
  · rintro ⟨type, htype⟩
    have hdeclaration := (declaration?_ofTable report.symbolTable name).symm.trans
      (classNamed_eq_ok_iff.1 htype)
    obtain ⟨entry, hentry, -⟩ := Option.bind_eq_some_iff.1 hdeclaration
    rw [hentry]
    rfl
  · intro hdeclared
    obtain ⟨⟨file, unit⟩, hfirst⟩ := Option.isSome_iff_exists.1 hdeclared
    obtain ⟨type, -, -, htype⟩ := exists_lookup_of_firstFile? hfirst
    exact ⟨type, htype⟩

theorem exists_fileOfClass_iff :
    (∃ file, (ofReport root report).fileOfClass name = .ok file) ↔
      DeclaredIn report.symbolTable name := by
  rw [← isSome_firstFile?_iff]
  simp only [fileOfClass_eq_ok_iff]
  show (∃ file, (filesOfClasses report.symbolTable).get? name = some file) ↔ _
  rw [get?_filesOfClasses_eq_firstFile?, ← Option.isSome_iff_exists, Option.isSome_map]

/-- The methods in the listing of all classes are those of first declarations. -/
theorem exists_listed_iff {className signature : String} {method : Callable} :
    (∃ type, (ofReport root report).classes.get? className = some type ∧
        type.callableDeclarations.get? signature = some method) ↔
      ∃ d ∈ declaredMethods report.symbolTable, d.IsFirst report.symbolTable ∧
        d.className = className ∧ d.signature = signature ∧ d.method = method := by
  rw [← callable?_eq_some_iff]
  simp only [get?_classes, callable?, Option.bind_eq_bind, Option.bind_eq_some_iff]
  rfl

/-- Whatever is asked about a declared class is answered from its first declaration. -/
theorem exists_lookup (h : DeclaredIn report.symbolTable name) :
    let atlas := ofReport root report
    ∃ file unit type, firstFile? report.symbolTable name = some (file, unit) ∧
      unit.typeDeclarations.get? name = some type ∧
      atlas.fileOfClass name = .ok file ∧
      atlas.classNamed name = .ok type ∧ atlas.classes.get? name = some type ∧
      atlas.methodsInClass name = .ok type.callableDeclarations ∧
      atlas.methods.get? name = some type.callableDeclarations := by
  intro atlas
  obtain ⟨⟨file, unit⟩, hfirst⟩ := Option.isSome_iff_exists.1 (isSome_firstFile?_iff.2 h)
  obtain ⟨type, htype, hfile, hclass⟩ : ∃ type, unit.typeDeclarations.get? name = some type ∧
    atlas.fileOfClass name = .ok file ∧ atlas.classNamed name = .ok type :=
      exists_lookup_of_firstFile? hfirst
  have hdeclaration := classNamed_eq_ok_iff.1 hclass
  refine ⟨file, unit, type, hfirst, htype, hfile, hclass, ?_, ?_, ?_⟩
  · rw [get?_classes, hdeclaration]
  · unfold methodsInClass
    rw [hclass]
    rfl
  · rw [get?_methods, hdeclaration]
    rfl

/-- The classes are listed in the order in which the files first declare them. -/
theorem keys_classes :
    (ofReport root report).classes.keys =
      (report.symbolTable.values.flatMap fun unit => unit.typeDeclarations.keys).eraseDups := by
  have hfiles : (ofReport root report).classes.keys = (filesOfClasses report.symbolTable).keys := by
    refine Dict.keys_filterMap ?_
    rintro ⟨name, file⟩ hentry
    obtain ⟨unit, hunit, hname⟩ :=
      declares_of_get?_filesOfClasses (Dict.mem_entries_iff.1 hentry)
    show ((report.symbolTable.get? file).bind _).isSome = true
    rw [hunit]
    exact (Dict.contains_iff _ _).2 hname
  rw [hfiles, filesOfClasses_eq, Dict.keys_insertAllNew]
  congr 1
  unfold classesWithFiles Dict.values
  simp only [Assoc.keys, List.map_flatMap, List.flatMap_map, List.map_map, Function.comp_def,
    List.map_id']

end JavaAtlas.Atlas
