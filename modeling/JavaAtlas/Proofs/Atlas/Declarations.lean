import JavaAtlas.Atlas.Basic
import JavaAtlas.Proofs.Data.Dict

set_option autoImplicit false

/-! # Declared methods and the index that finds them

`declaredMethods` reads a symbol table as one list of methods, each with the file, the class and the
signature under which it stands. The index looks a class up in the first file that declares it, so
`callable?_eq_some_iff` says that it finds exactly the methods of first declarations. -/

namespace JavaAtlas

/-- A method in the place where a file declares it. -/
structure DeclaredMethod where
  file : String
  className : String
  signature : String
  method : Callable

namespace DeclaredMethod

/-- The key of the method in call graphs. -/
def key (d : DeclaredMethod) : String := MethodDetail.keyOf d.className d.signature

/-- The method as a node of a call graph. -/
def detail (d : DeclaredMethod) : MethodDetail where
  methodDeclaration := d.method.declaration
  className := d.className
  method := d.method

end DeclaredMethod

namespace SymbolIndex

/-! ## The methods of a table -/

/-- The methods of one declaration of a class. -/
def methodsOfType (file className : String) (type : TypeDeclaration) : List DeclaredMethod :=
  type.callableDeclarations.entries.map fun (signature, method) =>
    ⟨file, className, signature, method⟩

/-- The methods of one file. -/
def methodsOfUnit (file : String) (unit : CompilationUnit) : List DeclaredMethod :=
  unit.typeDeclarations.entries.flatMap fun (className, type) => methodsOfType file className type

/-- The methods of a table, in the order of declaration. -/
def declaredMethods (table : Dict String CompilationUnit) : List DeclaredMethod :=
  table.entries.flatMap fun (file, unit) => methodsOfUnit file unit

/-- Every method stands under its own signature. -/
def SignaturesKeyed (table : Dict String CompilationUnit) : Prop :=
  ∀ d ∈ declaredMethods table, d.method.signature = d.signature

/-- No two files declare one class. -/
def ClassesDeclaredOnce (table : Dict String CompilationUnit) : Prop :=
  ∀ first ∈ table.entries, ∀ second ∈ table.entries, ∀ name ∈ first.2.typeDeclarations.keys,
    name ∈ second.2.typeDeclarations.keys → first.1 = second.1

/-- No class has the separator of method keys in its name. -/
def ClassNamesPlain (table : Dict String CompilationUnit) : Prop :=
  ∀ entry ∈ table.entries, ∀ name ∈ entry.2.typeDeclarations.keys, '#' ∉ name.toList

instance (table : Dict String CompilationUnit) : Decidable (SignaturesKeyed table) :=
  inferInstanceAs (Decidable (∀ d ∈ declaredMethods table, d.method.signature = d.signature))

instance (table : Dict String CompilationUnit) : Decidable (ClassesDeclaredOnce table) :=
  inferInstanceAs (Decidable (∀ first ∈ table.entries, ∀ second ∈ table.entries,
    ∀ name ∈ first.2.typeDeclarations.keys,
      name ∈ second.2.typeDeclarations.keys → first.1 = second.1))

instance (table : Dict String CompilationUnit) : Decidable (ClassNamesPlain table) :=
  inferInstanceAs (Decidable (∀ entry ∈ table.entries,
    ∀ name ∈ entry.2.typeDeclarations.keys, '#' ∉ name.toList))

theorem mem_declaredMethods {table : Dict String CompilationUnit} {d : DeclaredMethod} :
    d ∈ declaredMethods table ↔ ∃ unit type, table.get? d.file = some unit ∧
      unit.typeDeclarations.get? d.className = some type ∧
        type.callableDeclarations.get? d.signature = some d.method := by
  simp only [declaredMethods, methodsOfUnit, methodsOfType, List.mem_flatMap, List.mem_map]
  constructor
  · rintro ⟨⟨file, unit⟩, hunit, ⟨className, type⟩, htype, ⟨signature, method⟩, hmethod, rfl⟩
    exact ⟨unit, type, Dict.mem_entries_iff.1 hunit, Dict.mem_entries_iff.1 htype,
      Dict.mem_entries_iff.1 hmethod⟩
  · rintro ⟨unit, type, hunit, htype, hmethod⟩
    exact ⟨(d.file, unit), Dict.mem_entries_iff.2 hunit, (d.className, type),
      Dict.mem_entries_iff.2 htype, (d.signature, d.method), Dict.mem_entries_iff.2 hmethod, rfl⟩

theorem nodup_methodsOfType (file className : String) (type : TypeDeclaration) :
    (methodsOfType file className type).Nodup := by
  refine List.Nodup.of_map DeclaredMethod.signature ?_
  have hkeys := type.callableDeclarations.nodup
  simpa [methodsOfType, Assoc.keys, Function.comp_def] using hkeys

theorem nodup_methodsOfUnit (file : String) (unit : CompilationUnit) :
    (methodsOfUnit file unit).Nodup := by
  refine Dict.nodup_flatMap_entries _ _ DeclaredMethod.className
    (fun _ _ => nodup_methodsOfType ..) ?_
  rintro ⟨className, type⟩ _ d hd
  simp only [methodsOfType, List.mem_map] at hd
  obtain ⟨_, _, rfl⟩ := hd
  rfl

theorem nodup_declaredMethods (table : Dict String CompilationUnit) :
    (declaredMethods table).Nodup := by
  refine Dict.nodup_flatMap_entries _ _ DeclaredMethod.file (fun _ _ => nodup_methodsOfUnit ..) ?_
  rintro ⟨file, unit⟩ _ d hd
  simp only [methodsOfUnit, methodsOfType, List.mem_flatMap, List.mem_map] at hd
  obtain ⟨_, _, _, _, rfl⟩ := hd
  rfl

/-- A method that stands under its own signature has one key, as a declaration and as a node. -/
theorem SignaturesKeyed.key_detail {table : Dict String CompilationUnit} (h : SignaturesKeyed table)
    {d : DeclaredMethod} (hd : d ∈ declaredMethods table) : d.detail.key = d.key := by
  unfold MethodDetail.key DeclaredMethod.detail DeclaredMethod.key
  rw [h d hd]

theorem ClassNamesPlain.of_mem {table : Dict String CompilationUnit} (h : ClassNamesPlain table)
    {d : DeclaredMethod} (hd : d ∈ declaredMethods table) : '#' ∉ d.className.toList := by
  obtain ⟨unit, type, hunit, htype, _⟩ := mem_declaredMethods.1 hd
  exact h (d.file, unit) (Dict.mem_entries_iff.2 hunit) d.className
    (Dict.mem_keys_iff.2 ⟨type, htype⟩)

/-- A table written out: the files, their classes, and the methods of each class. -/
def tableOf (files : List (String × List (String × List Callable))) : Dict String CompilationUnit :=
  .ofList (files.map fun (file, classes) =>
    (file, { typeDeclarations := .ofList (classes.map fun (name, methods) =>
      (name, { callableDeclarations := .ofList (methods.map fun method =>
        (method.signature, method)) })) }))

/-! ## Keys -/

/-- Two texts with a separator are equal if they are cut at the same separator, or if one is cut at
a later separator than the other. -/
theorem append_separator_eq_iff {xs ys us vs : List Char} :
    xs ++ '#' :: us = ys ++ '#' :: vs ↔ xs = ys ∧ us = vs ∨
      (∃ between, ys = xs ++ '#' :: between ∧ us = between ++ '#' :: vs) ∨
        ∃ between, xs = ys ++ '#' :: between ∧ vs = between ++ '#' :: us := by
  rw [List.append_eq_append_iff]
  constructor
  · rintro (⟨_ | ⟨c, between⟩, hys, hus⟩ | ⟨_ | ⟨c, between⟩, hxs, hvs⟩)
    · simp_all
    · obtain ⟨rfl, hrest⟩ := List.cons.inj hus
      exact .inr (.inl ⟨between, hys, hrest⟩)
    · simp_all
    · obtain ⟨rfl, hrest⟩ := List.cons.inj hvs
      exact .inr (.inr ⟨between, hxs, hrest⟩)
  · rintro (⟨rfl, rfl⟩ | ⟨between, rfl, rfl⟩ | ⟨between, rfl, rfl⟩)
    · exact .inl ⟨[], by simp, rfl⟩
    · exact .inl ⟨'#' :: between, rfl, rfl⟩
    · exact .inr ⟨'#' :: between, rfl, rfl⟩

/-- Texts are cut at the same separator if it is the first one in both. -/
theorem append_separator_inj {xs ys us vs : List Char} (hxs : '#' ∉ xs) (hys : '#' ∉ ys)
    (h : xs ++ '#' :: us = ys ++ '#' :: vs) : xs = ys ∧ us = vs := by
  rcases append_separator_eq_iff.1 h with hsame | ⟨between, rfl, -⟩ | ⟨between, rfl, -⟩
  · exact hsame
  · exact absurd (by simp) hys
  · exact absurd (by simp) hxs

/-- A key names one class and one signature, as long as classes have no separator in their names. -/
theorem keyOf_inj {className className' signature signature' : String}
    (hclass : '#' ∉ className.toList) (hclass' : '#' ∉ className'.toList)
    (h : MethodDetail.keyOf className signature = MethodDetail.keyOf className' signature') :
    className = className' ∧ signature = signature' := by
  unfold MethodDetail.keyOf at h
  rw [← String.toList_inj] at h
  simp only [String.toList_append, List.append_assoc] at h
  obtain ⟨hc, hs⟩ := append_separator_inj hclass hclass' h
  exact ⟨String.toList_inj.1 hc, String.toList_inj.1 hs⟩

theorem ClassNamesPlain.key_inj {table : Dict String CompilationUnit} (h : ClassNamesPlain table)
    {d e : DeclaredMethod} (hd : d ∈ declaredMethods table) (he : e ∈ declaredMethods table)
    (hkey : d.key = e.key) : d.className = e.className ∧ d.signature = e.signature :=
  keyOf_inj (h.of_mem hd) (h.of_mem he) hkey

/-! ## The files of classes -/

/-- The classes of some files, each with its file. -/
def classesWithFiles (entries : List (String × CompilationUnit)) : List (String × String) :=
  entries.flatMap fun (file, unit) => unit.typeDeclarations.keys.map fun name => (name, file)

theorem filesOfClasses_eq (table : Dict String CompilationUnit) :
    filesOfClasses table = Dict.empty.insertAllNew (classesWithFiles table.entries) := by
  unfold filesOfClasses Dict.insertAllNew classesWithFiles
  rw [List.foldl_flatMap]
  simp only [List.foldl_map]

theorem get?_filesOfClasses (table : Dict String CompilationUnit) (name : String) :
    (filesOfClasses table).get? name = Assoc.find? name (classesWithFiles table.entries) := by
  rw [filesOfClasses_eq, Dict.get?_insertAllNew, Dict.get?_empty, Option.none_or]

/-- The first file that declares a class, with its compilation unit. -/
def firstFile? (table : Dict String CompilationUnit) (name : String) :
    Option (String × CompilationUnit) :=
  table.entries.find? fun entry => entry.2.typeDeclarations.contains name

theorem find?_classesWithFiles (entries : List (String × CompilationUnit)) (name : String) :
    Assoc.find? name (classesWithFiles entries) =
      (entries.find? fun entry => entry.2.typeDeclarations.contains name).map Prod.fst := by
  induction entries with
  | nil => rfl
  | cons entry rest ih =>
    have hsplit : classesWithFiles (entry :: rest) =
        entry.2.typeDeclarations.keys.map (fun declared => (declared, entry.1)) ++
          classesWithFiles rest := List.flatMap_cons
    rw [hsplit, Assoc.find?_append, ih]
    by_cases hname : name ∈ entry.2.typeDeclarations.keys
    · -- all the names of the file come with the same file
      have hfound : (Assoc.find? name (entry.2.typeDeclarations.keys.map fun declared =>
          (declared, entry.1))).isSome = true := by
        rw [Assoc.find?_isSome_iff]
        simpa [Assoc.keys] using hname
      obtain ⟨file, hfile⟩ := Option.isSome_iff_exists.1 hfound
      have hentry := Assoc.mem_of_find?_eq_some hfile
      simp only [List.mem_map, Prod.mk.injEq] at hentry
      obtain ⟨-, -, -, rfl⟩ := hentry
      have hcontains := (Dict.contains_iff _ _).2 hname
      rw [hfile, Option.some_or, List.find?_cons, hcontains]
      rfl
    · have hmissing : Assoc.find? name (entry.2.typeDeclarations.keys.map fun declared =>
          (declared, entry.1)) = none := by
        rw [Assoc.find?_eq_none_iff]
        simpa [Assoc.keys] using hname
      have hcontains : entry.2.typeDeclarations.contains name = false :=
        Bool.eq_false_iff.2 fun h => hname ((Dict.contains_iff _ _).1 h)
      rw [hmissing, Option.none_or, List.find?_cons, hcontains]

/-- The index has the first file that declares a class. -/
theorem get?_filesOfClasses_eq_firstFile? (table : Dict String CompilationUnit) (name : String) :
    (filesOfClasses table).get? name = (firstFile? table name).map Prod.fst := by
  rw [get?_filesOfClasses, find?_classesWithFiles]
  rfl

/-- A class is declared as the first file that has it declares it. -/
theorem declaration?_ofTable (table : Dict String CompilationUnit) (name : String) :
    (ofTable table).declaration? name =
      (firstFile? table name).bind fun entry => entry.2.typeDeclarations.get? name := by
  show ((filesOfClasses table).get? name).bind (fun file => (table.get? file).bind fun unit =>
    unit.typeDeclarations.get? name) = _
  rw [get?_filesOfClasses_eq_firstFile?]
  cases hfirst : firstFile? table name with
  | none => rfl
  | some entry =>
    have hget := Dict.mem_entries_iff.1 (List.mem_of_find?_eq_some hfirst)
    show (table.get? entry.1).bind _ = _
    rw [hget]
    rfl

/-- The file that the index has for a class declares it. -/
theorem declares_of_get?_filesOfClasses {table : Dict String CompilationUnit} {name file : String}
    (h : (filesOfClasses table).get? name = some file) :
    ∃ unit, table.get? file = some unit ∧ name ∈ unit.typeDeclarations.keys := by
  rw [get?_filesOfClasses] at h
  have hmem := Assoc.mem_of_find?_eq_some h
  simp only [classesWithFiles, List.mem_flatMap, List.mem_map, Prod.mk.injEq] at hmem
  obtain ⟨⟨file', unit⟩, hunit, name', hname, rfl, rfl⟩ := hmem
  exact ⟨unit, Dict.mem_entries_iff.1 hunit, hname⟩

/-- Every declared class has a file in the index. -/
theorem exists_get?_filesOfClasses {table : Dict String CompilationUnit} {file name : String}
    {unit : CompilationUnit} (hunit : table.get? file = some unit)
    (hname : name ∈ unit.typeDeclarations.keys) :
    ∃ first, (filesOfClasses table).get? name = some first := by
  rw [← Option.isSome_iff_exists, get?_filesOfClasses, Assoc.find?_isSome_iff, Assoc.mem_keys_iff]
  refine ⟨file, ?_⟩
  simp only [classesWithFiles, List.mem_flatMap, List.mem_map, Prod.mk.injEq]
  exact ⟨(file, unit), Dict.mem_entries_iff.2 hunit, name, hname, rfl, rfl⟩

/-! ## First declarations -/

end SymbolIndex

/-- Whether the method belongs to the declaration of its class that counts. -/
def DeclaredMethod.IsFirst (table : Dict String CompilationUnit) (d : DeclaredMethod) : Prop :=
  (SymbolIndex.filesOfClasses table).get? d.className = some d.file

instance (table : Dict String CompilationUnit) : DecidablePred (DeclaredMethod.IsFirst table) :=
  fun _ => inferInstanceAs (Decidable (_ = _))

namespace SymbolIndex

theorem ClassesDeclaredOnce.isFirst {table : Dict String CompilationUnit}
    (h : ClassesDeclaredOnce table) {d : DeclaredMethod} (hd : d ∈ declaredMethods table) :
    d.IsFirst table := by
  obtain ⟨unit, type, hunit, htype, _⟩ := mem_declaredMethods.1 hd
  have hname : d.className ∈ unit.typeDeclarations.keys := Dict.mem_keys_iff.2 ⟨type, htype⟩
  obtain ⟨first, hfirst⟩ := exists_get?_filesOfClasses hunit hname
  obtain ⟨unit', hunit', hname'⟩ := declares_of_get?_filesOfClasses hfirst
  have hfile : first = d.file := h (first, unit') (Dict.mem_entries_iff.2 hunit') (d.file, unit)
    (Dict.mem_entries_iff.2 hunit) d.className hname' hname
  show (filesOfClasses table).get? d.className = some d.file
  rw [← hfile]
  exact hfirst

/-- The index finds exactly the methods of first declarations. -/
theorem callable?_eq_some_iff {table : Dict String CompilationUnit} {className signature : String}
    {method : Callable} :
    (ofTable table).callable? className signature = some method ↔
      ∃ d ∈ declaredMethods table, d.IsFirst table ∧ d.className = className ∧
        d.signature = signature ∧ d.method = method := by
  simp only [callable?, declaration?, ofTable, Option.bind_eq_bind, Option.bind_eq_some_iff]
  constructor
  · rintro ⟨type, ⟨file, hfile, unit, hunit, htype⟩, hmethod⟩
    exact ⟨⟨file, className, signature, method⟩,
      mem_declaredMethods.2 ⟨unit, type, hunit, htype, hmethod⟩, hfile, rfl, rfl, rfl⟩
  · rintro ⟨d, hd, hfirst, rfl, rfl, rfl⟩
    obtain ⟨unit, type, hunit, htype, hmethod⟩ := mem_declaredMethods.1 hd
    exact ⟨type, ⟨d.file, hfirst, unit, hunit, htype⟩, hmethod⟩

/-- A first declaration has at most one method under a signature. -/
theorem eq_of_isFirst {table : Dict String CompilationUnit} {d e : DeclaredMethod}
    (hd : d ∈ declaredMethods table) (he : e ∈ declaredMethods table) (hdf : d.IsFirst table)
    (hef : e.IsFirst table) (hclass : d.className = e.className)
    (hsignature : d.signature = e.signature) : d = e := by
  have hfile : d.file = e.file := by
    unfold DeclaredMethod.IsFirst at hdf hef
    rw [hclass, hef] at hdf
    exact (Option.some.inj hdf).symm
  have hmethod : some d.method = some e.method := by
    rw [← callable?_eq_some_iff.2 ⟨d, hd, hdf, rfl, rfl, rfl⟩,
      ← callable?_eq_some_iff.2 ⟨e, he, hef, rfl, rfl, rfl⟩, hclass, hsignature]
  cases d
  cases e
  simp_all

/-- If every class is declared once, a key names one method. -/
theorem eq_of_key_eq {table : Dict String CompilationUnit} (honce : ClassesDeclaredOnce table)
    (hplain : ClassNamesPlain table) {d e : DeclaredMethod} (hd : d ∈ declaredMethods table)
    (he : e ∈ declaredMethods table) (hkey : d.key = e.key) : d = e := by
  obtain ⟨hclass, hsignature⟩ := hplain.key_inj hd he hkey
  exact eq_of_isFirst hd he (honce.isFirst hd) (honce.isFirst he) hclass hsignature

end SymbolIndex

end JavaAtlas
