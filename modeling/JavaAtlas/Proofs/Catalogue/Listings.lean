import JavaAtlas.Proofs.Atlas.Listings
import JavaAtlas.Proofs.Dispatch
import JavaAtlas.Proofs.Record.Kinds

set_option autoImplicit false

/-! # Listings and lookups through the tools

What a client gets from the tool that lists all classes and from the tool that looks one up are two
views of one program: the listing has the names that can be looked up, in the order of first
declaration, and under each name what the lookup answers (`listings_agree`). -/

namespace JavaAtlas.Catalogue

open Atlas SymbolIndex

variable {registry : Registry} {session : Session} {files : FileSystem} {atlas : Atlas}

/-! ## The two tools -/

theorem invoke_classesTool (h : builtin = .ok registry) (hcurrent : session.current = .ok atlas) :
    registry.invoke session files "get_classes_tool" [] = .ok (WriteJson.write atlas.classes) := by
  obtain ⟨kind, hfind⟩ := exists_find?_tool h 9 (c := tools[9]) rfl
  have hvalidate : Arguments.validate (Operation.ofCandidate kind tools[9]).descriptor [] =
      .ok ⟨"get_classes_tool", .empty⟩ := rfl
  refine (Registry.invoke_of_valid hfind hvalidate).trans ?_
  rw [hcurrent]
  refine Operation.run_eq_ok_iff.2 ?_
  show (.ok (encode atlas.classes) : Except Failure Encoded) = _
  rw [Faithful.encode_eq]

theorem invoke_classTool (h : builtin = .ok registry) (hcurrent : session.current = .ok atlas)
    (name : String) :
    registry.invoke session files "get_class_tool" [("qualified_class_name", .string name)] =
      ((atlas.classNamed name).map WriteJson.write).mapError QueryFault.toFailure := by
  obtain ⟨kind, hfind⟩ := exists_find?_tool h 11 (c := tools[11]) rfl
  have hvalidate : Arguments.validate (Operation.ofCandidate kind tools[11]).descriptor
      [("qualified_class_name", .string name)] =
        .ok ⟨"get_class_tool", Dict.empty.insert "qualified_class_name" (.string name)⟩ := rfl
  refine (Registry.invoke_of_valid hfind hvalidate).trans ?_
  rw [hcurrent]
  show Operation.run _ atlas files _ = _
  cases hclass : atlas.classNamed name with
  | error fault => exact Operation.run_of_error (congrArg answer hclass)
  | ok type =>
    have hanswer : answer (.ok type : Answer TypeDeclaration) = .ok (.ok (WriteJson.write type)) :=
      congrArg Except.ok (Faithful.encode_eq type)
    exact Operation.run_eq_ok_iff.2 ((congrArg answer hclass).trans hanswer)

/-- The tool that lists all classes has the names that the tool for one class finds, and under each
name what that tool answers. -/
theorem exists_listing (h : builtin = .ok registry) (hcurrent : session.current = .ok atlas) :
    ∃ members, registry.invoke session files "get_classes_tool" [] = .ok (.object members) ∧
      Assoc.keys members = atlas.classes.keys ∧
      ∀ name,
        let outcome := registry.invoke session files "get_class_tool"
          [("qualified_class_name", .string name)]
        (FailsAs .analysis outcome ↔ name ∉ Assoc.keys members) ∧
        ∀ value, outcome = .ok value ↔ Assoc.find? name members = some value := by
  let written := atlas.classes.map fun _ type => WriteJson.write type
  have hkeys : written.keys = atlas.classes.keys := Dict.keys_map ..
  refine ⟨written.entries, invoke_classesTool h hcurrent, hkeys, fun name => ?_⟩
  have hlisted : name ∈ written.keys ↔ ∃ type, atlas.classNamed name = .ok type := by
    rw [hkeys, mem_keys_classes_iff]
  have hfind : written.get? name =
      (atlas.index.declaration? name).map fun type => WriteJson.write type := by
    rw [Dict.get?_map, get?_classes]
  intro outcome
  have houtcome : outcome = ((atlas.classNamed name).map WriteJson.write).mapError
    QueryFault.toFailure := invoke_classTool h hcurrent name
  -- both sides of each equivalence are decided by whether the class is found
  show (_ ↔ name ∉ written.keys) ∧ ∀ value, _ ↔ written.get? name = some value
  rw [hlisted, hfind]
  cases hclass : atlas.classNamed name with
  | ok type =>
    rw [hclass] at houtcome
    rw [houtcome, classNamed_eq_ok_iff.1 hclass]
    refine ⟨⟨?_, ?_⟩, fun value => ?_⟩
    · rintro ⟨_, hok, -⟩
      exact absurd hok (by simp [Except.map, Except.mapError])
    · intro hmissing
      exact absurd ⟨type, rfl⟩ hmissing
    · simp [Except.map, Except.mapError]
  | error fault =>
    obtain ⟨hnone, rfl⟩ := classNamed_eq_error_iff.1 hclass
    rw [hclass] at houtcome
    rw [houtcome, hnone]
    refine ⟨⟨?_, ?_⟩, fun value => ?_⟩
    · rintro - ⟨_, hok⟩
      exact absurd hok (by simp)
    · intro _
      exact ⟨_, rfl, rfl⟩
    · simp [Except.map, Except.mapError]

/-! ## One program -/

/-- **Listings and lookups agree.** A class can be looked up, has a file, is listed and has listed
methods exactly if some file declares it. Then its file is the first one that declares it, its
declaration is the one in that file, and this is what the listings have under its name. The classes
are listed once each, in the order of first declaration, and the subclasses of a class are the
classes whose lookup says so. The lookup of a class fails as an analysis fails, so the tool that
looks up a class fails in this way exactly for the names that the listing tool leaves out. -/
theorem listings_agree :
    ∃ registry, builtin = .ok registry ∧ ∀ (root : Path) (report : Report),
      let atlas := Atlas.ofReport root report
      let table := report.symbolTable
      (∀ name,
        ((∃ type, atlas.classNamed name = .ok type) ↔ DeclaredIn table name) ∧
        ((∃ file, atlas.fileOfClass name = .ok file) ↔ DeclaredIn table name) ∧
        (name ∈ atlas.classes.keys ↔ DeclaredIn table name) ∧
        (name ∈ atlas.methods.keys ↔ DeclaredIn table name) ∧
        (DeclaredIn table name → ∃ file unit type,
          table.entries.find? (fun entry => entry.2.typeDeclarations.contains name) =
            some (file, unit) ∧
          unit.typeDeclarations.get? name = some type ∧
          atlas.fileOfClass name = .ok file ∧
          atlas.classNamed name = .ok type ∧ atlas.classes.get? name = some type ∧
          atlas.methodsInClass name = .ok type.callableDeclarations ∧
          atlas.methods.get? name = some type.callableDeclarations) ∧
        (∀ sub, sub ∈ (atlas.subclasses name).keys ↔
          (∃ type, atlas.classNamed sub = .ok type) ∧
            ((∃ names, atlas.extendedClasses sub = .ok names ∧ name ∈ names) ∨
              ∃ names, atlas.implementedInterfaces sub = .ok names ∧ name ∈ names)) ∧
        (∀ fault, atlas.classNamed name = .error fault → fault.toFailure.kind = .analysis)) ∧
      atlas.classes.keys =
        (table.values.flatMap fun unit => unit.typeDeclarations.keys).eraseDups ∧
      atlas.classes.keys.Nodup ∧
      ∀ session files, session.current = .ok atlas → ∃ members,
        registry.invoke session files "get_classes_tool" [] = .ok (.object members) ∧
        Assoc.keys members = atlas.classes.keys ∧
        ∀ name,
          let outcome := registry.invoke session files "get_class_tool"
            [("qualified_class_name", .string name)]
          (FailsAs .analysis outcome ↔ name ∉ Assoc.keys members) ∧
          ∀ value, outcome = .ok value ↔ Assoc.find? name members = some value := by
  obtain ⟨registry, hregistry, -⟩ := exists_builtin
  refine ⟨registry, hregistry, fun root report => ?_⟩
  intro atlas table
  refine ⟨fun name => ⟨exists_classNamed_iff, exists_fileOfClass_iff, ?_, ?_, exists_lookup,
      fun _ => mem_keys_subclasses_iff, ?_⟩, keys_classes, atlas.classes.nodup,
    fun session files hcurrent => exists_listing hregistry hcurrent⟩
  · rw [mem_keys_classes_iff]
    exact exists_classNamed_iff
  · rw [keys_methods, mem_keys_classes_iff]
    exact exists_classNamed_iff
  · intro fault hfault
    obtain ⟨-, rfl⟩ := classNamed_eq_error_iff.1 hfault
    rfl

/-- A program in which two files declare the class `Account`. -/
def twiceReport : Report where
  symbolTable := tableOf [
    ("a/Account.java", [("Account", [{ signature := "open()" }])]),
    ("b/Account.java", [("Account", [{ signature := "close()" }]), ("Bank", [])])]

theorem listings_agree_twice :
    ∃ registry session, builtin = .ok registry ∧
      session.current = .ok (Atlas.ofReport (.ofString "/p") twiceReport) ∧
      (Atlas.ofReport (.ofString "/p") twiceReport).classes.keys = ["Account", "Bank"] ∧
      FailsAs .analysis (registry.invoke session default "get_class_tool"
        [("qualified_class_name", .string "Teller")]) ∧
      ∃ value, registry.invoke session default "get_class_tool"
        [("qualified_class_name", .string "Bank")] = .ok value := by
  obtain ⟨registry, hregistry, hagree⟩ := listings_agree
  let session : Session :=
    { root := .ofString "/p", state := .ready
      atlas := some (ofReport (.ofString "/p") twiceReport) }
  obtain ⟨-, hkeys, -, htools⟩ := hagree (.ofString "/p") twiceReport
  obtain ⟨members, -, hmembers, hlookup⟩ := htools session default rfl
  have hnames : Assoc.keys members = ["Account", "Bank"] := by
    rw [hmembers, hkeys]
    decide
  have hbank : "Bank" ∈ Assoc.keys members := by
    rw [hnames]
    decide
  obtain ⟨value, hvalue⟩ := Option.isSome_iff_exists.1 (Assoc.find?_isSome_iff.2 hbank)
  refine ⟨registry, session, hregistry, rfl, hmembers.symm.trans hnames, ?_,
    value, ((hlookup "Bank").2 value).2 hvalue⟩
  rw [(hlookup "Teller").1, hnames]
  decide

end JavaAtlas.Catalogue
