import JavaAtlas.Model.Callable

set_option autoImplicit false

/-! # Types and source files

A type declaration keeps its callables by signature, and a compilation unit its types by qualified
name, both in the order of declaration. -/

namespace JavaAtlas

/-- A class, interface, enum, annotation or record declaration. -/
structure TypeDeclaration where
  isInterface : Bool := false
  isInnerClass : Bool := false
  isLocalClass : Bool := false
  isNestedType : Bool := false
  isClassOrInterfaceDeclaration : Bool := false
  isEnumDeclaration : Bool := false
  isAnnotationDeclaration : Bool := false
  isRecordDeclaration : Bool := false
  isConcreteClass : Bool := false
  comments : List Comment := []
  extendsList : List String := []
  implementsList : List String := []
  modifiers : List String := []
  annotations : List String := []
  parentType : String := ""
  nestedTypeDeclarations : List String := []
  callableDeclarations : Dict String Callable := .empty
  fieldDeclarations : List FieldDeclaration := []
  enumConstants : List EnumConstant := []
  recordComponents : List RecordComponent := []
  initializationBlocks : List InitializerBlock := []
  isEntrypointClass : Bool := false
deriving Inhabited

instance : Record TypeDeclaration where
  schema := {
    title := "JType"
    blank := {}
    members := [
      .of "is_interface" (·.isInterface) (fun v r => { r with isInterface := v }),
      .of "is_inner_class" (·.isInnerClass) (fun v r => { r with isInnerClass := v }),
      .of "is_local_class" (·.isLocalClass) (fun v r => { r with isLocalClass := v }),
      .of "is_nested_type" (·.isNestedType) (fun v r => { r with isNestedType := v }),
      .of "is_class_or_interface_declaration" (·.isClassOrInterfaceDeclaration)
        (fun v r => { r with isClassOrInterfaceDeclaration := v }),
      .of "is_enum_declaration" (·.isEnumDeclaration)
        (fun v r => { r with isEnumDeclaration := v }),
      .of "is_annotation_declaration" (·.isAnnotationDeclaration)
        (fun v r => { r with isAnnotationDeclaration := v }),
      .of "is_record_declaration" (·.isRecordDeclaration)
        (fun v r => { r with isRecordDeclaration := v }),
      .of "is_concrete_class" (·.isConcreteClass) (fun v r => { r with isConcreteClass := v }),
      .of "comments" (·.comments) (fun v r => { r with comments := v }),
      .of "extends_list" (·.extendsList) (fun v r => { r with extendsList := v }),
      .of "implements_list" (·.implementsList) (fun v r => { r with implementsList := v }),
      .of "modifiers" (·.modifiers) (fun v r => { r with modifiers := v }),
      .of "annotations" (·.annotations) (fun v r => { r with annotations := v }),
      .of "parent_type" (·.parentType) (fun v r => { r with parentType := v }),
      .of "nested_type_declarations" (·.nestedTypeDeclarations)
        (fun v r => { r with nestedTypeDeclarations := v }),
      .of "callable_declarations" (·.callableDeclarations)
        (fun v r => { r with callableDeclarations := v }),
      .of "field_declarations" (·.fieldDeclarations) (fun v r => { r with fieldDeclarations := v }),
      .of "enum_constants" (·.enumConstants) (fun v r => { r with enumConstants := v }),
      .of "record_components" (·.recordComponents) (fun v r => { r with recordComponents := v }),
      .of "initialization_blocks" (·.initializationBlocks)
        (fun v r => { r with initializationBlocks := v }),
      .of "is_entrypoint_class" (·.isEntrypointClass)
        (fun v r => { r with isEntrypointClass := v })]
    fields := [
      .of "is_interface" (·.isInterface),
      .of "is_inner_class" (·.isInnerClass),
      .of "is_local_class" (·.isLocalClass),
      .of "is_nested_type" (·.isNestedType),
      .of "is_class_or_interface_declaration" (·.isClassOrInterfaceDeclaration),
      .of "is_enum_declaration" (·.isEnumDeclaration),
      .of "is_annotation_declaration" (·.isAnnotationDeclaration),
      .of "is_record_declaration" (·.isRecordDeclaration),
      .of "is_concrete_class" (·.isConcreteClass),
      .of "comments" (·.comments),
      .of "extends_list" (·.extendsList),
      .of "implements_list" (·.implementsList),
      .of "modifiers" (·.modifiers),
      .of "annotations" (·.annotations),
      .of "parent_type" (·.parentType),
      .of "nested_type_declarations" (·.nestedTypeDeclarations),
      .of "callable_declarations" (·.callableDeclarations),
      .of "field_declarations" (·.fieldDeclarations),
      .of "enum_constants" (·.enumConstants),
      .of "record_components" (·.recordComponents),
      .of "initialization_blocks" (·.initializationBlocks),
      .of "is_entrypoint_class" (·.isEntrypointClass)]
  }

/-- A source file. -/
structure CompilationUnit where
  filePath : String := ""
  packageName : String := ""
  comments : List Comment := []
  imports : List String := []
  typeDeclarations : Dict String TypeDeclaration := .empty
  isModified : Bool := false
deriving Inhabited

instance : Record CompilationUnit where
  schema := {
    title := "JCompilationUnit"
    blank := {}
    members := [
      .of "file_path" (·.filePath) (fun v r => { r with filePath := v }),
      .of "package_name" (·.packageName) (fun v r => { r with packageName := v }),
      .of "comments" (·.comments) (fun v r => { r with comments := v }),
      .of "imports" (·.imports) (fun v r => { r with imports := v }),
      .of "type_declarations" (·.typeDeclarations) (fun v r => { r with typeDeclarations := v }),
      .of "is_modified" (·.isModified) (fun v r => { r with isModified := v })]
    fields := [
      .of "file_path" (·.filePath),
      .of "package_name" (·.packageName),
      .of "comments" (·.comments),
      .of "imports" (·.imports),
      .of "type_declarations" (·.typeDeclarations),
      .of "is_modified" (·.isModified)]
  }

end JavaAtlas
