import JavaAtlas.Operation.Registry

set_option autoImplicit false

/-! # The query tools

Each tool binds a name and its parameters to one query of the atlas. -/

namespace JavaAtlas.Catalogue

/-! ## Parameters -/

/-- The class that a query is about. -/
def classParameter : Parameter :=
  .needed "qualified_class_name" .text "Fully qualified class name, e.g. com.acme.OrderService"

/-- The method that a query is about. -/
def methodParameter : Parameter :=
  .needed "qualified_method_name" .text
    "Method signature as it appears in the symbol table, e.g. place(java.lang.String)"

/-- The method that a query is about, by signature. -/
def signatureParameter : Parameter :=
  .needed "method_signature" .text "Method signature as it appears in the symbol table"

/-- The file that a query is about. -/
def fileParameter : Parameter :=
  .needed "file_path" .text
    "Java source file, as a symbol-table key or a path relative to the project"

/-- The choice of the call graph. -/
def sourceParameter (default : Bool) : Parameter :=
  .withDefault "using_symbol_table" .flag (.flag default)
    "Read the call graph derived from symbol-table call sites instead of the analyzer's"

/-! ## Actions -/

/-- The wire form of an answer, or the fault as a failure. -/
def answer {α : Type} [Encode α] : Answer α → Except Failure Encoded
  | .ok a => .ok (encode a)
  | .error fault => .error fault.toFailure

/-- A query of the whole atlas. -/
def ofAtlas {α : Type} [Encode α] (query : Atlas → α) : Action :=
  fun atlas _ _ => .ok (encode (query atlas))

/-- A query about a class. -/
def ofClass {α : Type} [Encode α] (query : Atlas → String → Answer α) : Action :=
  fun atlas _ arguments => do
    let name ← arguments.text "qualified_class_name"
    answer (query atlas name)

/-- A query about a method, whose signature is the argument `parameter`. -/
def ofMethod {α : Type} [Encode α] (parameter : String)
    (query : Atlas → String → String → Answer α) : Action :=
  fun atlas _ arguments => do
    let className ← arguments.text "qualified_class_name"
    let signature ← arguments.text parameter
    answer (query atlas className signature)

/-- A query about a file. -/
def ofFile {α : Type} [Encode α] (query : Atlas → String → Answer α) : Action :=
  fun atlas _ arguments => do
    let path ← arguments.text "file_path"
    answer (query atlas path)

/-- The call graph that the arguments choose. -/
def graphSource (arguments : Arguments) : Except Failure GraphSource := do
  .ok (if ← arguments.flag "using_symbol_table" then .symbolTable else .analyzer)

/-- The call graph. -/
def callGraphAction : Action := fun atlas _ arguments => do
  let source ← graphSource arguments
  .ok (encode (atlas.callGraph source))

/-- The callers of a method. -/
def callersAction : Action := fun atlas _ arguments => do
  let className ← arguments.text "target_class_name"
  let signature ← arguments.text "target_method_declaration"
  let source ← graphSource arguments
  answer (atlas.callers className signature source)

/-- The callees of a method. -/
def calleesAction : Action := fun atlas _ arguments => do
  let className ← arguments.text "source_class_name"
  let signature ← arguments.text "source_method_declaration"
  let source ← graphSource arguments
  answer (atlas.callees className signature source)

/-- The classes with certain names. -/
def criteriaAction : Action := fun atlas _ arguments => do
  let inclusions ← arguments.textList "inclusions"
  let exclusions ← arguments.textList "exclusions"
  .ok (encode (atlas.classesByCriteria inclusions exclusions))

/-- The calls out of a class. -/
def classCallsAction : Action := fun atlas _ arguments => do
  let className ← arguments.text "qualified_class_name"
  let source ← graphSource arguments
  answer (atlas.classCalls className (arguments.text? "method_signature") source)

/-- The sources without comments. -/
def sourcesAction : Action := fun atlas files _ => answer (atlas.sourceWithoutComments files)

/-- The persistence operations, of one kind only if `kind` is given. -/
def crud (kind : Option CrudKind) : Action := ofAtlas (·.crudUsages kind)

/-! ## The table -/

/-- Every query tool. -/
def tools : List Candidate := [
  { name := "are_we_ready_tool"
    description := "Report the project path the analysis is bound to. Succeeds only once the " ++
      "analysis is ready."
    parameters := []
    shape := .scalar
    action := ofAtlas Atlas.root },
  { name := "get_application_view_tool"
    description := "The whole JApplication: symbol table, call graph and system dependency graph."
    parameters := []
    shape := .record
    action := ofAtlas Atlas.application },
  { name := "get_symbol_table_tool"
    description := "Symbol table mapping each source file to its JCompilationUnit."
    parameters := []
    shape := .mapping
    action := ofAtlas Atlas.symbolTable },
  { name := "get_compilation_units_tool"
    description := "Every JCompilationUnit in the project."
    parameters := []
    shape := .list
    action := ofAtlas fun atlas => atlas.symbolTable.values },
  { name := "get_call_graph_tool"
    description := "Call graph as nodes keyed by <class>#<signature> (JMethodDetail) and CALL_DEP " ++
      "edges referencing those keys."
    parameters := [sourceParameter false]
    shape := .graph
    action := callGraphAction },
  { name := "get_call_graph_json_tool"
    description := "Call graph flattened to one record per edge with source and target class, " ++
      "signature and body."
    parameters := []
    shape := .list
    action := ofAtlas Atlas.callGraphEdges },
  { name := "get_callers_tool"
    description := "Methods that call the target method, with the lines of each call."
    parameters := [
      .needed "target_class_name" .text "Class declaring the target method",
      .needed "target_method_declaration" .text "Signature of the target method",
      sourceParameter true]
    shape := .record
    action := callersAction },
  { name := "get_callees_tool"
    description := "Methods called by the source method, with the lines of each call."
    parameters := [
      .needed "source_class_name" .text "Class declaring the source method",
      .needed "source_method_declaration" .text "Signature of the source method",
      sourceParameter true]
    shape := .record
    action := calleesAction },
  { name := "get_methods_tool"
    description := "Every method in the project: class name -> signature -> JCallable."
    parameters := []
    shape := .mapping
    action := ofAtlas Atlas.methods },
  { name := "get_classes_tool"
    description := "Every class, interface, enum and record: qualified name -> JType."
    parameters := []
    shape := .mapping
    action := ofAtlas Atlas.classes },
  { name := "get_classes_by_criteria_tool"
    description := "Classes whose name contains any inclusion substring and no exclusion " ++
      "substring. No inclusions selects nothing."
    parameters := [
      .withDefault "inclusions" .textList .null "Substrings a class name must contain (any)",
      .withDefault "exclusions" .textList .null "Substrings a class name must not contain"]
    shape := .mapping
    action := criteriaAction },
  { name := "get_class_tool"
    description := "The JType of one class."
    parameters := [classParameter]
    shape := .record
    action := ofClass Atlas.classNamed },
  { name := "get_method_tool"
    description := "The JCallable of one method."
    parameters := [classParameter, methodParameter]
    shape := .record
    action := ofMethod "qualified_method_name" Atlas.method },
  { name := "get_method_parameters_tool"
    description := "Parameter names of one method, in declaration order."
    parameters := [classParameter, methodParameter]
    shape := .list
    action := ofMethod "qualified_method_name" Atlas.methodParameters },
  { name := "get_java_file_tool"
    description := "Source file declaring a class."
    parameters := [classParameter]
    shape := .scalar
    action := ofClass Atlas.fileOfClass },
  { name := "get_java_compilation_unit_tool"
    description := "The JCompilationUnit of one source file."
    parameters := [fileParameter]
    shape := .record
    action := ofFile Atlas.compilationUnit },
  { name := "get_methods_in_class_tool"
    description := "Methods and constructors of a class: signature -> JCallable."
    parameters := [classParameter]
    shape := .mapping
    action := ofClass Atlas.methodsInClass },
  { name := "get_constructors_tool"
    description := "Constructors of a class: signature -> JCallable."
    parameters := [classParameter]
    shape := .mapping
    action := ofClass Atlas.constructors },
  { name := "get_fields_tool"
    description := "Field declarations (JField) of a class."
    parameters := [classParameter]
    shape := .list
    action := ofClass Atlas.fields },
  { name := "get_nested_classes_tool"
    description := "Nested types (JType) declared inside a class."
    parameters := [classParameter]
    shape := .list
    action := ofClass Atlas.nestedClasses },
  { name := "get_sub_classes_tool"
    description := "Classes that extend or implement the given type, which may be a library type."
    parameters := [classParameter]
    shape := .mapping
    action := ofClass fun atlas name => .ok (atlas.subclasses name) },
  { name := "get_extended_classes_tool"
    description := "Superclasses named in a class's extends clause."
    parameters := [classParameter]
    shape := .list
    action := ofClass Atlas.extendedClasses },
  { name := "get_implemented_interfaces_tool"
    description := "Interfaces named in a class's implements clause."
    parameters := [classParameter]
    shape := .list
    action := ofClass Atlas.implementedInterfaces },
  { name := "get_class_call_graph_tool"
    description := "(caller, callee) JMethodDetail pairs for calls made from a class, or from one " ++
      "of its methods."
    parameters := [
      classParameter,
      .withDefault "method_signature" .text .null "Restrict to calls made by this method",
      sourceParameter false]
    shape := .list
    action := classCallsAction },
  { name := "get_entry_point_classes_tool"
    description := "Entry-point classes (servlets, controllers, main classes, ...): qualified name " ++
      "-> JType."
    parameters := []
    shape := .mapping
    action := ofAtlas Atlas.entryPointClasses },
  { name := "get_entry_point_methods_tool"
    description := "Entry-point methods: class name -> signature -> JCallable."
    parameters := []
    shape := .mapping
    action := ofAtlas Atlas.entryPointMethods },
  { name := "remove_all_comments_tool"
    description := "Source of every file with comments removed: file -> source. Line numbers are " ++
      "preserved."
    parameters := []
    shape := .mapping
    action := sourcesAction },
  { name := "get_test_methods_tool"
    description := "Methods annotated as tests (JUnit, TestNG): <class>#<signature> -> body."
    parameters := []
    shape := .mapping
    action := ofAtlas Atlas.testMethods },
  { name := "get_all_crud_operations_tool"
    description := "Every method performing CRUD operations, with those operations."
    parameters := []
    shape := .list
    action := crud none },
  { name := "get_all_create_operations_tool"
    description := "Methods performing CREATE operations."
    parameters := []
    shape := .list
    action := crud (some .create) },
  { name := "get_all_read_operations_tool"
    description := "Methods performing READ operations."
    parameters := []
    shape := .list
    action := crud (some .read) },
  { name := "get_all_update_operations_tool"
    description := "Methods performing UPDATE operations."
    parameters := []
    shape := .list
    action := crud (some .update) },
  { name := "get_all_delete_operations_tool"
    description := "Methods performing DELETE operations."
    parameters := []
    shape := .list
    action := crud (some .delete) },
  { name := "get_comments_in_a_method_tool"
    description := "Comments (JComment) inside one method."
    parameters := [classParameter, signatureParameter]
    shape := .list
    action := ofMethod "method_signature" Atlas.commentsInMethod },
  { name := "get_comments_in_a_class_tool"
    description := "Comments (JComment) attached to one class."
    parameters := [classParameter]
    shape := .list
    action := ofClass Atlas.commentsInClass },
  { name := "get_comment_in_file_tool"
    description := "Comments (JComment) in one source file."
    parameters := [fileParameter]
    shape := .list
    action := ofFile Atlas.commentsInFile },
  { name := "get_all_comments_tool"
    description := "Every comment in the project: file -> [JComment]."
    parameters := []
    shape := .mapping
    action := ofAtlas Atlas.allComments },
  { name := "get_all_docstrings_tool"
    description := "Javadoc comments: file -> [JComment], for files that have any."
    parameters := []
    shape := .mapping
    action := ofAtlas Atlas.allDocstrings }]

end JavaAtlas.Catalogue
