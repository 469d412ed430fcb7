import JavaAtlas.Model.Comment
import JavaAtlas.Model.Crud

set_option autoImplicit false

/-! # Methods and constructors

A callable holds its signature, its source text and what happens in its body: call sites, local
variables and persistence operations. -/

namespace JavaAtlas

/-- A call inside a body. -/
structure CallSite where
  comment : Option Comment := none
  methodName : String := ""
  receiverExpr : String := ""
  receiverType : String := ""
  argumentTypes : List String := []
  returnType : String := ""
  calleeSignature : String := ""
  isStaticCall : Option Bool := none
  isConstructorCall : Bool := false
  crudOperation : Option CrudOperation := none
  crudQuery : Option CrudQuery := none
  startLine : Int64 := 0
  startColumn : Int64 := 0
  endLine : Int64 := 0
  endColumn : Int64 := 0
deriving Inhabited

instance : Record CallSite where
  schema := {
    title := "JCallSite"
    blank := {}
    members := [
      .of "comment" (·.comment) (fun v r => { r with comment := v }),
      .of "method_name" (·.methodName) (fun v r => { r with methodName := v }),
      .of "receiver_expr" (·.receiverExpr) (fun v r => { r with receiverExpr := v }),
      .of "receiver_type" (·.receiverType) (fun v r => { r with receiverType := v }),
      .of "argument_types" (·.argumentTypes) (fun v r => { r with argumentTypes := v }),
      .of "return_type" (·.returnType) (fun v r => { r with returnType := v }),
      .of "callee_signature" (·.calleeSignature) (fun v r => { r with calleeSignature := v }),
      .of "is_static_call" (·.isStaticCall) (fun v r => { r with isStaticCall := v }),
      .of "is_constructor_call" (·.isConstructorCall)
        (fun v r => { r with isConstructorCall := v }),
      .of "crud_operation" (·.crudOperation) (fun v r => { r with crudOperation := v }),
      .of "crud_query" (·.crudQuery) (fun v r => { r with crudQuery := v }),
      .of "start_line" (·.startLine) (fun v r => { r with startLine := v }),
      .of "start_column" (·.startColumn) (fun v r => { r with startColumn := v }),
      .of "end_line" (·.endLine) (fun v r => { r with endLine := v }),
      .of "end_column" (·.endColumn) (fun v r => { r with endColumn := v })]
    fields := [
      .of "comment" (·.comment),
      .of "method_name" (·.methodName),
      .of "receiver_expr" (·.receiverExpr),
      .of "receiver_type" (·.receiverType),
      .of "argument_types" (·.argumentTypes),
      .of "return_type" (·.returnType),
      .of "callee_signature" (·.calleeSignature),
      .of "is_static_call" (·.isStaticCall),
      .of "is_constructor_call" (·.isConstructorCall),
      .of "crud_operation" (·.crudOperation),
      .of "crud_query" (·.crudQuery),
      .of "start_line" (·.startLine),
      .of "start_column" (·.startColumn),
      .of "end_line" (·.endLine),
      .of "end_column" (·.endColumn)]
  }

/-- A local variable declaration. -/
structure VariableDeclaration where
  comment : Option Comment := none
  name : String := ""
  typeName : String := ""
  initializer : String := ""
  startLine : Int64 := 0
  startColumn : Int64 := 0
  endLine : Int64 := 0
  endColumn : Int64 := 0
deriving Inhabited

instance : Record VariableDeclaration where
  schema := {
    title := "JVariableDeclaration"
    blank := {}
    members := [
      .of "comment" (·.comment) (fun v r => { r with comment := v }),
      .of "name" (·.name) (fun v r => { r with name := v }),
      .of "type" (·.typeName) (fun v r => { r with typeName := v }),
      .of "initializer" (·.initializer) (fun v r => { r with initializer := v }),
      .of "start_line" (·.startLine) (fun v r => { r with startLine := v }),
      .of "start_column" (·.startColumn) (fun v r => { r with startColumn := v }),
      .of "end_line" (·.endLine) (fun v r => { r with endLine := v }),
      .of "end_column" (·.endColumn) (fun v r => { r with endColumn := v })]
    fields := [
      .of "comment" (·.comment),
      .of "name" (·.name),
      .of "type" (·.typeName),
      .of "initializer" (·.initializer),
      .of "start_line" (·.startLine),
      .of "start_column" (·.startColumn),
      .of "end_line" (·.endLine),
      .of "end_column" (·.endColumn)]
  }

/-- A static or instance initializer block. -/
structure InitializerBlock where
  filePath : String := ""
  comments : List Comment := []
  annotations : List String := []
  thrownExceptions : List String := []
  code : String := ""
  startLine : Int64 := 0
  endLine : Int64 := 0
  isStatic : Bool := false
  referencedTypes : List String := []
  accessedFields : List String := []
  callSites : List CallSite := []
  variableDeclarations : List VariableDeclaration := []
  cyclomaticComplexity : Int64 := 0
deriving Inhabited

instance : Record InitializerBlock where
  schema := {
    title := "InitializationBlock"
    blank := {}
    members := [
      .of "file_path" (·.filePath) (fun v r => { r with filePath := v }),
      .of "comments" (·.comments) (fun v r => { r with comments := v }),
      .of "annotations" (·.annotations) (fun v r => { r with annotations := v }),
      .of "thrown_exceptions" (·.thrownExceptions) (fun v r => { r with thrownExceptions := v }),
      .of "code" (·.code) (fun v r => { r with code := v }),
      .of "start_line" (·.startLine) (fun v r => { r with startLine := v }),
      .of "end_line" (·.endLine) (fun v r => { r with endLine := v }),
      .of "is_static" (·.isStatic) (fun v r => { r with isStatic := v }),
      .of "referenced_types" (·.referencedTypes) (fun v r => { r with referencedTypes := v }),
      .of "accessed_fields" (·.accessedFields) (fun v r => { r with accessedFields := v }),
      .of "call_sites" (·.callSites) (fun v r => { r with callSites := v }),
      .of "variable_declarations" (·.variableDeclarations)
        (fun v r => { r with variableDeclarations := v }),
      .of "cyclomatic_complexity" (·.cyclomaticComplexity)
        (fun v r => { r with cyclomaticComplexity := v })]
    fields := [
      .of "file_path" (·.filePath),
      .of "comments" (·.comments),
      .of "annotations" (·.annotations),
      .of "thrown_exceptions" (·.thrownExceptions),
      .of "code" (·.code),
      .of "start_line" (·.startLine),
      .of "end_line" (·.endLine),
      .of "is_static" (·.isStatic),
      .of "referenced_types" (·.referencedTypes),
      .of "accessed_fields" (·.accessedFields),
      .of "call_sites" (·.callSites),
      .of "variable_declarations" (·.variableDeclarations),
      .of "cyclomatic_complexity" (·.cyclomaticComplexity)]
  }

/-- A method or constructor. -/
structure Callable where
  signature : String := ""
  isImplicit : Bool := false
  isConstructor : Bool := false
  comments : List Comment := []
  annotations : List String := []
  modifiers : List String := []
  thrownExceptions : List String := []
  declaration : String := ""
  parameters : List FormalParameter := []
  returnType : Option String := none
  code : String := ""
  startLine : Int64 := 0
  endLine : Int64 := 0
  referencedTypes : List String := []
  accessedFields : List String := []
  callSites : List CallSite := []
  isEntrypoint : Bool := false
  variableDeclarations : List VariableDeclaration := []
  crudOperations : List CrudOperation := []
  crudQueries : List CrudQuery := []
  cyclomaticComplexity : Int64 := 0
deriving Inhabited

instance : Record Callable where
  schema := {
    title := "JCallable"
    blank := {}
    members := [
      .of "signature" (·.signature) (fun v r => { r with signature := v }),
      .of "is_implicit" (·.isImplicit) (fun v r => { r with isImplicit := v }),
      .of "is_constructor" (·.isConstructor) (fun v r => { r with isConstructor := v }),
      .of "comments" (·.comments) (fun v r => { r with comments := v }),
      .of "annotations" (·.annotations) (fun v r => { r with annotations := v }),
      .of "modifiers" (·.modifiers) (fun v r => { r with modifiers := v }),
      .of "thrown_exceptions" (·.thrownExceptions) (fun v r => { r with thrownExceptions := v }),
      .of "declaration" (·.declaration) (fun v r => { r with declaration := v }),
      .of "parameters" (·.parameters) (fun v r => { r with parameters := v }),
      .of "return_type" (·.returnType) (fun v r => { r with returnType := v }),
      .of "code" (·.code) (fun v r => { r with code := v }),
      .of "start_line" (·.startLine) (fun v r => { r with startLine := v }),
      .of "end_line" (·.endLine) (fun v r => { r with endLine := v }),
      .of "referenced_types" (·.referencedTypes) (fun v r => { r with referencedTypes := v }),
      .of "accessed_fields" (·.accessedFields) (fun v r => { r with accessedFields := v }),
      .of "call_sites" (·.callSites) (fun v r => { r with callSites := v }),
      .of "is_entrypoint" (·.isEntrypoint) (fun v r => { r with isEntrypoint := v }),
      .of "variable_declarations" (·.variableDeclarations)
        (fun v r => { r with variableDeclarations := v }),
      .of "crud_operations" (·.crudOperations) (fun v r => { r with crudOperations := v }),
      .of "crud_queries" (·.crudQueries) (fun v r => { r with crudQueries := v }),
      .of "cyclomatic_complexity" (·.cyclomaticComplexity)
        (fun v r => { r with cyclomaticComplexity := v })]
    fields := [
      .of "signature" (·.signature),
      .of "is_implicit" (·.isImplicit),
      .of "is_constructor" (·.isConstructor),
      .of "comments" (·.comments),
      .of "annotations" (·.annotations),
      .of "modifiers" (·.modifiers),
      .of "thrown_exceptions" (·.thrownExceptions),
      .of "declaration" (·.declaration),
      .of "parameters" (·.parameters),
      .of "return_type" (·.returnType),
      .of "code" (·.code),
      .of "start_line" (·.startLine),
      .of "end_line" (·.endLine),
      .of "referenced_types" (·.referencedTypes),
      .of "accessed_fields" (·.accessedFields),
      .of "call_sites" (·.callSites),
      .of "is_entrypoint" (·.isEntrypoint),
      .of "variable_declarations" (·.variableDeclarations),
      .of "crud_operations" (·.crudOperations),
      .of "crud_queries" (·.crudQueries),
      .of "cyclomatic_complexity" (·.cyclomaticComplexity)]
  }

end JavaAtlas
