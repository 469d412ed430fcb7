import JavaAtlas.Record.Schema

set_option autoImplicit false

/-! # Comments and small declarations

The leaves of the model of a Java program: comments, fields, formal parameters, enum constants and
the components of record declarations. Lines and columns are as the analyzer reports them. -/

namespace JavaAtlas

/-- A comment with its span. -/
structure Comment where
  content : String := ""
  startLine : Int64 := 0
  endLine : Int64 := 0
  startColumn : Int64 := 0
  endColumn : Int64 := 0
  isJavadoc : Bool := false
deriving Inhabited

instance : Record Comment where
  schema := {
    title := "JComment"
    blank := {}
    members := [
      .of "content" (·.content) (fun v r => { r with content := v }),
      .of "start_line" (·.startLine) (fun v r => { r with startLine := v }),
      .of "end_line" (·.endLine) (fun v r => { r with endLine := v }),
      .of "start_column" (·.startColumn) (fun v r => { r with startColumn := v }),
      .of "end_column" (·.endColumn) (fun v r => { r with endColumn := v }),
      .of "is_javadoc" (·.isJavadoc) (fun v r => { r with isJavadoc := v })]
    fields := [
      .of "content" (·.content),
      .of "start_line" (·.startLine),
      .of "end_line" (·.endLine),
      .of "start_column" (·.startColumn),
      .of "end_column" (·.endColumn),
      .of "is_javadoc" (·.isJavadoc)]
  }

/-- A component of a record declaration. -/
structure RecordComponent where
  comment : Option Comment := none
  name : String := ""
  typeName : String := ""
  modifiers : List String := []
  annotations : List String := []
  defaultValue : Option String := none
  isVarArgs : Bool := false
deriving Inhabited

instance : Record RecordComponent where
  schema := {
    title := "JRecordComponent"
    blank := {}
    members := [
      .of "comment" (·.comment) (fun v r => { r with comment := v }),
      .of "name" (·.name) (fun v r => { r with name := v }),
      .of "type" (·.typeName) (fun v r => { r with typeName := v }),
      .of "modifiers" (·.modifiers) (fun v r => { r with modifiers := v }),
      .of "annotations" (·.annotations) (fun v r => { r with annotations := v }),
      .of "default_value" (·.defaultValue) (fun v r => { r with defaultValue := v }),
      .of "is_var_args" (·.isVarArgs) (fun v r => { r with isVarArgs := v })]
    fields := [
      .of "comment" (·.comment),
      .of "name" (·.name),
      .of "type" (·.typeName),
      .of "modifiers" (·.modifiers),
      .of "annotations" (·.annotations),
      .of "default_value" (·.defaultValue),
      .of "is_var_args" (·.isVarArgs)]
  }

/-- A field declaration, which may declare several variables. -/
structure FieldDeclaration where
  comment : Option Comment := none
  typeName : String := ""
  startLine : Int64 := 0
  endLine : Int64 := 0
  names : List String := []
  modifiers : List String := []
  annotations : List String := []
deriving Inhabited

instance : Record FieldDeclaration where
  schema := {
    title := "JField"
    blank := {}
    members := [
      .of "comment" (·.comment) (fun v r => { r with comment := v }),
      .of "type" (·.typeName) (fun v r => { r with typeName := v }),
      .of "start_line" (·.startLine) (fun v r => { r with startLine := v }),
      .of "end_line" (·.endLine) (fun v r => { r with endLine := v }),
      .of "variables" (·.names) (fun v r => { r with names := v }),
      .of "modifiers" (·.modifiers) (fun v r => { r with modifiers := v }),
      .of "annotations" (·.annotations) (fun v r => { r with annotations := v })]
    fields := [
      .of "comment" (·.comment),
      .of "type" (·.typeName),
      .of "start_line" (·.startLine),
      .of "end_line" (·.endLine),
      .of "variables" (·.names),
      .of "modifiers" (·.modifiers),
      .of "annotations" (·.annotations)]
  }

/-- A formal parameter of a method or constructor. -/
structure FormalParameter where
  name : String := ""
  typeName : String := ""
  annotations : List String := []
  modifiers : List String := []
  startLine : Int64 := 0
  endLine : Int64 := 0
  startColumn : Int64 := 0
  endColumn : Int64 := 0
deriving Inhabited

instance : Record FormalParameter where
  schema := {
    title := "JCallableParameter"
    blank := {}
    members := [
      .of "name" (·.name) (fun v r => { r with name := v }),
      .of "type" (·.typeName) (fun v r => { r with typeName := v }),
      .of "annotations" (·.annotations) (fun v r => { r with annotations := v }),
      .of "modifiers" (·.modifiers) (fun v r => { r with modifiers := v }),
      .of "start_line" (·.startLine) (fun v r => { r with startLine := v }),
      .of "end_line" (·.endLine) (fun v r => { r with endLine := v }),
      .of "start_column" (·.startColumn) (fun v r => { r with startColumn := v }),
      .of "end_column" (·.endColumn) (fun v r => { r with endColumn := v })]
    fields := [
      .of "name" (·.name),
      .of "type" (·.typeName),
      .of "annotations" (·.annotations),
      .of "modifiers" (·.modifiers),
      .of "start_line" (·.startLine),
      .of "end_line" (·.endLine),
      .of "start_column" (·.startColumn),
      .of "end_column" (·.endColumn)]
  }

/-- An enum constant with its constructor arguments. -/
structure EnumConstant where
  name : String := ""
  arguments : List String := []
deriving Inhabited

instance : Record EnumConstant where
  schema := {
    title := "JEnumConstant"
    blank := {}
    members := [
      .of "name" (·.name) (fun v r => { r with name := v }),
      .of "arguments" (·.arguments) (fun v r => { r with arguments := v })]
    fields := [
      .of "name" (·.name),
      .of "arguments" (·.arguments)]
  }

end JavaAtlas
