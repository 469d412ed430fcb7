import JavaAtlas.Operation.Registry

set_option autoImplicit false

/-! # The schema explainers

Each explainer describes one record type: what it is, its members in the order in which they are
encoded, and the record types that occur in it. The members come from the wire form of the record
type, so a description is never out of step with what the tools answer. -/

namespace JavaAtlas.Catalogue

/-- The description of a record type. -/
structure RecordSummary where
  name : String
  description : String
  fields : List String
  related : List String

instance : Encode RecordSummary where
  encode summary := encodeRecord [
    ("name", encode summary.name),
    ("description", encode summary.description),
    ("fields", encode summary.fields),
    ("related_models", encode summary.related)]

/-- The operation that describes the record type `ρ`. -/
def explainer (ρ : Type) [Record ρ] (description : String) (related : List String) : Candidate :=
  let schema : Schema ρ := Record.schema
  { name := schema.title ++ "_explainer"
    description := "Describe the fields of " ++ schema.title ++ " records."
    parameters := []
    shape := .record
    action := fun _ _ _ => .ok (encode (⟨schema.title, description, schema.names, related⟩ :
      RecordSummary)) }

/-- Every explainer. -/
def explainers : List Candidate := [
  explainer Comment
    "A comment in Java source with its line and column span, flagged when it is Javadoc."
    [],
  explainer RecordComponent
    "A component of a Java record: type, annotations, modifiers and optional default value."
    ["JComment"],
  explainer FieldDeclaration
    "A field of a class or interface: type, declared variables, modifiers and annotations."
    ["JComment"],
  explainer FormalParameter
    "A parameter of a method or constructor: name, type, annotations and position."
    [],
  explainer EnumConstant
    "A constant of an enum together with its constructor arguments."
    [],
  explainer CrudOperation
    "A create, read, update or delete operation at a given line."
    ["CRUDOperationType"],
  explainer CrudQuery
    "A query handed to a persistence API: line, arguments and query kind."
    ["CRUDQueryType"],
  explainer CallSite
    ("A method invocation: receiver, argument and return types, resolved callee signature and " ++
      "CRUD details.")
    ["JComment", "JCRUDOperation", "JCRUDQuery"],
  explainer VariableDeclaration
    "A local variable declaration: type, initializer and position."
    ["JComment"],
  explainer InitializerBlock
    ("A static or instance initializer block: code, comments, accessed fields, call sites and " ++
      "complexity.")
    ["JComment", "JCallSite", "JVariableDeclaration"],
  explainer Callable
    ("A method or constructor: signature, modifiers, parameters, body, call sites, CRUD " ++
      "operations and complexity.")
    ["JComment", "JCallableParameter", "JCallSite", "JCRUDOperation", "JCRUDQuery",
      "JVariableDeclaration"],
  explainer TypeDeclaration
    ("A class, interface, enum, annotation or record: supertypes, members, nested types and " ++
      "entry-point flag.")
    ["JComment", "JCallable", "JField", "JEnumConstant", "JRecordComponent", "InitializationBlock"],
  explainer CompilationUnit
    "One Java source file: package, imports, comments and declared types."
    ["JComment", "JType"],
  explainer MethodDetail
    "A method together with its declaration string and owning class."
    ["JCallable"],
  explainer DependencyEdge
    "An edge of the call or dependency graph between two methods, with edge type and weight."
    ["JMethodDetail"],
  explainer Application
    "The analyzed application: symbol table, call graph and system dependency graph."
    ["JCompilationUnit", "JGraphEdges"]]

end JavaAtlas.Catalogue
