import JavaAtlas.Atlas.CallGraph
import JavaAtlas.Failure
import JavaAtlas.File.System
import JavaAtlas.Java.Comments

set_option autoImplicit false

/-! # The atlas of a program

The atlas is the analysis of one program, indexed for queries. It is drawn once from the analyzer's
report and never changes. A class that several files declare counts through its first
declaration. -/

namespace JavaAtlas

/-- The indexed analysis of the program at `root`. -/
structure Atlas where
  root : Path
  index : SymbolIndex
  /-- The resolved edges of the analyzer's call graph; empty if it reported none. -/
  callEdges : List DependencyEdge
  dependencyEdges : List DependencyEdge
  analyzerGraph : CallGraph
  symbolGraph : CallGraph
deriving Inhabited

/-- Why a query has no answer. -/
inductive QueryFault where
  | unknownClass (name : String)
  | unknownMethod (className signature : String)
  | unknownFile (path : String)
  | unreadableSource (path : Path) (fault : FileFault)
deriving DecidableEq, Repr

namespace QueryFault

/-- The text of the fault. -/
def message : QueryFault → String
  | unknownClass name => "class '" ++ name ++ "' not found"
  | unknownMethod className signature =>
    "method '" ++ signature ++ "' not found in class '" ++ className ++ "'"
  | unknownFile path => "no compilation unit for file '" ++ path ++ "'"
  | unreadableSource path fault =>
    "cannot read source '" ++ path.display ++ "': " ++ fault.message

/-- The fault as a failure of the analysis. -/
def toFailure (fault : QueryFault) : Failure := .analysis fault.message

end QueryFault

/-- The answer to a query that may have none. -/
abbrev Answer (α : Type) := Except QueryFault α

namespace Atlas

/-! ## Drawing the atlas -/

/-- The atlas of the program that a report describes. Without call edges in the report, the graph
of the call sites stands in for the analyzer's graph. -/
def ofReport (root : Path) (report : Report) : Atlas :=
  let index := SymbolIndex.ofTable report.symbolTable
  let callEdges := (report.callGraph.getD []).map index.resolveEdge
  let symbolGraph := CallGraph.ofSymbols index
  { root := root
    index := index
    callEdges := callEdges
    dependencyEdges := (report.systemDependencyGraph.getD []).map index.resolveEdge
    analyzerGraph := if report.callGraph.isSome then CallGraph.ofEdges callEdges else symbolGraph
    symbolGraph := symbolGraph }

/-- The symbol table. -/
def symbolTable (atlas : Atlas) : Dict String CompilationUnit := atlas.index.table

/-- The analyzed application as one record. -/
def application (atlas : Atlas) : Application where
  symbolTable := atlas.symbolTable
  callGraph := atlas.callEdges
  systemDependencyGraph := atlas.dependencyEdges

/-- The call graph from a source. -/
def callGraph (atlas : Atlas) : GraphSource → CallGraph
  | .analyzer => atlas.analyzerGraph
  | .symbolTable => atlas.symbolGraph

/-! ## Classes and methods -/

/-- Every class once, in the order of first declaration. -/
def classes (atlas : Atlas) : Dict String TypeDeclaration :=
  atlas.index.classFiles.filterMap fun name file => do
    let unit ← atlas.index.table.get? file
    unit.typeDeclarations.get? name

/-- The methods of every class. -/
def methods (atlas : Atlas) : Dict String (Dict String Callable) :=
  atlas.classes.map fun _ type => type.callableDeclarations

/-- Whether `part` occurs in `text`. -/
def occursIn (part : List Char) : List Char → Bool
  | [] => part.isEmpty
  | c :: rest => part.isPrefixOf (c :: rest) || occursIn part rest

/-- The classes whose name contains one of `inclusions` and none of `exclusions`. -/
def classesByCriteria (atlas : Atlas) (inclusions exclusions : List String) :
    Dict String TypeDeclaration :=
  atlas.classes.filter fun name _ =>
    inclusions.any (fun part => occursIn part.toList name.toList) &&
      !exclusions.any fun part => occursIn part.toList name.toList

/-- The declaration of a class. -/
def classNamed (atlas : Atlas) (name : String) : Answer TypeDeclaration :=
  match atlas.index.declaration? name with
  | some type => .ok type
  | none => .error (.unknownClass name)

/-- A method of a class. -/
def method (atlas : Atlas) (className signature : String) : Answer Callable := do
  let type ← atlas.classNamed className
  match type.callableDeclarations.get? signature with
  | some method => .ok method
  | none => .error (.unknownMethod className signature)

/-- The names of the parameters of a method. -/
def methodParameters (atlas : Atlas) (className signature : String) : Answer (List String) := do
  let method ← atlas.method className signature
  .ok (method.parameters.map FormalParameter.name)

/-- The file that declares a class. -/
def fileOfClass (atlas : Atlas) (name : String) : Answer String :=
  match atlas.index.classFiles.get? name with
  | some file => .ok file
  | none => .error (.unknownClass name)

/-- The methods of a class. -/
def methodsInClass (atlas : Atlas) (name : String) : Answer (Dict String Callable) := do
  .ok (← atlas.classNamed name).callableDeclarations

/-- The constructors of a class. -/
def constructors (atlas : Atlas) (name : String) : Answer (Dict String Callable) := do
  .ok ((← atlas.methodsInClass name).filter fun _ method => method.isConstructor)

/-- The fields of a class. -/
def fields (atlas : Atlas) (name : String) : Answer (List FieldDeclaration) := do
  .ok (← atlas.classNamed name).fieldDeclarations

/-- The nested classes of a class, as far as the symbol table has them. -/
def nestedClasses (atlas : Atlas) (name : String) : Answer (List TypeDeclaration) := do
  .ok ((← atlas.classNamed name).nestedTypeDeclarations.filterMap atlas.index.declaration?)

/-- The classes that extend or implement a class, which the program need not declare. -/
def subclasses (atlas : Atlas) (name : String) : Dict String TypeDeclaration :=
  atlas.classes.filter fun _ type =>
    type.extendsList.contains name || type.implementsList.contains name

/-- What a class extends. -/
def extendedClasses (atlas : Atlas) (name : String) : Answer (List String) := do
  .ok (← atlas.classNamed name).extendsList

/-- What a class implements. -/
def implementedInterfaces (atlas : Atlas) (name : String) : Answer (List String) := do
  .ok (← atlas.classNamed name).implementsList

/-- The classes that are entry points. -/
def entryPointClasses (atlas : Atlas) : Dict String TypeDeclaration :=
  atlas.classes.filter fun _ type => type.isEntrypointClass

/-- The methods that are entry points, for the classes that have any. -/
def entryPointMethods (atlas : Atlas) : Dict String (Dict String Callable) :=
  atlas.classes.filterMap fun _ type =>
    let entries := type.callableDeclarations.filter fun _ method => method.isEntrypoint
    if entries.isEmpty then none else some entries

/-! ## Files and comments -/

/-- The compilation unit of a file, which is named by its key in the symbol table, by its path from
the root, or by the last components of its key. -/
def compilationUnit (atlas : Atlas) (path : String) : Answer CompilationUnit :=
  let rooted := (atlas.root.push path).text?.bind atlas.symbolTable.get?
  let bySuffix := (atlas.symbolTable.entries.find? fun (key, _) =>
    (Path.ofString key).endsWith (Path.ofString path)).map Prod.snd
  match ((atlas.symbolTable.get? path).or rooted).or bySuffix with
  | some unit => .ok unit
  | none => .error (.unknownFile path)

/-- Where the source of a file in the symbol table is read. -/
def sourcePath (atlas : Atlas) (key : String) : Path := atlas.root.push key

/-- Every source file without its comments. -/
def sourceWithoutComments (atlas : Atlas) (files : FileSystem) : Answer (Dict String String) :=
  atlas.symbolTable.keys.foldlM (fun sources key =>
    let path := atlas.sourcePath key
    match files.readText path with
    | .ok source => .ok (sources.insert key (Java.stripComments source))
    | .error fault => .error (.unreadableSource path fault)) .empty

/-- The comments inside a method. -/
def commentsInMethod (atlas : Atlas) (className signature : String) : Answer (List Comment) := do
  .ok (← atlas.method className signature).comments

/-- The comments attached to a class. -/
def commentsInClass (atlas : Atlas) (name : String) : Answer (List Comment) := do
  .ok (← atlas.classNamed name).comments

/-- The comments in a file. -/
def commentsInFile (atlas : Atlas) (path : String) : Answer (List Comment) := do
  .ok (← atlas.compilationUnit path).comments

/-- The comments of every file. -/
def allComments (atlas : Atlas) : Dict String (List Comment) :=
  atlas.symbolTable.map fun _ unit => unit.comments

/-- The documentation comments of the files that have any. -/
def allDocstrings (atlas : Atlas) : Dict String (List Comment) :=
  atlas.symbolTable.filterMap fun _ unit =>
    let docs := unit.comments.filter Comment.isJavadoc
    if docs.isEmpty then none else some docs

/-! ## Tests and persistence -/

/-- The simple names of the annotations that mark tests. -/
def testAnnotations : List String :=
  ["Test", "ParameterizedTest", "RepeatedTest", "TestFactory", "TestTemplate"]

/-- Whether an annotation, written with its sign, its qualified name and its arguments, marks a
test. -/
def isTestAnnotation (mark : String) : Bool :=
  let name := (mark.toList.dropWhile (· == '@')).takeWhile (· != '(')
  let simple := ((Text.trimChars name).reverse.takeWhile (· != '.')).reverse
  testAnnotations.contains (String.ofList simple)

/-- The bodies of the test methods, by method key. -/
def testMethods (atlas : Atlas) : Dict String String :=
  .ofList (atlas.classes.entries.flatMap fun (className, type) =>
    (type.callableDeclarations.entries.filter fun (_, method) =>
      method.annotations.any isTestAnnotation).map fun (signature, method) =>
        (MethodDetail.keyOf className signature, method.code))

/-- The persistence operations of one method. -/
structure CrudUsage where
  className : String
  methodSignature : String
  crudOperations : List CrudOperation

instance : Encode CrudUsage where
  encode usage := encodeRecord [
    ("class_name", encode usage.className),
    ("method_signature", encode usage.methodSignature),
    ("crud_operations", encode usage.crudOperations)]

/-- The methods with persistence operations, of one kind only if `kind` is given. -/
def crudUsages (atlas : Atlas) (kind : Option CrudKind) : List CrudUsage :=
  atlas.classes.entries.flatMap fun (className, type) =>
    type.callableDeclarations.entries.filterMap fun (signature, method) =>
      let operations := method.crudOperations.filter fun operation =>
        kind.isNone || operation.operationType == kind
      if operations.isEmpty then none else some ⟨className, signature, operations⟩

end Atlas

end JavaAtlas
