import JavaAtlas.Toml.Draft
import JavaAtlas.Toml.Quoted
import JavaAtlas.Toml.Scalar

set_option autoImplicit false

/-! # Reading TOML documents

A document is read in two steps: its text is taken apart into statements, which are pairs and
headings, and the statements are carried out one after the other on a table under construction. -/

namespace JavaAtlas.Toml

/-! ## Blanks and comments -/

/-- Drops the blanks on a line. -/
def skipBlanks (cs : List Char) : List Char := cs.dropWhile fun c => c == ' ' || c == '\t'

/-- Drops the blanks, line breaks and comments at the start of a text; `none` when a comment holds a
control character. `inComment` says that the text starts within a comment. -/
def skipLines : Bool → List Char → Option (List Char)
  | _, [] => some []
  | _, '\n' :: rest => skipLines false rest
  | _, '\r' :: '\n' :: rest => skipLines false rest
  | false, '#' :: rest => skipLines true rest
  | false, c :: rest => if c = ' ' ∨ c = '\t' then skipLines false rest else some (c :: rest)
  | true, c :: rest => if isControl c then none else skipLines true rest

/-- Drops what may follow a statement on its line, and whatever lies before the next statement. -/
def endLine (cs : List Char) : Option (List Char) :=
  match skipBlanks cs with
  | [] => some []
  | c :: rest => if c = '#' ∨ c = '\n' ∨ c = '\r' then skipLines false (c :: rest) else none

/-! ## Keys -/

/-- The greatest number of keys in a path. -/
def pathLimit : Nat := 80

/-- The keys of a path at the start of a text, and what follows them. `count` bounds their
number. -/
def readKeys : Nat → List Char → Option (KeyPath × List Char)
  | 0, _ => none
  | count + 1, cs => do
    let (key, rest) ← readKey (skipBlanks cs)
    let rest := skipBlanks rest
    match rest with
    | '.' :: rest => do
      let (path, rest) ← readKeys count rest
      some (⟨String.ofList key :: path.front, path.last⟩, rest)
    | rest => some (⟨[], String.ofList key⟩, rest)

/-- The path of keys at the start of a text, and what follows it. -/
def readPath (cs : List Char) : Option (KeyPath × List Char) := readKeys pathLimit cs

/-! ## Values -/

/-- A way to read a value at the start of a text. -/
abbrev ValueReader := List Char → Option (Value × List Char)

/-- The items of an array from the next one on, and what follows the array. `count` bounds their
number. -/
def readItems (readValue : ValueReader) : Nat → List Char → Option (List Value × List Char)
  | 0, _ => none
  | count + 1, cs => do
    match ← skipLines false cs with
    | ']' :: rest => some ([], rest)
    | cs => do
      let (item, rest) ← readValue cs
      match ← skipLines false rest with
      | ',' :: rest => do
        let (items, rest) ← readItems readValue count rest
        some (item :: items, rest)
      | ']' :: rest => some ([item], rest)
      | _ => none

/-- The pair of keys and a value at the start of a text, and what follows it. -/
def readPair (readValue : ValueReader) (cs : List Char) :
    Option ((KeyPath × Value) × List Char) := do
  let (path, rest) ← readPath cs
  match rest with
  | '=' :: rest => do
    let (value, rest) ← readValue (skipBlanks rest)
    some ((path, value), rest)
  | _ => none

/-- The pairs of a table between braces from the next one on, and what follows the table. `count`
bounds their number. -/
def readPairs (readValue : ValueReader) :
    Nat → List Char → Option (List (KeyPath × Value) × List Char)
  | 0, _ => none
  | count + 1, cs => do
    match ← skipLines false cs with
    | '\x7d' :: rest => some ([], rest)
    | cs => do
      let (pair, rest) ← readPair readValue cs
      match ← skipLines false rest with
      | ',' :: rest => do
        let (pairs, rest) ← readPairs readValue count rest
        some (pair :: pairs, rest)
      | '\x7d' :: rest => some ([pair], rest)
      | _ => none

/-- The value at the start of a text, and what follows it. Arrays and tables are nested at most
`depth` deep. -/
def readValue : Nat → List Char → Option (Value × List Char)
  | 0, '[' :: _ => none
  | 0, '\x7b' :: _ => none
  | depth + 1, '[' :: rest => do
    let (items, rest) ← readItems (readValue depth) (rest.length + 1) rest
    some (.array items, rest)
  | depth + 1, '\x7b' :: rest => do
    let (pairs, rest) ← readPairs (readValue depth) (rest.length + 1) rest
    let entries ← tableOfPairs? pairs
    some (.table entries, rest)
  | _, '"' :: rest => (readString ('"' :: rest)).map fun (text, rest) =>
    (.string (String.ofList text), rest)
  | _, '\'' :: rest => (readString ('\'' :: rest)).map fun (text, rest) =>
    (.string (String.ofList text), rest)
  | _, cs => readScalar cs

/-- The greatest depth to which arrays and tables between braces are nested. -/
def depthLimit : Nat := 80

/-! ## Statements -/

/-- A statement of a document. -/
inductive Statement where
  | pair (path : KeyPath) (value : Value)
  | table (path : KeyPath)
  | element (path : KeyPath)

/-- The statement at the start of a text, and what follows it. -/
def readStatement : List Char → Option (Statement × List Char)
  | '[' :: '[' :: rest => do
    let (path, rest) ← readPath rest
    match rest with
    | ']' :: ']' :: rest => some (.element path, rest)
    | _ => none
  | '[' :: rest => do
    let (path, rest) ← readPath rest
    match rest with
    | ']' :: rest => some (.table path, rest)
    | _ => none
  | cs => do
    let ((path, value), rest) ← readPair (readValue depthLimit) cs
    some (.pair path value, rest)

/-- The statements of a text that starts with one. `count` bounds their number. -/
def readStatements : Nat → List Char → Option (List Statement)
  | _, [] => some []
  | 0, _ => none
  | count + 1, cs => do
    let (statement, rest) ← readStatement cs
    let rest ← endLine rest
    let statements ← readStatements count rest
    some (statement :: statements)

/-- A byte order mark, which may stand before the text. -/
def byteOrderMark : Char := '\ufeff'

/-- The statements of a document. -/
def statementsOf? (text : String) : Option (List Statement) := do
  let cs := match text.toList with
    | c :: rest => if c = byteOrderMark then rest else c :: rest
    | [] => []
  let cs ← skipLines false cs
  readStatements cs.length cs

/-! ## Carrying statements out -/

/-- A table under construction, and the path of the table in which pairs are written. -/
structure Construction where
  drafts : Drafts := []
  current : List String := []

namespace Construction

/-- Carries a statement out. -/
def carryOut (c : Construction) : Statement → Option Construction
  | .pair path value => do
    let drafts ← descend false (fun _ target => addPair path.front path.last value target) false
      c.current c.drafts
    some { c with drafts := drafts }
  | .table path => do
    let drafts ← descend false (fun _ target => openTable path.last target) false path.front
      c.drafts
    some ⟨drafts, path.keys⟩
  | .element path => do
    let drafts ← descend false (fun _ target => openElement path.last target) false path.front
      c.drafts
    some ⟨drafts, path.keys⟩

end Construction

/-- The table that statements make up. -/
def tableOfStatements? (statements : List Statement) : Option Table :=
  (statements.foldlM Construction.carryOut {}).map fun c => toTable c.drafts

/-- The table that a document spells. -/
def documentTable? (text : String) : Option Table :=
  (statementsOf? text).bind tableOfStatements?

end JavaAtlas.Toml
