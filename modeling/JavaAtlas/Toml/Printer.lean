import JavaAtlas.Json.Printer
import JavaAtlas.Toml.Quoted
import JavaAtlas.Toml.Value

set_option autoImplicit false

/-! # TOML text

A value is written on one line where a line is asked for. A document is written in blocks: a table
comes with its plain values first, and its tables and lists of tables follow as blocks with headings
of their own. A table that has only such blocks needs no heading. -/

namespace JavaAtlas.Toml

/-! ## Values on one line -/

mutual

/-- The text of a value. -/
def Value.chars : Value → List Char
  | .string text => stringChars text
  | .integer n => Json.intChars n.toInt
  | .float x => Layout.plain.double x
  | .boolean true => "true".toList
  | .boolean false => "false".toList
  | .datetime d => d.chars
  | .array items => '[' :: itemChars items
  | .table [] => ['\x7b', '\x7d']
  | .table entries => '\x7b' :: ' ' :: entryChars entries

/-- The items of an array and its closing bracket. -/
def itemChars : List Value → List Char
  | [] => [']']
  | [item] => item.chars ++ [']']
  | item :: rest => item.chars ++ ',' :: ' ' :: itemChars rest

/-- The entries of a table and its closing brace. -/
def entryChars : List (String × Value) → List Char
  | [] => ['\x7d']
  | [(key, value)] => keyChars key ++ " = ".toList ++ value.chars ++ [' ', '\x7d']
  | (key, value) :: rest =>
    keyChars key ++ " = ".toList ++ value.chars ++ ',' :: ' ' :: entryChars rest

end

/-- The text of a value as a string. -/
def Value.text (value : Value) : String := String.ofList value.chars

/-! ## Documents -/

/-- The heading of a block: none at the start of a document, the path of a table, or the path of a
list of tables of which the block is the next one. -/
inductive Heading where
  | start
  | table (path : List String)
  | element (path : List String)
deriving DecidableEq, Repr

/-- A heading with the plain values below it. -/
structure Block where
  heading : Heading
  pairs : List (String × Value)

/-- Whether a value is written in blocks of its own. -/
def Value.isBlock : Value → Bool
  | .table _ => true
  | .array items => !items.isEmpty && items.all Value.isTable
  | _ => false

/-- The blocks of a table under a heading, before the blocks of its own tables. A heading that says
nothing is left out. -/
def withHeading (heading : Heading) (entries : List (String × Value)) (children : List Block) :
    List Block :=
  let pairs := entries.filter fun entry => !entry.2.isBlock
  let needed := match heading with
    | .start => !pairs.isEmpty
    | .table _ => !pairs.isEmpty || entries.all fun entry => !entry.2.isBlock
    | .element _ => true
  if needed then ⟨heading, pairs⟩ :: children else children

mutual

/-- The blocks of the value under the last key of a path. -/
def blocksAt (path : List String) : Value → List Block
  | .table entries => withHeading (.table path) entries (entryBlocks path entries)
  | .array items => elementBlocks path items
  | _ => []

/-- The blocks of the tables among the items of an array. -/
def elementBlocks (path : List String) : List Value → List Block
  | [] => []
  | .table entries :: rest =>
    withHeading (.element path) entries (entryBlocks path entries) ++ elementBlocks path rest
  | _ :: rest => elementBlocks path rest

/-- The blocks of the entries of the table at a path. -/
def entryBlocks (path : List String) : List (String × Value) → List Block
  | [] => []
  | (key, value) :: rest =>
    (if value.isBlock then blocksAt (path ++ [key]) value else []) ++ entryBlocks path rest

end

/-- The blocks of a document. -/
def blocks (table : Table) : List Block := withHeading .start table (entryBlocks [] table)

/-- The text of a path of keys. -/
def pathChars : List String → List Char
  | [] => []
  | [key] => keyChars key
  | key :: rest => keyChars key ++ '.' :: pathChars rest

/-- The line of a heading. -/
def Heading.chars : Heading → List Char
  | start => []
  | table path => '[' :: pathChars path ++ [']', '\n']
  | element path => '[' :: '[' :: pathChars path ++ [']', ']', '\n']

/-- The lines of a block. -/
def Block.chars (block : Block) : List Char :=
  block.heading.chars ++ block.pairs.flatMap fun (key, value) =>
    keyChars key ++ " = ".toList ++ value.chars ++ ['\n']

/-- The lines of blocks, with an empty line between two. -/
def blockChars : List Block → List Char
  | [] => []
  | [block] => block.chars
  | block :: rest => block.chars ++ '\n' :: blockChars rest

/-- The text of a document. -/
def documentText (table : Table) : String := String.ofList (blockChars (blocks table))

end JavaAtlas.Toml
