import JavaAtlas.Json.Basic
import JavaAtlas.Number.Layout

set_option autoImplicit false

/-! # JSON text

`Json.compact` writes a value without blanks, `Json.pretty` with two blanks of indentation for each
level. Strings escape the quote, the backslash and the controls below the space, and nothing
else. -/

namespace JavaAtlas.Json

/-! ## Strings and numbers -/

/-- The two hexadecimal digits of a number below 256. -/
def hexPair (n : Nat) : List Char := [Nat.digitChar (n / 16), Nat.digitChar (n % 16)]

/-- The spelling of one character inside a string. -/
def escapeChar (c : Char) : List Char :=
  match c with
  | '"' => ['\\', '"']
  | '\\' => ['\\', '\\']
  | '\n' => ['\\', 'n']
  | '\r' => ['\\', 'r']
  | '\t' => ['\\', 't']
  | '\x08' => ['\\', 'b']
  | '\x0c' => ['\\', 'f']
  | c => if c.toNat < 0x20 then '\\' :: 'u' :: '0' :: '0' :: hexPair c.toNat else [c]

/-- The text of a string. -/
def stringChars (s : String) : List Char :=
  '"' :: s.toList.flatMap escapeChar ++ ['"']

/-- The text of an integer. -/
def intChars (n : Int) : List Char :=
  (if n < 0 then ['-'] else []) ++ Decimal.digits n.natAbs

/-! ## Compact text -/

mutual

/-- The text of a value without blanks. -/
def compactChars : Json → List Char
  | null => "null".toList
  | bool true => "true".toList
  | bool false => "false".toList
  | int n => intChars n
  | float x => Layout.json.double x
  | string s => stringChars s
  | array items => '[' :: compactItems items
  | object members => '\x7b' :: compactMembers members

/-- The items of an array and its closing bracket. -/
def compactItems : List Json → List Char
  | [] => [']']
  | [item] => compactChars item ++ [']']
  | item :: rest => compactChars item ++ ',' :: compactItems rest

/-- The members of an object and its closing brace. -/
def compactMembers : List (String × Json) → List Char
  | [] => ['\x7d']
  | [(name, value)] => stringChars name ++ ':' :: compactChars value ++ ['\x7d']
  | (name, value) :: rest =>
    stringChars name ++ ':' :: compactChars value ++ ',' :: compactMembers rest

end

/-- The text of a value without blanks. -/
def compact (value : Json) : String := String.ofList value.compactChars

/-! ## Indented text -/

/-- A line break followed by the indentation of a level. -/
def lineBreak (level : Nat) : List Char := '\n' :: List.replicate (2 * level) ' '

mutual

/-- The text of a value at an indentation level. -/
def prettyChars (level : Nat) : Json → List Char
  | array [] => ['[', ']']
  | array items => '[' :: lineBreak (level + 1) ++ prettyItems level items
  | object [] => ['\x7b', '\x7d']
  | object members => '\x7b' :: lineBreak (level + 1) ++ prettyMembers level members
  | null => "null".toList
  | bool true => "true".toList
  | bool false => "false".toList
  | int n => intChars n
  | float x => Layout.json.double x
  | string s => stringChars s

/-- The items of an array that opened at `level`, and its closing bracket. -/
def prettyItems (level : Nat) : List Json → List Char
  | [] => lineBreak level ++ [']']
  | [item] => prettyChars (level + 1) item ++ lineBreak level ++ [']']
  | item :: rest =>
    prettyChars (level + 1) item ++ ',' :: lineBreak (level + 1) ++ prettyItems level rest

/-- The members of an object that opened at `level`, and its closing brace. -/
def prettyMembers (level : Nat) : List (String × Json) → List Char
  | [] => lineBreak level ++ ['\x7d']
  | [(name, value)] =>
    stringChars name ++ ':' :: ' ' :: prettyChars (level + 1) value ++ lineBreak level ++ ['\x7d']
  | (name, value) :: rest =>
    stringChars name ++ ':' :: ' ' :: prettyChars (level + 1) value ++
      ',' :: lineBreak (level + 1) ++ prettyMembers level rest

end

/-- The indented text of a value. -/
def pretty (value : Json) : String := String.ofList (value.prettyChars 0)

end JavaAtlas.Json
