import JavaAtlas.Json.Outline

set_option autoImplicit false

/-! # Strings and keys in TOML

A string has four spellings: between quotes or between apostrophes, on one line or between threefold
marks on several. Between quotes characters may be escaped, between apostrophes every character
stands for itself. Writing takes the first spelling that needs no escapes, and reading knows them
all. -/

namespace JavaAtlas.Toml

/-- Whether a character must not stand for itself on a line: a control other than the tab. -/
def isControl (c : Char) : Bool := (c.toNat < 0x20 && c != '\t') || c.toNat == 0x7F

/-- Whether a character must not stand for itself on several lines. -/
def isControlInLines (c : Char) : Bool := isControl c && c != '\n'

/-- Whether a character may be part of a key without quotes. -/
def isBare (c : Char) : Bool := c.isAlphanum || c == '_' || c == '-'

/-! ## Writing -/

/-- Whether `mark` never stands more than twice in a row. `run` counts those just before. -/
def noLongRun (mark : Char) : Nat → List Char → Bool
  | _, [] => true
  | run, c :: rest => if c = mark then run < 2 && noLongRun mark (run + 1) rest
    else noLongRun mark 0 rest

/-- The upper-case hexadecimal digit of a number below 16. -/
def upperDigit (n : Nat) : Char := (Nat.digitChar n).toUpper

/-- The spelling of a character between quotes, the quote itself apart. -/
def escapeChar (inLines : Bool) (c : Char) : List Char :=
  match c with
  | '\x08' => ['\\', 'b']
  | '\t' => ['\\', 't']
  | '\n' => if inLines then ['\n'] else ['\\', 'n']
  | '\x0c' => ['\\', 'f']
  | '\r' => ['\\', 'r']
  | '\\' => ['\\', '\\']
  | c =>
    if isControl c then
      ['\\', 'u', '0', '0', upperDigit (c.toNat / 16), upperDigit (c.toNat % 16)]
    else [c]

/-- The spelling of a text between quotes. On several lines only every third quote in a row is
escaped; `run` counts the quotes just before. -/
def escapeChars (inLines : Bool) : Nat → List Char → List Char
  | _, [] => []
  | run, c :: rest =>
    if c = '"' then
      if inLines && run != 2 then '"' :: escapeChars inLines (run + 1) rest
      else '\\' :: '"' :: escapeChars inLines 0 rest
    else escapeChar inLines c ++ escapeChars inLines 0 rest

/-- The spellings of a string. -/
inductive Spelling where
  | basic
  | literal
  | basicLines
  | literalLines
deriving DecidableEq, Repr

/-- A text between threefold marks. A text with line breaks starts on a line of its own. -/
def betweenLines (mark : Char) (text spelled : List Char) : List Char :=
  let start := if text.contains '\n' then ['\n'] else []
  List.replicate 3 mark ++ start ++ spelled ++ List.replicate 3 mark

/-- The text in a spelling that can hold it. -/
def Spelling.chars (text : List Char) : Spelling → List Char
  | basic => '"' :: escapeChars false 0 text ++ ['"']
  | literal => '\'' :: text ++ ['\'']
  | basicLines => betweenLines '"' text (escapeChars true 0 text)
  | literalLines => betweenLines '\'' text text

/-- The spelling in which a string is written. -/
def Spelling.ofText (text : List Char) : Spelling :=
  if text.all fun c => !isControl c && c != '\\' && c != '"' then basic
  else if text.all fun c => !isControl c && c != '\'' then literal
  else if (text.all fun c => !isControlInLines c && c != '\\') && noLongRun '"' 0 text then
    basicLines
  else if (text.all fun c => !isControlInLines c) && noLongRun '\'' 0 text then literalLines
  else if text.contains '\n' then basicLines
  else basic

/-- The text of a string. -/
def stringChars (text : String) : List Char :=
  (Spelling.ofText text.toList).chars text.toList

/-- The text of a key. -/
def keyChars (key : String) : List Char :=
  let text := key.toList
  if !text.isEmpty && text.all isBare then text
  else if text.all fun c => !isControl c && c != '\\' && c != '"' then Spelling.basic.chars text
  else if text.all fun c => !isControl c && c != '\'' then Spelling.literal.chars text
  else Spelling.basic.chars text

/-! ## Reading -/

/-- The number that hexadecimal digits spell. -/
def hexNumber? (digits : List Char) : Option Nat :=
  digits.foldlM (fun n c => (Json.hexValue? c).map (n * 16 + ·)) 0

/-- The character with the code point that hexadecimal digits spell. -/
def scalar? (digits : List Char) : Option Char := do
  let n ← hexNumber? digits
  if h : n.isValidChar then some (Char.ofNatAux n h) else none

/-- The character for which the text after a backslash stands. -/
def simpleEscape? : Char → Option Char
  | 'b' => some '\x08'
  | 't' => some '\t'
  | 'n' => some '\n'
  | 'f' => some '\x0c'
  | 'r' => some '\r'
  | 'e' => some '\x1b'
  | '"' => some '"'
  | '\\' => some '\\'
  | _ => none

/-- Puts a character before the text that has been read. -/
def withChar (c : Char) : Option (List Char × List Char) → Option (List Char × List Char)
  | some (text, rest) => some (c :: text, rest)
  | none => none

/-- Puts the character that an escape stands for before the text that has been read. -/
def withEscaped (c : Option Char) (read : Option (List Char × List Char)) :
    Option (List Char × List Char) :=
  match c with
  | some c => withChar c read
  | none => none

/-- The text up to the closing quote, and what follows it. -/
def readBasic : List Char → Option (List Char × List Char)
  | [] => none
  | '"' :: rest => some ([], rest)
  | '\\' :: 'x' :: a :: b :: rest => withEscaped (scalar? [a, b]) (readBasic rest)
  | '\\' :: 'u' :: a :: b :: c :: d :: rest =>
    withEscaped (scalar? [a, b, c, d]) (readBasic rest)
  | '\\' :: 'U' :: a :: b :: c :: d :: e :: f :: g :: h :: rest =>
    withEscaped (scalar? [a, b, c, d, e, f, g, h]) (readBasic rest)
  | '\\' :: c :: rest => withEscaped (simpleEscape? c) (readBasic rest)
  | c :: rest => if isControl c || c == '\\' then none else withChar c (readBasic rest)

/-- The text up to the closing apostrophe, and what follows it. -/
def readLiteral : List Char → Option (List Char × List Char)
  | [] => none
  | '\'' :: rest => some ([], rest)
  | c :: rest => if isControl c then none else withChar c (readLiteral rest)

/-- Whether a backslash before this text joins two lines: only blanks are left on the line. -/
def joinsLines (cs : List Char) : Bool :=
  match cs.dropWhile fun c => c == ' ' || c == '\t' with
  | '\n' :: _ => true
  | '\r' :: '\n' :: _ => true
  | _ => false

/-- The text up to the closing threefold quote, and what follows it. Up to two quotes may stand
before the closing ones, and a line break counts as a line feed. `joining` says that the blanks
after a backslash at the end of a line are being dropped. -/
def readBasicLines : Bool → List Char → Option (List Char × List Char)
  | _, [] => none
  | true, ' ' :: rest => readBasicLines true rest
  | true, '\t' :: rest => readBasicLines true rest
  | true, '\n' :: rest => readBasicLines true rest
  | true, '\r' :: '\n' :: rest => readBasicLines true rest
  | _, '"' :: '"' :: '"' :: '"' :: '"' :: rest => some (['"', '"'], rest)
  | _, '"' :: '"' :: '"' :: '"' :: rest => some (['"'], rest)
  | _, '"' :: '"' :: '"' :: rest => some ([], rest)
  | _, '\\' :: 'x' :: a :: b :: rest => withEscaped (scalar? [a, b]) (readBasicLines false rest)
  | _, '\\' :: 'u' :: a :: b :: c :: d :: rest =>
    withEscaped (scalar? [a, b, c, d]) (readBasicLines false rest)
  | _, '\\' :: 'U' :: a :: b :: c :: d :: e :: f :: g :: h :: rest =>
    withEscaped (scalar? [a, b, c, d, e, f, g, h]) (readBasicLines false rest)
  | _, '\\' :: c :: rest =>
    if joinsLines (c :: rest) then readBasicLines true (c :: rest)
    else withEscaped (simpleEscape? c) (readBasicLines false rest)
  | _, '\r' :: '\n' :: rest => withChar '\n' (readBasicLines false rest)
  | _, c :: rest =>
    if isControlInLines c || c == '\\' then none else withChar c (readBasicLines false rest)

/-- The text up to the closing threefold apostrophe, and what follows it. -/
def readLiteralLines : List Char → Option (List Char × List Char)
  | [] => none
  | '\'' :: '\'' :: '\'' :: '\'' :: '\'' :: rest => some (['\'', '\''], rest)
  | '\'' :: '\'' :: '\'' :: '\'' :: rest => some (['\''], rest)
  | '\'' :: '\'' :: '\'' :: rest => some ([], rest)
  | '\r' :: '\n' :: rest => withChar '\n' (readLiteralLines rest)
  | c :: rest => if isControlInLines c then none else withChar c (readLiteralLines rest)

/-- Drops the line break that may follow an opening threefold mark. -/
def dropLineBreak : List Char → List Char
  | '\n' :: rest => rest
  | '\r' :: '\n' :: rest => rest
  | cs => cs

/-- The string on one line at the start of a text, and what follows it. -/
def readLineString : List Char → Option (List Char × List Char)
  | '"' :: rest => readBasic rest
  | '\'' :: rest => readLiteral rest
  | _ => none

/-- The string in any spelling at the start of a text, and what follows it. -/
def readString : List Char → Option (List Char × List Char)
  | '"' :: '"' :: '"' :: rest => readBasicLines false (dropLineBreak rest)
  | '\'' :: '\'' :: '\'' :: rest => readLiteralLines (dropLineBreak rest)
  | cs => readLineString cs

/-- The key at the start of a text, and what follows it. -/
def readKey (cs : List Char) : Option (List Char × List Char) :=
  let bare := cs.takeWhile isBare
  if bare.isEmpty then readLineString cs else some (bare, cs.drop bare.length)

end JavaAtlas.Toml
