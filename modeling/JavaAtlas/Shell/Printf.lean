import JavaAtlas.Number.Literal
import JavaAtlas.Number.Shortest
import JavaAtlas.Text.Utf8

set_option autoImplicit false

/-! # Formatted output of scripts

A format is text with escapes and with places for arguments. It is used again as long as there are
arguments left. -/

namespace JavaAtlas.Shell

/-- Whether a character is an octal digit. -/
def isOctal (c : Char) : Bool := '0' ≤ c && c ≤ '7'

/-- The byte that octal digits denote. -/
def octalByte (digits : List Char) : UInt8 :=
  UInt8.ofNat (digits.foldl (fun n c => n * 8 + (c.toNat - 48)) 0)

/-- The bytes for a one-letter escape. -/
def letterEscape (c : Char) : List UInt8 :=
  match c with
  | 'a' => [7]
  | 'b' => [8]
  | 'f' => [12]
  | 'n' => [10]
  | 'r' => [13]
  | 't' => [9]
  | 'v' => [11]
  | '\\' => [0x5C]
  | '"' => [0x22]
  | '\'' => [0x27]
  | c => 0x5C :: Utf8.encode (String.singleton c)

/-- A part of a format. -/
inductive FormatPart where
  | bytes (bytes : List UInt8)
  | argument (conversion : Char)

/-- The parts of a format. -/
def formatParts : List Char → List FormatPart
  | [] => []
  | '\\' :: a :: b :: c :: rest =>
    if isOctal a && isOctal b && isOctal c then .bytes [octalByte [a, b, c]] :: formatParts rest
    else if isOctal a && isOctal b then .bytes [octalByte [a, b]] :: formatParts (c :: rest)
    else if isOctal a then .bytes [octalByte [a]] :: formatParts (b :: c :: rest)
    else .bytes (letterEscape a) :: formatParts (b :: c :: rest)
  | '\\' :: c :: rest =>
    .bytes (if isOctal c then [octalByte [c]] else letterEscape c) :: formatParts rest
  | '%' :: '%' :: rest => .bytes [0x25] :: formatParts rest
  | '%' :: c :: rest => .argument c :: formatParts rest
  | c :: rest => .bytes (Utf8.encode (String.singleton c)) :: formatParts rest

/-- An argument in a conversion: a number for `d`, else the argument as it is. -/
def convert (conversion : Char) (argument : List UInt8) : List UInt8 :=
  if conversion = 'd' then
    let (negative, digits) := Literal.takeSign (Utf8.toStringLenient argument).toList
    let n := Literal.appendDigits 0 (digits.takeWhile Char.isDigit)
    Utf8.encode (String.ofList ((if negative && n != 0 then ['-'] else []) ++ Decimal.digits n))
  else argument

/-- One use of a format: its bytes, and the arguments that are left. -/
def formatOnce : List FormatPart → List (List UInt8) → List UInt8 × List (List UInt8)
  | [], arguments => ([], arguments)
  | .bytes bytes :: parts, arguments =>
    let (text, left) := formatOnce parts arguments
    (bytes ++ text, left)
  | .argument conversion :: parts, arguments =>
    let (text, left) := formatOnce parts arguments.tail
    (convert conversion (arguments.headD []) ++ text, left)

/-- The uses of a format for some arguments. `count` bounds their number. -/
def formatTimes (parts : List FormatPart) : Nat → List (List UInt8) → List UInt8
  | 0, _ => []
  | count + 1, arguments =>
    let (text, left) := formatOnce parts arguments
    if left.isEmpty || left.length == arguments.length then text
    else text ++ formatTimes parts count left

/-- The output for a format and its arguments. -/
def formatted (format : String) (arguments : List (List UInt8)) : List UInt8 :=
  formatTimes (formatParts format.toList) (arguments.length + 1) arguments

/-- Bytes in which escapes are replaced, as `echo` does; an octal escape starts with a zero. -/
def unescape : List Char → List UInt8
  | [] => []
  | '\\' :: '0' :: a :: b :: c :: rest =>
    if isOctal a && isOctal b && isOctal c then octalByte [a, b, c] :: unescape rest
    else 0 :: unescape (a :: b :: c :: rest)
  | '\\' :: c :: rest =>
    (if "abfnrtv\\".toList.contains c then letterEscape c
      else 0x5C :: Utf8.encode (String.singleton c)) ++ unescape rest
  | c :: rest => Utf8.encode (String.singleton c) ++ unescape rest

end JavaAtlas.Shell
