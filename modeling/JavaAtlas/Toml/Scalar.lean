import JavaAtlas.Json.Outline
import JavaAtlas.Toml.Value

set_option autoImplicit false

/-! # Scalars without quotes

Booleans, numbers, dates and times are written without quotes, as runs of letters, digits and a few
signs. An underscore may stand between two digits of a number. -/

namespace JavaAtlas.Toml

/-- Whether a character may be part of a scalar without quotes. -/
def isScalarChar (c : Char) : Bool := c.isAlphanum || "+-_.:".toList.contains c

/-- The digits of a number, of which there is at least one, without the underscores between them. -/
def ungroup (isDigit : Char → Bool) : List Char → Option (List Char)
  | [] => none
  | [c] => if isDigit c then some [c] else none
  | c :: d :: rest =>
    if !isDigit c then none
    else if d = '_' then (ungroup isDigit rest).map (c :: ·)
    else (ungroup isDigit (d :: rest)).map (c :: ·)

/-- Whether digits have no needless zero in front. -/
def noLeadingZero (digits : List Char) : Bool := digits.length ≤ 1 || digits.head? != some '0'

/-- An integer in the range of 64 bits. -/
def integerOf? (n : Int) : Option Value :=
  if Int64.minValue.toInt ≤ n ∧ n ≤ Int64.maxValue.toInt then some (.integer (Int64.ofInt n))
  else none

/-- The integer that digits of another base spell. -/
def radixInteger? (base : Nat) (cs : List Char) : Option Value := do
  let isDigit (c : Char) := match Json.hexValue? c with
    | some n => n < base
    | none => false
  let digits ← ungroup isDigit cs
  integerOf? (digits.foldl (fun n c => n * base + (Json.hexValue? c).getD 0) 0 : Nat)

/-- The integer that decimal digits spell. -/
def decimalInteger? (negative : Bool) (cs : List Char) : Option Value := do
  let digits ← ungroup Char.isDigit cs
  if noLeadingZero digits then
    let n : Int := Literal.appendDigits 0 digits
    integerOf? (if negative then -n else n)
  else none

/-- Whether the exponent of a number is well formed: nothing, or a letter, a sign and digits. -/
def isExponent : List Char → Bool
  | [] => true
  | e :: rest =>
    (e == 'e' || e == 'E') && (ungroup Char.isDigit (Literal.takeSign rest).2).isSome

/-- The number with a point or an exponent that a text spells; it must not be too large. -/
def decimalFloat? (negative : Bool) (cs : List Char) : Option Value := do
  let inDigits (c : Char) := c.isDigit || c == '_'
  let (whole, rest) := cs.span inDigits
  let digits ← ungroup Char.isDigit whole
  let rest ← match rest with
    | '.' :: rest =>
      let (fraction, rest) := rest.span inDigits
      (ungroup Char.isDigit fraction).map fun _ => rest
    | rest => some rest
  if noLeadingZero digits && isExponent rest then
    match Literal.decimal? negative (cs.filter (· != '_')) with
    | some x => if x.isFinite then some (.float x) else none
    | none => none
  else none

/-- The number that a text spells after its sign. -/
def number? (negative : Bool) (cs : List Char) : Option Value :=
  if cs = "inf".toList then some (.float (.infinity negative))
  else if cs = "nan".toList then some (.float (.nan negative))
  else match decimalInteger? negative cs with
    | some value => some value
    | none => if cs.any fun c => c == '.' || c == 'e' || c == 'E' then decimalFloat? negative cs
      else none

/-- The value that a scalar without quotes spells. -/
def scalarValue? (cs : List Char) : Option Value :=
  match cs with
  | '+' :: rest => number? false rest
  | '-' :: rest => number? true rest
  | '0' :: 'x' :: rest => radixInteger? 16 rest
  | '0' :: 'o' :: rest => radixInteger? 8 rest
  | '0' :: 'b' :: rest => radixInteger? 2 rest
  | cs =>
    if cs = "true".toList then some (.boolean true)
    else if cs = "false".toList then some (.boolean false)
    else match number? false cs with
      | some value => some value
      | none => (Datetime.ofChars? cs).map .datetime

/-- Whether a scalar has the form of a date, so that a time may follow it after a space. -/
def isDate (cs : List Char) : Bool :=
  match Datetime.takeDate cs with
  | some (_, []) => true
  | _ => false

/-- The scalar without quotes at the start of a text, and what follows it. -/
def readScalar (cs : List Char) : Option (Value × List Char) :=
  let token := cs.takeWhile isScalarChar
  let rest := cs.dropWhile isScalarChar
  match rest with
  | ' ' :: c :: more =>
    if isDate token && c.isDigit then
      let time := (c :: more).takeWhile isScalarChar
      (scalarValue? (token ++ ' ' :: time)).map fun value =>
        (value, (c :: more).dropWhile isScalarChar)
    else (scalarValue? token).map fun value => (value, rest)
  | _ => (scalarValue? token).map fun value => (value, rest)

end JavaAtlas.Toml
