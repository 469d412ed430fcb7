import JavaAtlas.Number.Double

set_option autoImplicit false

/-! # Floating-point literals

A literal is an optional sign and then `inf`, `infinity` or `nan` in any letter case, or decimal
digits with an optional point somewhere among or beside them and an optional exponent. Its value is
rounded once, to the nearest double. -/

namespace JavaAtlas.Literal

/-- The value of decimal digits, appended to `n`. -/
def appendDigits (n : Nat) (digits : List Char) : Nat :=
  digits.foldl (fun n c => n * 10 + (c.toNat - '0'.toNat)) n

/-- Takes a sign off the front of a text; the answer says whether it is a minus. -/
def takeSign : List Char → Bool × List Char
  | '-' :: rest => (true, rest)
  | '+' :: rest => (false, rest)
  | cs => (false, cs)

/-- The exponent that a text spells: nothing, or a letter, an optional sign and digits. -/
def exponent? : List Char → Option Int
  | [] => some 0
  | e :: rest =>
    if e == 'e' || e == 'E' then
      let (negative, digits) := takeSign rest
      if digits.isEmpty || !digits.all Char.isDigit then none
      else
        let value : Int := appendDigits 0 digits
        some (if negative then -value else value)
    else none

/-- The double that digits, a point and an exponent spell. -/
def decimal? (negative : Bool) (cs : List Char) : Option Double := do
  let (whole, rest) := cs.span Char.isDigit
  let (fraction, rest) := match rest with
    | '.' :: rest => rest.span Char.isDigit
    | _ => ([], rest)
  if whole.isEmpty && fraction.isEmpty then none
  else
    let exponent ← exponent? rest
    some (.ofDecimal negative (appendDigits (appendDigits 0 whole) fraction)
      (exponent - fraction.length))

/-- The double that a text spells. -/
def double? (text : String) : Option Double :=
  let (negative, cs) := takeSign text.toList
  let word := String.ofList (cs.map Char.toLower)
  if word = "inf" ∨ word = "infinity" then some (.infinity negative)
  else if word = "nan" then some (.nan negative)
  else decimal? negative cs

end JavaAtlas.Literal
