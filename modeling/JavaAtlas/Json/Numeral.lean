import JavaAtlas.Number.Double

set_option autoImplicit false

/-! # Numbers in JSON text

A numeral without fraction and exponent that fits in 64 bits, with or without a sign, is an integer.
Every other numeral is a double, read in two steps that each round once: the leading digits that
fit in 64 bits become a double, which is then multiplied or divided by a power of ten that is a
double too. A numeral whose double would be infinite cannot be read. -/

namespace JavaAtlas.Json

/-- The parts of a numeral as written. -/
structure Numeral where
  negative : Bool
  whole : List Char
  fraction : Option (List Char)
  exponent : Option Int
deriving Repr, DecidableEq

/-- A number that has been read. -/
inductive Number where
  | int (value : Int)
  | float (value : Double)
deriving Repr, DecidableEq

namespace Numeral

/-- The value of a decimal digit. -/
def digitValue (c : Char) : Nat := c.toNat - '0'.toNat

/-- Appends decimal digits to a significand for as long as the result stays below `2 ^ 64`, and
returns the digits that were left over. -/
def absorb (significand : Nat) : List Char → Nat × List Char
  | [] => (significand, [])
  | c :: rest =>
    let next := significand * 10 + digitValue c
    if next < UInt64.size then absorb next rest else (significand, c :: rest)

/-- The magnitude of `significand · 10 ^ exponent`, rounded after each of the two steps. The powers
of ten reach up to `10 ^ 308`; beyond that a positive exponent overflows, and a negative one divides
by `10 ^ 308` first. -/
def scale (significand : Nat) (exponent : Int) : Option Magnitude := do
  let x ← Magnitude.round significand 1
  if x.isZero then some x
  else if exponent > 308 then none
  else if exponent ≥ 0 then Double.scaleUp x exponent.toNat
  else if exponent ≥ -308 then Double.scaleDown x (-exponent).toNat
  else if exponent ≥ -616 then Double.scaleDown (← Double.scaleDown x 308) (-exponent - 308).toNat
  else some .zero

/-- The number that a numeral denotes, or `none` when it is out of range. Digits of the whole part
that do not fit count as zeros, and the fraction goes on where the whole part stopped. -/
def read? (n : Numeral) : Option Number :=
  let (significand, dropped) := absorb 0 n.whole
  if n.fraction.isNone && n.exponent.isNone && dropped.isEmpty &&
      !(n.negative && (significand = 0 || Int64.maxValue.toInt + 1 < significand)) then
    some (.int (if n.negative then -(significand : Int) else significand))
  else
    let digits := n.fraction.getD []
    let (significand, ignored) := absorb significand digits
    let exponent := (dropped.length : Int) - (digits.length - ignored.length : Nat) +
      n.exponent.getD 0
    (scale significand exponent).map fun x => .float (.finite n.negative x)

end Numeral

end JavaAtlas.Json
