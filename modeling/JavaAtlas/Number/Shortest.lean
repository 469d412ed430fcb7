import JavaAtlas.Number.Double

set_option autoImplicit false

/-! # The shortest decimal that reads back

Of all decimals that round to a given magnitude, `Magnitude.shortest` takes one with the fewest
digits, and of those the one nearest to the exact value. The search tries one digit, two digits and
so on: on the grid of decimals with that many digits only the two neighbours of the exact value can
be nearest, and seventeen digits always suffice. -/

namespace JavaAtlas

/-- A decimal `coefficient · 10 ^ exponent`. -/
structure Decimal where
  coefficient : Nat
  exponent : Int
deriving DecidableEq, Repr, Inhabited

namespace Decimal

/-- The decimal digits of `n`, most significant first; zero has one digit. -/
def digits (n : Nat) : List Char := Nat.toDigits 10 n

/-- Moves the trailing zeros of the coefficient into the exponent. `fuel` bounds their number. -/
def trimZeros : Nat → Decimal → Decimal
  | 0, d => d
  | fuel + 1, d =>
    if d.coefficient ≠ 0 ∧ d.coefficient % 10 = 0 then
      trimZeros fuel ⟨d.coefficient / 10, d.exponent + 1⟩
    else
      d

end Decimal

namespace Magnitude

/-- The interval of reals that round to a magnitude, as multiples of `2 ^ -1076`. -/
structure RoundingInterval where
  low : Nat
  high : Nat
  closed : Bool

/-- The reals that round to `x`. The gap below a power of two is half as wide as the gap above, and
the ends belong to the interval when the mantissa is even. -/
def roundingInterval (x : Magnitude) : RoundingInterval :=
  let unit := Nat.pow 2 x.exponent
  let center := 4 * x.units
  let below := if x.mantissa = Nat.pow 2 52 ∧ x.exponent ≠ 0 then unit else 2 * unit
  ⟨center - below, center + 2 * unit, x.mantissa % 2 == 0⟩

/-- Whether `num / den`, a multiple of `2 ^ -1076`, lies in the interval. -/
def RoundingInterval.contains (i : RoundingInterval) (num den : Nat) : Bool :=
  if i.closed then i.low * den ≤ num && num ≤ i.high * den
  else i.low * den < num && num < i.high * den

/-- The greatest integer `e` with `10 ^ e ≤ num / den`, for positive `num` and `den`. -/
def decimalExponent (num den : Nat) : Int :=
  let guess := ((Decimal.digits num).length : Int) - (Decimal.digits den).length
  let reaches :=
    if guess ≥ 0 then den * Nat.pow 10 guess.toNat ≤ num
    else den ≤ num * Nat.pow 10 (-guess).toNat
  if reaches then guess else guess - 1

/-- The decimal with `count` digits that is nearest to `x` among those that round to `x`, if there
is one; a tie goes to the even coefficient. -/
def nearestOfLength (x : Magnitude) (top : Int) (count : Nat) : Option Decimal :=
  let exponent := top - count + 1
  -- the exact value and one step of the grid, both as multiples of `2 ^ -1076 / den`
  let den := Nat.pow 10 (-exponent).toNat
  let step := Nat.pow 2 1076 * Nat.pow 10 exponent.toNat
  let value := 4 * x.units * den
  let lower := value / step
  let rest := value % step
  let interval := x.roundingInterval
  let fits (c : Nat) := c ≠ 0 && interval.contains (c * step) den
  let preferLower := 2 * rest < step || (2 * rest == step && lower % 2 == 0)
  let first := if preferLower then lower else lower + 1
  let second := if preferLower then lower + 1 else lower
  if fits first then some ⟨first, exponent⟩
  else if fits second then some ⟨second, exponent⟩
  else none

/-- The shortest decimal that rounds to `x`, without trailing zeros; zero is `0 · 10 ^ 0`. -/
def shortest (x : Magnitude) : Decimal :=
  if x.isZero then ⟨0, 0⟩
  else
    let top := decimalExponent x.units (Nat.pow 2 1074)
    match (List.range' 1 17).findSome? (nearestOfLength x top) with
    | some d => d.trimZeros 20
    | none => ⟨0, 0⟩

end Magnitude

end JavaAtlas
