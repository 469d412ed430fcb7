set_option autoImplicit false

/-! # Double-precision numbers

A finite double is a sign and a magnitude `mantissa · 2 ^ (exponent - 1074)` with a mantissa of at
most 53 bits, so every finite double is an exact fraction and all arithmetic is exact arithmetic on
natural numbers followed by one rounding to nearest, ties to even (`Magnitude.round`). -/

namespace JavaAtlas

/-- The magnitude `mantissa · 2 ^ (exponent - 1074)` of a finite double. The mantissa has 53 bits
unless the exponent is the least one, so each magnitude has one representation. -/
structure Magnitude where
  mantissa : Nat
  exponent : Nat
  mantissa_lt : mantissa < Nat.pow 2 53
  normal : exponent = 0 ∨ Nat.pow 2 52 ≤ mantissa
  exponent_le : exponent ≤ 2045
deriving DecidableEq, Repr

namespace Magnitude

/-- The magnitude zero. -/
def zero : Magnitude := ⟨0, 0, by decide, Or.inl rfl, by decide⟩

instance : Inhabited Magnitude := ⟨zero⟩

/-- The exact value, as a multiple of `2 ^ -1074`. -/
def units (x : Magnitude) : Nat := x.mantissa * Nat.pow 2 x.exponent

/-- The magnitude with these parts, if they are in range and normalized. -/
def ofParts? (mantissa exponent : Nat) : Option Magnitude :=
  if h : mantissa < Nat.pow 2 53 ∧ (exponent = 0 ∨ Nat.pow 2 52 ≤ mantissa) ∧ exponent ≤ 2045 then
    some ⟨mantissa, exponent, h.1, h.2.1, h.2.2⟩
  else
    none

/-- `num / den` rounded to the nearest natural number, a tie going to the even one. -/
def roundQuotient (num den : Nat) : Nat :=
  let quotient := num / den
  let twice := 2 * (num % den)
  if twice < den then quotient
  else if den < twice then quotient + 1
  else quotient + quotient % 2

/-- The magnitude nearest to `num / den`, or `none` when that is beyond the greatest one. The
exponent is the least one for which the rounded mantissa has at most 53 bits. -/
def round (num den : Nat) : Option Magnitude :=
  let scaled := num * Nat.pow 2 1074
  let exponent := (scaled / den).log2 - 52
  let mantissa := roundQuotient scaled (den * Nat.pow 2 exponent)
  if mantissa = Nat.pow 2 53 then ofParts? (Nat.pow 2 52) (exponent + 1)
  else ofParts? mantissa exponent

/-- Whether the magnitude is zero. -/
def isZero (x : Magnitude) : Bool := x.mantissa == 0

end Magnitude

/-- A double-precision number. -/
inductive Double where
  | nan (negative : Bool)
  | infinity (negative : Bool)
  | finite (negative : Bool) (magnitude : Magnitude)
deriving DecidableEq, Repr

namespace Double

/-- Positive zero. -/
def zero : Double := finite false .zero

instance : Inhabited Double := ⟨zero⟩

/-- The double nearest to `num / den` with the given sign; an infinity when it overflows. -/
def ofRatio (negative : Bool) (num den : Nat) : Double :=
  (Magnitude.round num den).elim (infinity negative) (finite negative)

/-- The double nearest to a natural number. -/
def ofNat (n : Nat) : Double := ofRatio false n 1

/-- The double nearest to an integer. -/
def ofInt (n : Int) : Double := ofRatio (n < 0) n.natAbs 1

/-- The double nearest to `coefficient · 10 ^ exponent` with the given sign. An exponent so large
or so small that the result is an infinity or a zero in any case is not expanded. -/
def ofDecimal (negative : Bool) (coefficient : Nat) (exponent : Int) : Double :=
  if coefficient = 0 then
    finite negative .zero
  else
    let digits := coefficient.log2 / 3 + 1
    if exponent > 310 then infinity negative
    else if exponent + digits < -330 then finite negative .zero
    else if exponent ≥ 0 then ofRatio negative (coefficient * Nat.pow 10 exponent.toNat) 1
    else ofRatio negative coefficient (Nat.pow 10 (-exponent).toNat)

/-- Whether the number is neither an infinity nor not-a-number. -/
def isFinite : Double → Bool
  | finite _ _ => true
  | _ => false

/-- Whether the number is a zero of either sign. -/
def isZero : Double → Bool
  | finite _ x => x.isZero
  | _ => false

/-- The sign bit. -/
def isNegative : Double → Bool
  | nan negative | infinity negative | finite negative _ => negative

/-- The same number with its sign reversed. -/
def neg : Double → Double
  | nan negative => nan !negative
  | infinity negative => infinity !negative
  | finite negative x => finite (!negative) x

instance : Neg Double := ⟨neg⟩

/-- The product of a finite number with `10 ^ k`, where `10 ^ k` is itself rounded first. -/
def scaleUp (x : Magnitude) (k : Nat) : Option Magnitude := do
  let power ← Magnitude.round (Nat.pow 10 k) 1
  Magnitude.round (x.units * power.units) (Nat.pow 2 2148)

/-- The quotient of a finite number by `10 ^ k`, where `10 ^ k` is itself rounded first. -/
def scaleDown (x : Magnitude) (k : Nat) : Option Magnitude := do
  let power ← Magnitude.round (Nat.pow 10 k) 1
  Magnitude.round x.units power.units

/-- The exact value of a finite number, as a multiple of `2 ^ -1074`. -/
def units? : Double → Option Int
  | finite negative x => some (if negative then -(x.units : Int) else x.units)
  | _ => none

/-- Whether `x ≤ y`; false when either is not a number. -/
def le : Double → Double → Bool
  | nan _, _ | _, nan _ => false
  | infinity true, _ | _, infinity false => true
  | infinity false, _ | _, infinity true => false
  | finite n x, finite m y =>
    decide ((if n then -(x.units : Int) else x.units) ≤ if m then -(y.units : Int) else y.units)

theorem le_nan_left (negative : Bool) (y : Double) : le (nan negative) y = false := by
  simp [le]

theorem le_nan_right (negative : Bool) (x : Double) : le x (nan negative) = false := by
  cases x <;> simp [le]

end Double

end JavaAtlas
