import JavaAtlas.Number.Shortest

set_option autoImplicit false

/-! # Layouts of floating-point text

The digits of a number are those of its shortest decimal; a `Layout` says how they are spread out:
which orders of magnitude are written positionally, how the exponent of the others is marked, and
what stands for the values that have no digits. -/

namespace JavaAtlas

/-- How the digits of a double are written. -/
structure Layout where
  /-- Whether a number whose leading digit has the weight `10 ^ e` is written positionally. -/
  positional : Int → Bool
  /-- Whether a positive exponent is written with a plus sign. -/
  exponentPlus : Bool
  nan : String
  negativeNan : String
  infinity : String
  negativeInfinity : String

namespace Layout

/-- The layout of JSON text: positional from `1e-5` to below `1e16`, signed exponents elsewhere.
JSON has no text for the special values; `null` stands for them. -/
def json : Layout where
  positional := fun e => -5 ≤ e && e ≤ 15
  exponentPlus := true
  nan := "null"
  negativeNan := "null"
  infinity := "null"
  negativeInfinity := "null"

/-- The layout of diagnostic text: positional from `1e-4` to below `1e16`, bare exponents
elsewhere. -/
def debug : Layout where
  positional := fun e => -4 ≤ e && e ≤ 15
  exponentPlus := false
  nan := "NaN"
  negativeNan := "NaN"
  infinity := "inf"
  negativeInfinity := "-inf"

/-- The layout of a TOML document: always positional. -/
def plain : Layout where
  positional := fun _ => true
  exponentPlus := false
  nan := "nan"
  negativeNan := "-nan"
  infinity := "inf"
  negativeInfinity := "-inf"

/-- Digits written positionally, with at least one digit on each side of the point. `leading` is the
power of ten of the first digit. -/
def spread (digits : List Char) (leading : Int) : List Char :=
  if leading < 0 then
    '0' :: '.' :: (List.replicate (-leading - 1).toNat '0' ++ digits)
  else
    let whole := leading.toNat + 1
    let fraction := digits.drop whole
    digits.take whole ++ List.replicate (whole - digits.length) '0' ++
      '.' :: (if fraction.isEmpty then ['0'] else fraction)

/-- Digits written with an exponent; the point is left out after a lone digit. -/
def scientific (plus : Bool) (digits : List Char) (leading : Int) : List Char :=
  let mantissa := match digits with
    | [] => []
    | [d] => [d]
    | d :: rest => d :: '.' :: rest
  let sign := if leading < 0 then ['-'] else if plus then ['+'] else []
  mantissa ++ 'e' :: sign ++ Decimal.digits leading.natAbs

/-- The text of a magnitude. -/
def magnitude (layout : Layout) (x : Magnitude) : List Char :=
  let d := x.shortest
  let digits := Decimal.digits d.coefficient
  let leading := d.exponent + digits.length - 1
  if layout.positional leading then spread digits leading
  else scientific layout.exponentPlus digits leading

/-- The text of a double. -/
def double (layout : Layout) : Double → List Char
  | .nan negative => (if negative then layout.negativeNan else layout.nan).toList
  | .infinity negative => (if negative then layout.negativeInfinity else layout.infinity).toList
  | .finite negative x => (if negative then ['-'] else []) ++ layout.magnitude x

/-- The text of a double as a string. -/
def text (layout : Layout) (x : Double) : String :=
  String.ofList (layout.double x)

end Layout

end JavaAtlas
