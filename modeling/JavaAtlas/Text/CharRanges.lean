set_option autoImplicit false

/-! # Sets of characters as ranges

A property of characters is kept as an increasing list of closed ranges of code points. -/

namespace JavaAtlas

/-- A set of code points, given by its closed ranges in increasing order. -/
abbrev CharRanges := List (Nat × Nat)

namespace CharRanges

/-- Whether the code point lies in one of the ranges. The search stops at the first range that
begins above it. -/
def contains : CharRanges → Nat → Bool
  | [], _ => false
  | (first, last) :: rest, n => first ≤ n && (n ≤ last || contains rest n)

end CharRanges

end JavaAtlas
