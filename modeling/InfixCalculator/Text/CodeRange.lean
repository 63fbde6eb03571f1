/-!
# Ranges of code points

A set of characters is given by the ranges of its code points in increasing order.
-/

namespace InfixCalculator

/-- The code points from `first` to `last`. -/
abbrev CodeRange := Nat × Nat

namespace CodeRange

/-- Whether a code point lies in one of the ranges, which are given in increasing order. -/
def anyContains : List CodeRange → Nat → Bool
  | [], _ => false
  | (first, last) :: ranges, code =>
    first ≤ code && (code ≤ last || anyContains ranges code)

end CodeRange

end InfixCalculator
