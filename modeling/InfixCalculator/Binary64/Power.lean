import InfixCalculator.Binary64.Enclosure
import InfixCalculator.Binary64.Arithmetic

/-!
# Powers of binary64 numbers

The power of two numbers is the real power rounded once.  A negative base has a power for whole
exponents only, negative for the odd ones; powers of zeros, infinities and `nan` follow the
format's rules for the power function.

The exponent of a finite power is `n / 2 ^ k` in lowest terms.  The real power is enclosed by `k`
square roots and an `n`th power, which settles the result whenever both bounds round alike.
Otherwise the magnitudes between the two are searched by comparing the power with the midpoint of
two neighbours, exactly, as whole numbers.
-/

namespace InfixCalculator

namespace Magnitude

def isWhole (m : Magnitude) : Bool :=
  0 ≤ m.exponent || m.significand % (1 <<< (-m.exponent).toNat) == 0

def isOdd (m : Magnitude) : Bool :=
  m.exponent ≤ 0 &&
    m.significand % (1 <<< ((-m.exponent).toNat + 1)) == 1 <<< (-m.exponent).toNat

def toScaled (m : Magnitude) : Scaled := ⟨m.significand, m.exponent⟩

/-- The point halfway between the magnitude of a rank and the next one. -/
def midpoint (rank : Nat) : Scaled := ⟨2 * significandOf rank + 1, exponentOf rank - 1⟩

end Magnitude

/-- A positive exponent `numerator / 2 ^ twos`. -/
structure DyadicExponent where
  numerator : Nat
  twos : Nat
  deriving DecidableEq, Repr

namespace DyadicExponent

/-- Halves the numerator as long as it is even and a two is left in the denominator. -/
def reduce (numerator : Nat) : Nat → DyadicExponent
  | 0 => ⟨numerator, 0⟩
  | twos + 1 =>
    if numerator % 2 = 0 then reduce (numerator / 2) twos else ⟨numerator, twos + 1⟩

def ofMagnitude (m : Magnitude) : DyadicExponent :=
  reduce (m.significand <<< m.exponent.toNat) (-m.exponent).toNat

end DyadicExponent

namespace Magnitude

/-- Bounds of the power of a positive finite base to the exponent `y`, or to `-y` if `inverse`. -/
def encloseRealPower (base : Magnitude) (inverse : Bool) (y : DyadicExponent) : Enclosure :=
  let power := ((Enclosure.ofScaled base.toScaled).repeatedSqrt y.twos).pow y.numerator
  if inverse then power.inv else power

/-- How the real power lies to the point `x`: both are raised to the `2 ^ y.twos`, which makes them
numbers that can be compared exactly. -/
def compareRealPower (base : Magnitude) (inverse : Bool) (y : DyadicExponent) (x : Scaled) :
    Ordering :=
  let power := base.toScaled.pow y.numerator
  let point := x.pow (1 <<< y.twos)
  if inverse then Scaled.one.compare (point.mul power) else power.compare point

/-- Whether the real power is rounded to a magnitude above that of `rank`: it lies beyond the
midpoint to the next one, or on it while the rank is odd. -/
def powerRoundsAbove (base : Magnitude) (inverse : Bool) (y : DyadicExponent) (rank : Nat) :
    Bool :=
  match base.compareRealPower inverse y (midpoint rank) with
  | .lt => false
  | .eq => rank % 2 == 1
  | .gt => true

/-- The least number from `low` to `high` at which `above`, which holds up to some point and not
after it, does not hold; the answer is `high` if it holds at all before. -/
def firstNotAbove (above : Nat → Bool) (low high : Nat) : Nat :=
  if low < high then
    let middle := (low + high) / 2
    if above middle then firstNotAbove above (middle + 1) high
    else firstNotAbove above low middle
  else low
termination_by high - low

/-- The magnitude nearest to the real power of a positive finite base to the exponent `y`, or to
`-y` if `inverse`. -/
def realPower (base : Magnitude) (inverse : Bool) (y : DyadicExponent) : Magnitude :=
  let bounds := base.encloseRealPower inverse y
  ofRank (firstNotAbove (base.powerRoundsAbove inverse y)
    bounds.lower.round.rank bounds.upper.round.rank)

end Magnitude

namespace Binary64

def isWhole : Binary64 → Bool
  | nan => false
  | signed _ m => !m.isInfinite && m.isWhole

def isOdd : Binary64 → Bool
  | nan => false
  | signed _ m => !m.isInfinite && m.isOdd

/-- The power to an infinite exponent: one for the bases one and minus one, and otherwise zero or
infinity as the base is below or above one. -/
def powInfinite (base : Magnitude) (negativeExponent : Bool) : Magnitude :=
  match compare base.rank Magnitude.one.rank with
  | .lt => if negativeExponent then .infinity else .zero
  | .eq => .one
  | .gt => if negativeExponent then .zero else .infinity

def powFinite (negativeBase : Bool) (base : Magnitude) (exponent : Binary64)
    (negativeExponent : Bool) (magnitude : Magnitude) : Binary64 :=
  if negativeBase && !exponent.isWhole then nan
  else
    signed (negativeBase && exponent.isOdd)
      (base.realPower negativeExponent (.ofMagnitude magnitude))

/-- The power function, correctly rounded.  A mathematical library promises less: the last place of
its powers may differ from this one, as in `5.4 ^ 0.8`.  The exponent zero and the base one give one
whatever the other operand is, `nan` included. -/
def pow (base exponent : Binary64) : Binary64 :=
  if exponent.isZero || base = one then one
  else
    match base, exponent with
    | signed s a, signed t b =>
      if b.isInfinite then signed false (powInfinite a t)
      else if a.isZero then
        signed (s && exponent.isOdd) (if t then .infinity else .zero)
      else if a.isInfinite then
        signed (s && exponent.isOdd) (if t then .zero else .infinity)
      else powFinite s a exponent t b
    | _, _ => nan

instance : Pow Binary64 Binary64 := ⟨pow⟩

end Binary64

end InfixCalculator
