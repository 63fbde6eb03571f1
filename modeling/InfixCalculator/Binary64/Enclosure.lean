import InfixCalculator.Binary64.Rounding

/-!
# Enclosures of positive reals

A positive real is enclosed between two numbers of the form `mantissa * 2 ^ exponent`.  Every
operation rounds its lower bound down and its upper bound up, so the result of an operation on
enclosed reals is enclosed again.  Mantissas are kept to a fixed number of bits, and an operation
whose exact result fits loses nothing: its two bounds then stay equal.
-/

namespace InfixCalculator

/-- The number `mantissa * 2 ^ exponent`. -/
structure Scaled where
  mantissa : Nat
  exponent : Int
  deriving DecidableEq, Repr

namespace Scaled

/-- The number of bits to which mantissas are kept. -/
def width : Nat := 320

def one : Scaled := ⟨1, 0⟩

def excess (mantissa : Nat) : Nat := mantissa.log2 + 1 - width

def trimDown (x : Scaled) : Scaled :=
  let drop := excess x.mantissa
  ⟨x.mantissa >>> drop, x.exponent + drop⟩

/-- Drops the excess bits, rounding up if they are not all zero. -/
def trimUp (x : Scaled) : Scaled :=
  let drop := excess x.mantissa
  ⟨(x.mantissa + (1 <<< drop - 1)) >>> drop, x.exponent + drop⟩

def mul (x y : Scaled) : Scaled := ⟨x.mantissa * y.mantissa, x.exponent + y.exponent⟩

def compare (x y : Scaled) : Ordering :=
  let shift := x.exponent - y.exponent
  Ord.compare (x.mantissa <<< shift.toNat) (y.mantissa <<< (-shift).toNat)

def pow (x : Scaled) (n : Nat) : Scaled := ⟨Nat.pow x.mantissa n, x.exponent * n⟩

def round (x : Scaled) : Magnitude := .nearestScaled x.mantissa x.exponent

/-- Improves `guess`, which is not below the square root of `n`, until it is the whole part of the
square root. -/
def sqrtFrom (n guess : Nat) : Nat :=
  let next := (guess + n / guess) / 2
  if next < guess then sqrtFrom n next else guess
termination_by guess

def wholeSqrt (n : Nat) : Nat := sqrtFrom n (1 <<< (n.log2 / 2 + 1))

/-- The number with an even exponent and a mantissa so long that the whole part of its square root
fills the width. -/
def spread (x : Scaled) : Scaled :=
  let parity := (x.exponent % 2).toNat
  ⟨x.mantissa <<< (2 * width + parity), x.exponent - parity - 2 * width⟩

def sqrtDown (x : Scaled) : Scaled :=
  let y := x.spread
  trimDown ⟨wholeSqrt y.mantissa, y.exponent / 2⟩

def sqrtUp (x : Scaled) : Scaled :=
  let y := x.spread
  let root := wholeSqrt y.mantissa
  trimUp ⟨if root * root = y.mantissa then root else root + 1, y.exponent / 2⟩

def invDown (x : Scaled) : Scaled :=
  trimDown ⟨(1 <<< (2 * width)) / x.mantissa, -x.exponent - 2 * width⟩

def invUp (x : Scaled) : Scaled :=
  trimUp ⟨((1 <<< (2 * width)) + (x.mantissa - 1)) / x.mantissa, -x.exponent - 2 * width⟩

end Scaled

/-- Two bounds between which a positive real lies. -/
structure Enclosure where
  lower : Scaled
  upper : Scaled
  deriving DecidableEq, Repr

namespace Enclosure

def ofScaled (x : Scaled) : Enclosure := ⟨x, x⟩

def mul (x y : Enclosure) : Enclosure :=
  ⟨(x.lower.mul y.lower).trimDown, (x.upper.mul y.upper).trimUp⟩

def sqrt (x : Enclosure) : Enclosure := ⟨x.lower.sqrtDown, x.upper.sqrtUp⟩

def inv (x : Enclosure) : Enclosure := ⟨x.upper.invDown, x.lower.invUp⟩

def repeatedSqrt (x : Enclosure) : Nat → Enclosure
  | 0 => x
  | k + 1 => repeatedSqrt x.sqrt k

/-- The `n`th power, by repeated squaring. -/
def pow (x : Enclosure) (n : Nat) : Enclosure :=
  if h : n = 0 then ofScaled .one
  else
    let half := x.pow (n / 2)
    let square := half.mul half
    if n % 2 = 1 then square.mul x else square
termination_by n
decreasing_by exact Nat.div_lt_self (Nat.pos_of_ne_zero h) (by decide)

end Enclosure

end InfixCalculator
