import InfixCalculator.Binary64.Rounding

/-!
# Decimal numbers

A decimal number is a natural coefficient with a power of ten.  It is read from digits with at most
one decimal point, and rounded once, from its exact value, to the nearest binary64 magnitude.
-/

namespace InfixCalculator

/-- The number `coefficient * 10 ^ exponent`. -/
structure Decimal where
  coefficient : Nat
  exponent : Int
  deriving DecidableEq, Repr

namespace Decimal

def wholeOfDigits (digits : List Char) : Nat := Nat.ofDigitChars 10 digits 0

/-- Reads a literal of digits and at most one point: each digit behind the point lowers the
exponent by one. -/
def ofLiteral (literal : List Char) : Decimal :=
  let whole := literal.takeWhile (· != '.')
  let fraction := (literal.dropWhile (· != '.')).drop 1
  ⟨wholeOfDigits (whole ++ fraction), -(fraction.length : Int)⟩

def powerOfTen (exponent : Nat) : Nat := Nat.pow 10 exponent

/-- The magnitude nearest to a decimal.  Exponents far outside the range of the format are answered
without computing the power: a coefficient of `b + 1` bits is at least `10 ^ (3 * b / 10)` and less
than `10 ^ (b / 3 + 1)`. -/
def toMagnitude (d : Decimal) : Magnitude :=
  if d.coefficient = 0 then .zero
  else
    let bits := d.coefficient.log2
    if 310 < (3 * bits / 10 : Nat) + d.exponent then .infinity
    else if (bits / 3 + 1 : Nat) + d.exponent < -330 then .zero
    else .nearest (d.coefficient * powerOfTen d.exponent.toNat) (powerOfTen (-d.exponent).toNat)

/-- Moves the zeros at the end of a positive coefficient into the exponent. -/
def stripZeros (coefficient : Nat) (exponent : Int) : Decimal :=
  if coefficient ≠ 0 ∧ coefficient % 10 = 0 then stripZeros (coefficient / 10) (exponent + 1)
  else ⟨coefficient, exponent⟩
termination_by coefficient

def normalize (d : Decimal) : Decimal := stripZeros d.coefficient d.exponent

end Decimal

end InfixCalculator
