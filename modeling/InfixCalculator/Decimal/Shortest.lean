import InfixCalculator.Decimal.Basic

/-!
# The shortest decimal of a magnitude

The shortest decimal of a magnitude has as few significant digits as any decimal that is rounded to
it, and of those with so few digits it is the nearest one.  For each number of digits, from one on,
only the two neighbours of the exact value on that decimal grid are tried, and a neighbour is
accepted exactly if it is read back as the magnitude.
-/

namespace InfixCalculator

def digitCount (n : Nat) : Nat := if n = 0 then 0 else (Nat.toDigits 10 n).length

/-- The largest `k` with `10 ^ k ≤ num / den`, for positive `num` and `den`. -/
def floorLog10 (num den : Nat) : Int :=
  if den ≤ num then (digitCount (num / den) : Int) - 1
  else -(digitCount ((den + num - 1) / num - 1) : Int)

namespace Magnitude

def numerator (m : Magnitude) : Nat := m.significand <<< m.exponent.toNat

def denominator (m : Magnitude) : Nat := 1 <<< (-m.exponent).toNat

def exactDecimal (m : Magnitude) : Decimal :=
  if 0 ≤ m.exponent then ⟨m.numerator, 0⟩
  else ⟨m.significand * Nat.pow 5 (-m.exponent).toNat, m.exponent⟩

/-- The neighbour of a finite magnitude on the grid of `10 ^ exponent` that is read back as the
magnitude, if there is one: the nearer one if both are, and the even one if they are equally
near. -/
def decimalOn? (m : Magnitude) (exponent : Int) : Option Decimal :=
  let num := m.numerator * Decimal.powerOfTen (-exponent).toNat
  let den := m.denominator * Decimal.powerOfTen exponent.toNat
  let below : Decimal := ⟨num / den, exponent⟩
  let above : Decimal := ⟨num / den + 1, exponent⟩
  match below.toMagnitude == m, above.toMagnitude == m with
  | true, true => if nearestWhole num den = num / den then some below else some above
  | true, false => some below
  | false, true => some above
  | false, false => none

def firstDecimal (m : Magnitude) (exponent : Int) : Nat → Decimal
  | 0 => m.exactDecimal
  | grids + 1 =>
    match m.decimalOn? exponent with
    | some d => d
    | none => firstDecimal m (exponent - 1) grids

/-- The shortest decimal that is rounded to a finite magnitude.  Seventeen digits are enough for
any of them. -/
def shortest (m : Magnitude) : Decimal :=
  if m.isZero then ⟨0, 0⟩
  else (m.firstDecimal (floorLog10 m.numerator m.denominator) 17).normalize

end Magnitude

end InfixCalculator
