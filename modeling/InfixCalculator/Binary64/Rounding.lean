import InfixCalculator.Binary64.Basic

/-!
# Rounding to binary64

A positive quotient of natural numbers is rounded to the nearest magnitude, a tie going to the even
rank.  The quotient is first measured in steps of the grid that its size selects; the steps below
that grid then count whole blocks of ranks, so a significand that rounds up to the next power of
two and a magnitude that rounds up to infinity need no case of their own.
-/

namespace InfixCalculator.Magnitude

/-- The whole number nearest to `num / den`, the even one of two equally near. -/
def nearestWhole (num den : Nat) : Nat :=
  let quotient := num / den
  match compare (2 * (num % den)) den with
  | .lt => quotient
  | .eq => quotient + quotient % 2
  | .gt => quotient + 1

/-- The largest `k` with `2 ^ k ≤ num / den`, for positive `num` and `den`. -/
def floorLog2 (num den : Nat) : Int :=
  let k : Int := (num.log2 : Int) - den.log2
  if num <<< (-k).toNat < den <<< k.toNat then k - 1 else k

/-- The exponent of the grid on which `num / den` is rounded: the result has 53 significant bits,
or lies on the finest grid. -/
def gridExponent (num den : Nat) : Int := max (floorLog2 num den - 52) leastExponent

def nearest (num den : Nat) : Magnitude :=
  if num = 0 then zero
  else
    let e := gridExponent num den
    ofRank (nearestWhole (num <<< (-e).toNat) (den <<< e.toNat)
      + blockSize * (e - leastExponent).toNat)

/-- The magnitude nearest to `significand * 2 ^ exponent`.  Exponents far outside the range of the
format are answered without computing the power. -/
def nearestScaled (significand : Nat) (exponent : Int) : Magnitude :=
  if significand = 0 then zero
  else
    let size := (significand.log2 : Int) + exponent
    if 1024 < size then infinity
    else if size < -1080 then zero
    else nearest (significand <<< exponent.toNat) (1 <<< (-exponent).toNat)

end InfixCalculator.Magnitude
