import InfixCalculator.Binary64.Rounding

/-!
# Arithmetic on binary64 numbers

Each operation computes the exact result and rounds it once.  Where there is no exact result the
operation is still total: a non-zero number divided by zero is an infinity whose sign is the
product of both signs, and `nan` stands for the rest.
-/

namespace InfixCalculator.Binary64

/-- The signed significand of a number on the grid of exponent `e`, which is not above its own. -/
def stepsOn (e : Int) (negative : Bool) (m : Magnitude) : Int :=
  let steps : Nat := m.significand <<< (m.exponent - e).toNat
  if negative then -(steps : Int) else steps

/-- Addition.  An exact sum of zero is negative only if both operands are. -/
def add : Binary64 → Binary64 → Binary64
  | signed s a, signed t b =>
    if a.isInfinite then
      if b.isInfinite && s != t then nan else signed s a
    else if b.isInfinite then signed t b
    else
      let e := min a.exponent b.exponent
      let sum := stepsOn e s a + stepsOn e t b
      if sum = 0 then signed (s && t) .zero
      else signed (sum < 0) (.nearestScaled sum.natAbs e)
  | _, _ => nan

def sub (x y : Binary64) : Binary64 := add x y.neg

def mul : Binary64 → Binary64 → Binary64
  | signed s a, signed t b =>
    if a.isInfinite || b.isInfinite then
      if a.isZero || b.isZero then nan else signed (s != t) .infinity
    else
      signed (s != t) (.nearestScaled (a.significand * b.significand) (a.exponent + b.exponent))
  | _, _ => nan

def quotient (a b : Magnitude) : Magnitude :=
  let e := a.exponent - b.exponent
  .nearest (a.significand <<< e.toNat) (b.significand <<< (-e).toNat)

def div : Binary64 → Binary64 → Binary64
  | signed s a, signed t b =>
    if a.isInfinite then
      if b.isInfinite then nan else signed (s != t) .infinity
    else if b.isInfinite then signed (s != t) .zero
    else if b.isZero then
      if a.isZero then nan else signed (s != t) .infinity
    else signed (s != t) (quotient a b)
  | _, _ => nan

instance : Add Binary64 := ⟨add⟩
instance : Sub Binary64 := ⟨sub⟩
instance : Mul Binary64 := ⟨mul⟩
instance : Div Binary64 := ⟨div⟩

end InfixCalculator.Binary64
