/-!
# Binary64 numbers

The magnitudes of the binary64 format, infinity included, are numbered in increasing order: rank
zero is the number zero, every other rank the next larger magnitude, and the last rank infinity.
A number is a sign with a magnitude, or the one value that is not a number.  Two numbers are equal
as values of this type exactly when they have the same sign and rank, so the two zeros differ and
`nan` equals itself; comparison as the format defines it is `Binary64.equals`.
-/

namespace InfixCalculator

namespace Magnitude

/-- The number of magnitudes that share one exponent, and the least significand of full length. -/
def blockSize : Nat := 1 <<< 52

/-- The exponent of the finest grid, on which the smallest magnitudes lie. -/
def leastExponent : Int := -1074

/-- The rank of infinity. -/
def topRank : Nat := 2047 * blockSize

end Magnitude

/-- The absolute value of a binary64 number, given by its rank among all of them. -/
structure Magnitude where
  rank : Nat
  rank_le : rank ≤ Magnitude.topRank
  deriving DecidableEq, Repr

namespace Magnitude

def ofRank (rank : Nat) : Magnitude := ⟨min rank topRank, Nat.min_le_right ..⟩

def zero : Magnitude := ofRank 0

def one : Magnitude := ofRank (1023 * blockSize)

def infinity : Magnitude := ofRank topRank

def isZero (m : Magnitude) : Bool := m.rank == 0

def isInfinite (m : Magnitude) : Bool := m.rank == topRank

/-- The exponent of the grid on which a rank lies: the two lowest blocks share the finest grid, and
each further block lies on a grid of twice the spacing. -/
def exponentOf (rank : Nat) : Int := (max (rank / blockSize) 1 : Nat) - 1 + leastExponent

/-- The number of grid steps from zero to the magnitude of a rank. -/
def significandOf (rank : Nat) : Nat := rank - blockSize * (max (rank / blockSize) 1 - 1)

/-- A finite magnitude is `significand * 2 ^ exponent`. -/
def exponent (m : Magnitude) : Int := exponentOf m.rank

@[inherit_doc exponent]
def significand (m : Magnitude) : Nat := significandOf m.rank

@[simp] theorem rank_ofRank (rank : Nat) : (ofRank rank).rank = min rank topRank := rfl

theorem ofRank_rank (m : Magnitude) : ofRank m.rank = m := by
  cases m with
  | mk rank h => simp [ofRank, Nat.min_eq_left h]

end Magnitude

inductive Binary64 where
  | nan
  | signed (negative : Bool) (magnitude : Magnitude)
  deriving DecidableEq, Repr

namespace Binary64

def zero : Binary64 := .signed false .zero

def one : Binary64 := .signed false .one

def infinity : Binary64 := .signed false .infinity

instance : Inhabited Binary64 := ⟨zero⟩

def isNaN : Binary64 → Bool
  | nan => true
  | signed .. => false

def isZero : Binary64 → Bool
  | nan => false
  | signed _ m => m.isZero

def isNegative : Binary64 → Bool
  | nan => false
  | signed negative _ => negative

def neg : Binary64 → Binary64
  | nan => nan
  | signed negative m => signed (!negative) m

instance : Neg Binary64 := ⟨neg⟩

/-- Comparison by value: the two zeros are equal, and `nan` equals nothing. -/
def equals : Binary64 → Binary64 → Bool
  | signed s a, signed t b => (a == b && s == t) || (a.isZero && b.isZero)
  | _, _ => false

end Binary64

end InfixCalculator
