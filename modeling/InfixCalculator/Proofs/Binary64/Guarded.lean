import InfixCalculator.Operator

/-!
# Guarded arithmetic

A division by zero has no result, and neither has a power that overflows or leaves the domain of
real powers.  Division and powers are guarded: where there is no result they give the infinity or
`nan` that the format prescribes.  So no operator fails, and division gives what `Binary64.div`
says; with a power function that fails where `Binary64.mathPow` does, powers give what
`Binary64.pow` says.
-/

namespace InfixCalculator

inductive ArithmeticFault where
  | zeroDivision
  | overflow
  | domain
  deriving DecidableEq, Repr

/-- A power function that may fail. -/
abbrev PowerFunction := Binary64 → Binary64 → Except ArithmeticFault Binary64

theorem Magnitude.not_isInfinite_of_isZero {m : Magnitude} (h : m.isZero = true) :
    m.isInfinite = false := by
  have hrank : m.rank = 0 := by simpa [isZero] using h
  simp [isInfinite, hrank, topRank, blockSize]

theorem Magnitude.eq_infinity {m : Magnitude} (h : m.isInfinite = true) : m = .infinity := by
  have hrank : m.rank = topRank := by simpa [isInfinite] using h
  rw [← Magnitude.ofRank_rank m, hrank]
  rfl

namespace Binary64

def isFinite : Binary64 → Bool
  | nan => false
  | signed _ m => !m.isInfinite

/-! ## Division -/

def rawDiv (x y : Binary64) : Except ArithmeticFault Binary64 :=
  if y.isZero then .error .zeroDivision else .ok (x.div y)

/-- Division with a guard for the divisor zero: zero and `nan` give `nan`, and all other numbers an
infinity with the product of both signs. -/
def guardedDiv (x y : Binary64) : Except ArithmeticFault Binary64 :=
  if y.isZero then
    if x.isZero || x.isNaN then .ok nan
    else .ok (mul (signed x.isNegative .infinity) (signed y.isNegative .one))
  else rawDiv x y

theorem guardedDiv_eq (x y : Binary64) : guardedDiv x y = .ok (x.div y) := by
  cases hy : y.isZero with
  | false => simp [guardedDiv, rawDiv, hy]
  | true =>
    rw [guardedDiv, if_pos hy]
    cases y with
    | nan => cases hy
    | signed t b =>
      replace hy : b.isZero = true := hy
      have hb := Magnitude.not_isInfinite_of_isZero hy
      cases x with
      | nan => rfl
      | signed s a =>
        cases ha : a.isZero with
        | true =>
          have hinf := Magnitude.not_isInfinite_of_isZero ha
          simp [div, isZero, ha, hinf, hb, hy]
        | false =>
          have hmul : mul (signed s .infinity) (signed t .one) = signed (s != t) .infinity := rfl
          simp [div, isZero, isNaN, isNegative, ha, hb, hy, hmul]

/-! ## Powers -/

/-- Powers with guards for overflow and for faults of the domain. -/
def guardedPow (power : PowerFunction) (x y : Binary64) : Except ArithmeticFault Binary64 :=
  match power x y with
  | .ok z => .ok z
  | .error .overflow =>
    .ok (if x.isNegative && !x.isZero && y.isOdd then signed true .infinity else infinity)
  | .error .domain =>
    .ok (if x.isZero then if y.isOdd then signed x.isNegative .infinity else infinity else nan)
  | .error fault => .error fault

/-- The power function of which an overflow and a fault of the domain are reported: two finite
numbers whose power is not finite. -/
def mathPow : PowerFunction := fun x y =>
  if x.isFinite && y.isFinite && !(x.pow y).isFinite then
    if (x.pow y).isNaN || x.isZero then .error .domain else .error .overflow
  else .ok (x.pow y)

theorem exists_guardedPow {power : PowerFunction} (x y : Binary64)
    (h : power x y ≠ .error .zeroDivision) : ∃ z, guardedPow power x y = .ok z := by
  unfold guardedPow
  split
  · exact ⟨_, rfl⟩
  · exact ⟨_, rfl⟩
  · exact ⟨_, rfl⟩
  · next fault hoverflow hdomain hpower =>
    cases fault <;> simp_all

theorem mathPow_ne_zeroDivision (x y : Binary64) : mathPow x y ≠ .error .zeroDivision := by
  unfold mathPow
  split
  · split <;> simp
  · simp

theorem pow_of_isZero {x y : Binary64} (hx : x.isZero = true) (hy : y.isFinite = true)
    (hne : y.isZero = false) : x.pow y =
      signed (x.isNegative && y.isOdd) (if y.isNegative then .infinity else .zero) := by
  cases x with
  | nan => cases hx
  | signed s a =>
    cases y with
    | nan => cases hy
    | signed t b =>
      have hone : signed s a ≠ one := by
        rintro heq
        rw [heq] at hx
        exact absurd hx (by decide)
      have hbfin : b.isInfinite = false := by simpa [isFinite] using hy
      have ha : a.isZero = true := hx
      cases t <;> simp [pow, hne, hone, hbfin, ha, isNegative]

theorem pow_of_isFinite {s t : Bool} {a b : Magnitude} (hafin : a.isInfinite = false)
    (ha : a.isZero = false) (hone : signed s a ≠ one) (hbfin : b.isInfinite = false)
    (hb : b.isZero = false) : (signed s a).pow (signed t b) = powFinite s a (signed t b) t b := by
  have hne : (signed t b).isZero = false := hb
  simp [pow, hne, hone, hbfin, ha, hafin]

/-- A power of finite numbers that is not finite is an infinity with the sign of an odd power, which
for the base zero takes a negative exponent, or it is `nan`, which takes a negative base and an
exponent that is not whole. -/
theorem pow_of_not_isFinite {x y : Binary64} (hx : x.isFinite = true) (hy : y.isFinite = true)
    (hpow : (x.pow y).isFinite = false) :
    x.pow y = signed (x.isNegative && y.isOdd) .infinity ∧
        (x.isZero = true → y.isZero = false ∧ y.isNegative = true) ∨
      x.pow y = nan ∧ x.isZero = false ∧ x.isNegative = true ∧ y.isWhole = false := by
  by_cases hone : y.isZero = true ∨ x = one
  · have hpowone : x.pow y = one := by simp [pow, hone]
    rw [hpowone] at hpow
    exact absurd hpow (by decide)
  · rw [not_or, Bool.not_eq_true] at hone
    cases hzero : x.isZero with
    | true =>
      rw [pow_of_isZero hzero hy hone.1] at hpow ⊢
      cases hneg : y.isNegative with
      | true => exact .inl ⟨rfl, fun _ => ⟨hone.1, rfl⟩⟩
      | false =>
        have hzerofin : Magnitude.zero.isInfinite = false := by decide
        simp [isFinite, hneg, hzerofin] at hpow
    | false =>
      cases x with
      | nan => cases hx
      | signed s a =>
        cases y with
        | nan => cases hy
        | signed t b =>
          have hafin : a.isInfinite = false := by simpa [isFinite] using hx
          have hbfin : b.isInfinite = false := by simpa [isFinite] using hy
          rw [pow_of_isFinite hafin hzero hone.2 hbfin hone.1, powFinite] at hpow ⊢
          split at hpow
          · next hwhole =>
            simp only [Bool.and_eq_true, Bool.not_eq_true'] at hwhole
            exact .inr ⟨by simp [hwhole], rfl, hwhole⟩
          · next hwhole =>
            rw [if_neg hwhole]
            have hinfinity := Magnitude.eq_infinity (by simpa [isFinite] using hpow)
            exact .inl ⟨congrArg _ hinfinity, by simp⟩

theorem guardedPow_mathPow (x y : Binary64) : guardedPow mathPow x y = .ok (x.pow y) := by
  by_cases hfault : (x.isFinite && y.isFinite && !(x.pow y).isFinite) = true
  · have hmath : mathPow x y =
        if (x.pow y).isNaN || x.isZero then .error .domain else .error .overflow := if_pos hfault
    simp only [Bool.and_eq_true, Bool.not_eq_true'] at hfault
    obtain ⟨⟨hx, hy⟩, hpow⟩ := hfault
    rcases pow_of_not_isFinite hx hy hpow with ⟨hinf, -⟩ | ⟨hnan, hzero, -⟩
    · rw [guardedPow, hmath, hinf]
      cases x.isZero <;> cases x.isNegative <;> cases y.isOdd <;> rfl
    · simp [guardedPow, hmath, hzero, hnan, isNaN]
  · have hmath : mathPow x y = .ok (x.pow y) := if_neg hfault
    rw [guardedPow, hmath]

end Binary64

namespace BinaryOp

variable {power : PowerFunction}

def applyGuarded (power : PowerFunction) :
    BinaryOp → Binary64 → Binary64 → Except ArithmeticFault Binary64
  | .divide, x, y => x.guardedDiv y
  | .power, x, y => Binary64.guardedPow power x y
  | op, x, y => .ok (op.apply x y)

theorem exists_applyGuarded (hpower : ∀ x y, power x y ≠ .error .zeroDivision) (op : BinaryOp)
    (x y : Binary64) : ∃ z, op.applyGuarded power x y = .ok z := by
  cases op with
  | add | subtract | multiply => exact ⟨_, rfl⟩
  | divide => exact ⟨_, Binary64.guardedDiv_eq x y⟩
  | power => exact Binary64.exists_guardedPow x y (hpower x y)

theorem applyGuarded_eq (hpower : ∀ x y, Binary64.guardedPow power x y = .ok (x.pow y))
    (op : BinaryOp) (x y : Binary64) : op.applyGuarded power x y = .ok (op.apply x y) := by
  cases op with
  | add | subtract | multiply => rfl
  | divide => exact Binary64.guardedDiv_eq x y
  | power => exact hpower x y

end BinaryOp

end InfixCalculator
