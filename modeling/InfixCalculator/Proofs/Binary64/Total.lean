import InfixCalculator.Proofs.Binary64.Nearest
import InfixCalculator.Proofs.Binary64.Parity

/-!
# Total division and powers

Division with a guard is division as the format defines it: the exact quotient is rounded to the
nearest magnitude, and infinities, zeros and `nan` follow rules of their own.  Powers are guarded
likewise.  A power function that fails says only that the power overflows or is out of the domain
of real powers; the guards find out from the operands which infinity, or `nan`, the power is.
-/

namespace InfixCalculator

open Magnitude

namespace Binary64

/-- The quotient of two numbers, with the product of their signs.  There is none of two zeros or two
infinities. -/
inductive IsQuotient : Binary64 → Binary64 → Binary64 → Prop
  | nanDividend (y : Binary64) : IsQuotient nan y nan
  | nanDivisor (x : Binary64) : IsQuotient x nan nan
  | infinities {s t : Bool} {a b : Magnitude} (ha : a.isInfinite = true)
      (hb : b.isInfinite = true) : IsQuotient (signed s a) (signed t b) nan
  | ofInfinity {s t : Bool} {a b : Magnitude} (ha : a.isInfinite = true)
      (hb : b.isInfinite = false) :
      IsQuotient (signed s a) (signed t b) (signed (s != t) .infinity)
  | byInfinity {s t : Bool} {a b : Magnitude} (ha : a.isInfinite = false)
      (hb : b.isInfinite = true) : IsQuotient (signed s a) (signed t b) (signed (s != t) .zero)
  | zeros {s t : Bool} {a b : Magnitude} (ha : a.isZero = true) (hb : b.isZero = true) :
      IsQuotient (signed s a) (signed t b) nan
  | byZero {s t : Bool} {a b : Magnitude} (hfinite : a.isInfinite = false)
      (ha : a.isZero = false) (hb : b.isZero = true) :
      IsQuotient (signed s a) (signed t b) (signed (s != t) .infinity)
  | rounded {s t : Bool} {a b m : Magnitude} (ha : a.isInfinite = false)
      (hfinite : b.isInfinite = false) (hb : b.isZero = false)
      (hm : IsNearest (a.toRat / b.toRat) m) :
      IsQuotient (signed s a) (signed t b) (signed (s != t) m)

variable {x y z : Binary64} {a b m : Magnitude}

/-! ## Division -/

theorem quotient_eq (a : Magnitude) (hb : b.isZero = false) :
    quotient a b = nearestTo (a.toRat / b.toRat) := by
  have hrank : b.rank ≠ 0 := by simpa [Magnitude.isZero] using hb
  have hpos : 0 < b.significand <<< (-(a.exponent - b.exponent)).toNat := by
    rw [Nat.shiftLeft_eq]
    exact Nat.mul_pos (significand_pos hrank) (by positivity)
  have hshift := shifted_div a.significand b.significand (-(a.exponent - b.exponent))
  rw [Int.neg_neg] at hshift
  rw [quotient, nearest_eq _ hpos, hshift, Magnitude.toRat, Magnitude.toRat, zpow_neg,
    div_inv_eq_mul, zpow_sub₀ two_ne_zero, mul_div_mul_comm]

theorem isNearest_quotient_iff (a : Magnitude) (hb : b.isZero = false) :
    IsNearest (a.toRat / b.toRat) m ↔ m = quotient a b := by
  rw [quotient_eq a hb, isNearest_iff (div_nonneg a.toRat_nonneg b.toRat_nonneg)]

theorem IsQuotient.div_eq (h : IsQuotient x y z) : x.div y = z := by
  cases h with
  | nanDividend y => rfl
  | nanDivisor x => cases x <;> rfl
  | infinities ha hb => simp [div, ha, hb]
  | ofInfinity ha hb => simp [div, ha, hb]
  | byInfinity ha hb => simp [div, ha, hb]
  | zeros ha hb =>
    simp [div, ha, hb, not_isInfinite_of_isZero ha, not_isInfinite_of_isZero hb]
  | byZero hfinite ha hb => simp [div, hfinite, ha, hb, not_isInfinite_of_isZero hb]
  | @rounded s t a b m ha hfinite hb hm =>
    obtain rfl := (isNearest_quotient_iff a hb).1 hm
    simp [div, ha, hfinite, hb]

theorem exists_isQuotient (x y : Binary64) : ∃ z, IsQuotient x y z := by
  cases x with
  | nan => exact ⟨_, .nanDividend y⟩
  | signed s a =>
    cases y with
    | nan => exact ⟨_, .nanDivisor _⟩
    | signed t b =>
      cases ha : a.isInfinite <;> cases hb : b.isInfinite
      · cases hzero : b.isZero with
        | false => exact ⟨_, .rounded ha hb hzero ((isNearest_quotient_iff a hzero).2 rfl)⟩
        | true =>
          cases hdividend : a.isZero with
          | false => exact ⟨_, .byZero ha hdividend hzero⟩
          | true => exact ⟨_, .zeros hdividend hzero⟩
      · exact ⟨_, .byInfinity ha hb⟩
      · exact ⟨_, .ofInfinity ha hb⟩
      · exact ⟨_, .infinities ha hb⟩

theorem guardedDiv_of_isZero (hy : y.isZero = true) : guardedDiv x y =
    .ok (if x.isZero || x.isNaN then nan else signed (x.isNegative != y.isNegative) .infinity) := by
  rw [guardedDiv, if_pos hy]
  split <;> rfl

theorem guardedDiv_eq_ok_iff : guardedDiv x y = .ok z ↔ IsQuotient x y z := by
  rw [guardedDiv_eq, Except.ok.injEq]
  constructor
  · rintro rfl
    obtain ⟨z, hz⟩ := exists_isQuotient x y
    rwa [hz.div_eq]
  · exact IsQuotient.div_eq

/-! ## Powers -/

def Overflows (power : Binary64 → Binary64 → Binary64) (x y : Binary64) : Prop :=
  x.isFinite = true ∧ x.isZero = false ∧ y.isFinite = true ∧ ∃ s, power x y = signed s .infinity

/-- A finite number that is less than zero is raised to a finite number that is not whole. -/
def HasNoRealPower (x y : Binary64) : Prop :=
  x.isFinite = true ∧ x.isZero = false ∧ x.isNegative = true ∧ y.isFinite = true ∧ ¬y.IsInteger

def DividesByZero (x y : Binary64) : Prop :=
  x.isZero = true ∧ y.isFinite = true ∧ y.isZero = false ∧ y.isNegative = true

/-- The rules for powers that are infinities, or `nan`, though the operands are finite. -/
structure PowerRules (power : Binary64 → Binary64 → Binary64) : Prop where
  overflow : ∀ x y s, Overflows power x y → power x y = signed s .infinity →
    (s = true ↔ x.isNegative = true ∧ y.IsOddInteger)
  noRealPower : ∀ x y, HasNoRealPower x y → power x y = nan
  zero_odd : ∀ x y, DividesByZero x y → y.IsOddInteger → power x y = signed x.isNegative .infinity
  zero_other : ∀ x y, DividesByZero x y → ¬y.IsOddInteger → power x y = infinity

/-- The power function fails where the power overflows and where the operands are out of the domain
of real powers, and gives the power everywhere else. -/
structure Raises (power : Binary64 → Binary64 → Binary64) (raised : PowerFunction) : Prop where
  overflow : ∀ x y, Overflows power x y → raised x y = .error .overflow
  domain : ∀ x y, HasNoRealPower x y ∨ DividesByZero x y → raised x y = .error .domain
  other : ∀ x y, ¬Overflows power x y → ¬(HasNoRealPower x y ∨ DividesByZero x y) →
    raised x y = .ok (power x y)

theorem PowerRules.exists_sign {power : Binary64 → Binary64 → Binary64} (hrules : PowerRules power)
    (h : Overflows power x y ∨ DividesByZero x y) :
    ∃ s, power x y = signed s .infinity ∧ (s = true ↔ x.isNegative = true ∧ y.IsOddInteger) := by
  rcases h with h | h
  · obtain ⟨s, hs⟩ := h.2.2.2
    exact ⟨s, hs, hrules.overflow x y s h hs⟩
  · by_cases hodd : y.IsOddInteger
    · exact ⟨_, hrules.zero_odd x y h hodd, by simp [hodd]⟩
    · exact ⟨false, hrules.zero_other x y h hodd, by simp [hodd]⟩

section Guards

variable {power : Binary64 → Binary64 → Binary64} {raised : PowerFunction}

theorem guardedPow_of_overflow (hrules : PowerRules power) (hraised : Raises power raised)
    (h : Overflows power x y) : guardedPow raised x y = .ok (power x y) := by
  obtain ⟨s, hs, hsign⟩ := hrules.exists_sign (.inl h)
  rw [← isOdd_iff, ← Bool.and_eq_true] at hsign
  simp only [guardedPow, hraised.overflow x y h, hs, h.2.1, Bool.not_false, Bool.and_true]
  by_cases hodd : (x.isNegative && y.isOdd) = true
  · rw [if_pos hodd, hsign.2 hodd]
  · rw [if_neg hodd, eq_false_of_ne_true (mt hsign.1 hodd), infinity]

theorem guardedPow_of_domain (hrules : PowerRules power) (hraised : Raises power raised)
    (h : HasNoRealPower x y ∨ DividesByZero x y) :
    guardedPow raised x y = .ok (power x y) := by
  simp only [guardedPow, hraised.domain x y h]
  rcases h with h | h
  · rw [hrules.noRealPower x y h, h.2.1, if_neg Bool.false_ne_true]
  · rw [if_pos h.1]
    by_cases hodd : y.IsOddInteger
    · rw [if_pos (isOdd_iff.2 hodd), hrules.zero_odd x y h hodd]
    · rw [if_neg (mt isOdd_iff.1 hodd), hrules.zero_other x y h hodd]

/-- The guards find out the power wherever the power function fails. -/
theorem guardedPow_eq (hrules : PowerRules power) (hraised : Raises power raised)
    (x y : Binary64) : guardedPow raised x y = .ok (power x y) := by
  by_cases hoverflow : Overflows power x y
  · exact guardedPow_of_overflow hrules hraised hoverflow
  · by_cases hdomain : HasNoRealPower x y ∨ DividesByZero x y
    · exact guardedPow_of_domain hrules hraised hdomain
    · rw [guardedPow, hraised.other x y hoverflow hdomain]

end Guards

/-! ## Powers of the format -/

theorem not_isFinite_infinity (s : Bool) : (signed s .infinity).isFinite = false := by
  have hinfinity : Magnitude.infinity.isInfinite = true := by decide
  simp [isFinite, hinfinity]

theorem isFinite_of_isZero (h : x.isZero = true) : x.isFinite = true := by
  cases x with
  | nan => cases h
  | signed s a =>
    have hfinite : a.isInfinite = false := not_isInfinite_of_isZero h
    simp [isFinite, hfinite]

theorem isInteger_of_isZero (h : y.isZero = true) : y.IsInteger := by
  cases y with
  | nan => cases h
  | signed t b =>
    have hrank : b.rank = Magnitude.zero.rank := eq_of_beq h
    rw [eq_of_rank_eq hrank]
    exact isWhole_iff.1 (by cases t <;> decide)

theorem pow_of_hasNoRealPower (h : HasNoRealPower x y) : x.pow y = nan := by
  obtain ⟨hx, hzero, hneg, hy, hint⟩ := h
  cases x with
  | nan => cases hx
  | signed s a =>
    cases y with
    | nan => cases hy
    | signed t b =>
      obtain rfl : s = true := hneg
      have hafin : a.isInfinite = false := by simpa [isFinite] using hx
      have hbfin : b.isInfinite = false := by simpa [isFinite] using hy
      have hb : b.isZero = false := eq_false_of_ne_true fun hb => hint (isInteger_of_isZero hb)
      have hwhole : (signed t b).isWhole = false := eq_false_of_ne_true (mt isWhole_iff.1 hint)
      rw [pow_of_isFinite hafin hzero (by simp [one]) hbfin hb, powFinite, hwhole]
      rfl

theorem pow_of_dividesByZero (h : DividesByZero x y) :
    x.pow y = signed (x.isNegative && y.isOdd) .infinity := by
  obtain ⟨hx, hy, hzero, hneg⟩ := h
  rw [pow_of_isZero hx hy hzero, if_pos hneg]

theorem powerRules_pow : PowerRules Binary64.pow where
  overflow x y s h hs := by
    obtain ⟨hx, -, hy, -⟩ := h
    rcases pow_of_not_isFinite hx hy (hs ▸ not_isFinite_infinity s) with ⟨hinf, -⟩ | ⟨hnan, -⟩
    · obtain ⟨rfl, -⟩ := by simpa [hs] using hinf
      rw [Bool.and_eq_true, isOdd_iff]
    · simp [hs] at hnan
  noRealPower x y h := pow_of_hasNoRealPower h
  zero_odd x y h hodd := by
    rw [pow_of_dividesByZero h, isOdd_iff.2 hodd, Bool.and_true]
  zero_other x y h hodd := by
    rw [pow_of_dividesByZero h, eq_false_of_ne_true (mt isOdd_iff.1 hodd), Bool.and_false, infinity]

/-- Powers of finite numbers are finite unless one of the three reasons holds. -/
theorem reason_of_not_isFinite (hx : x.isFinite = true) (hy : y.isFinite = true)
    (hpow : (x.pow y).isFinite = false) :
    Overflows Binary64.pow x y ∨ HasNoRealPower x y ∨ DividesByZero x y := by
  rcases pow_of_not_isFinite hx hy hpow with ⟨hinf, hneg⟩ | ⟨-, hzero, hneg, hwhole⟩
  · cases hzero : x.isZero with
    | true => exact .inr (.inr ⟨hzero, hy, hneg hzero⟩)
    | false => exact .inl ⟨hx, hzero, hy, _, hinf⟩
  · refine .inr (.inl ⟨hx, hzero, hneg, hy, fun hint => ?_⟩)
    rw [isWhole_iff.2 hint] at hwhole
    contradiction

theorem raises_mathPow : Raises Binary64.pow mathPow where
  overflow x y h := by
    obtain ⟨hx, hzero, hy, s, hs⟩ := h
    simp [mathPow, hx, hy, hs, hzero, not_isFinite_infinity, isNaN]
  domain x y h := by
    rcases h with h | h
    · have hnan := pow_of_hasNoRealPower h
      obtain ⟨hx, -, -, hy, -⟩ := h
      have hnanfin : nan.isFinite = false := rfl
      simp [mathPow, hx, hy, hnan, hnanfin, isNaN]
    · have hinf := pow_of_dividesByZero h
      obtain ⟨hzero, hy, -⟩ := h
      have hx := isFinite_of_isZero hzero
      simp [mathPow, hx, hy, hinf, hzero, not_isFinite_infinity]
  other x y hoverflow hdomain := by
    refine if_neg fun h => ?_
    simp only [Bool.and_eq_true, Bool.not_eq_true'] at h
    obtain ⟨⟨hx, hy⟩, hpow⟩ := h
    exact (reason_of_not_isFinite hx hy hpow).elim hoverflow hdomain

/-- Division and powers are total.  A guarded division has the quotient as its result, and a zero
divisor gives `nan` for zero and `nan`, and for all other dividends an infinity with the product of
both signs.  With a power function that follows the rules, and fails where the power overflows or
the operands are out of the domain, a guarded power is the power; where it overflows or divides by
zero it is the negative infinity exactly for a base with the negative sign and an odd exponent.  The
remainder by two tells whether an exponent is odd. -/
theorem division_and_power_total {power : Binary64 → Binary64 → Binary64} {raised : PowerFunction}
    (hrules : PowerRules power) (hraised : Raises power raised) :
    (∀ x y, (∃ z, guardedDiv x y = .ok z) ∧ ∀ z, guardedDiv x y = .ok z ↔ IsQuotient x y z) ∧
    (∀ x y, y.isZero = true → guardedDiv x y =
      .ok (if x.isZero || x.isNaN then nan else signed (x.isNegative != y.isNegative) .infinity)) ∧
    (∀ x y, guardedPow raised x y = .ok (power x y)) ∧
    (∀ x y, Overflows power x y ∨ DividesByZero x y →
      ∃ s, guardedPow raised x y = .ok (signed s .infinity) ∧
        (s = true ↔ x.isNegative = true ∧ y.IsOddInteger)) ∧
    ∀ y : Binary64, y.leavesOne = y.isOdd ∧ (y.leavesOne = true ↔ y.IsOddInteger) := by
  refine ⟨fun x y => ⟨⟨_, guardedDiv_eq x y⟩, fun z => guardedDiv_eq_ok_iff⟩,
    fun x y => guardedDiv_of_isZero, guardedPow_eq hrules hraised, fun x y h => ?_, fun y => ?_⟩
  · rw [guardedPow_eq hrules hraised]
    obtain ⟨s, hs, hsign⟩ := hrules.exists_sign h
    exact ⟨s, by rw [hs], hsign⟩
  · exact ⟨Bool.eq_iff_iff.2 (leavesOne_iff.trans isOdd_iff.symm), leavesOne_iff⟩

/-- Minus zero raised to the power minus one is the negative infinity, and so is one divided by
minus zero. -/
theorem division_and_power_total_negative_zero :
    guardedPow mathPow (signed true .zero) (signed true .one) = .ok (signed true .infinity) ∧
    guardedDiv one (signed true .zero) = .ok (signed true .infinity) ∧
    (signed true .one).IsOddInteger := by
  obtain ⟨-, hdiv, hpow, -, hodd⟩ := division_and_power_total powerRules_pow raises_mathPow
  refine ⟨?_, ?_, (hodd _).2.1 ?_⟩
  · rw [hpow]
    decide
  · rw [hdiv _ _ rfl]
    rfl
  · decide

end Binary64

end InfixCalculator
