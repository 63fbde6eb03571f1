import InfixCalculator.Proofs.Binary64.Guarded
import InfixCalculator.Proofs.Binary64.Rounding

/-!
# Odd numbers

Whether a number is whole, and whether it is odd, is read off its significand.  Testing whether the
remainder of the division by two equals one comes to the same for all numbers: the remainder is
exact, and a negative one is raised by the divisor before it is compared.
-/

namespace InfixCalculator

namespace Magnitude

variable {m : Magnitude} {n k : ℕ}

theorem toRat_eq_natCast_iff (h : m.exponent = -k) : m.toRat = n ↔ m.significand = n * 2 ^ k := by
  rw [toRat, h, zpow_neg, zpow_natCast, ← div_eq_mul_inv, div_eq_iff (by positivity)]
  exact_mod_cast Iff.rfl

theorem toRat_of_exponent (h : m.exponent = k) : m.toRat = (m.significand * 2 ^ k : ℕ) := by
  rw [toRat, h, zpow_natCast]
  push_cast
  rfl

theorem isWhole_iff : m.isWhole = true ↔ ∃ n : ℕ, m.toRat = n := by
  rcases Int.lt_or_le m.exponent 0 with hexp | hexp
  · obtain ⟨k, hk⟩ : ∃ k : ℕ, m.exponent = -k := ⟨(-m.exponent).toNat, by omega⟩
    have hneg : ¬(0 : ℤ) ≤ -k := by omega
    simp only [isWhole, toRat_eq_natCast_iff hk, hk, hneg, decide_false, Bool.false_or,
      beq_iff_eq, neg_neg, Int.toNat_natCast, Nat.one_shiftLeft]
    rw [← Nat.dvd_iff_mod_eq_zero, dvd_iff_exists_eq_mul_left]
  · obtain ⟨k, hk⟩ := Int.eq_ofNat_of_zero_le hexp
    simp only [isWhole, hexp, decide_true, Bool.true_or, true_iff]
    exact ⟨_, toRat_of_exponent hk⟩

/-- A number is an odd multiple of a power of two if the next power of two leaves this one over. -/
theorem mod_eq_iff (s k : ℕ) : s % 2 ^ (k + 1) = 2 ^ k ↔ ∃ n, s = (2 * n + 1) * 2 ^ k := by
  have hpow : 2 ^ k < 2 ^ (k + 1) := Nat.pow_lt_pow_right (by decide) (Nat.lt_succ_self k)
  constructor
  · intro h
    refine ⟨s / 2 ^ (k + 1), ?_⟩
    have hdiv := Nat.div_add_mod s (2 ^ (k + 1))
    rw [h] at hdiv
    calc s = 2 ^ (k + 1) * (s / 2 ^ (k + 1)) + 2 ^ k := hdiv.symm
      _ = (2 * (s / 2 ^ (k + 1)) + 1) * 2 ^ k := by ring
  · rintro ⟨n, rfl⟩
    have hsplit : (2 * n + 1) * 2 ^ k = 2 ^ (k + 1) * n + 2 ^ k := by ring
    rw [hsplit, Nat.mul_add_mod, Nat.mod_eq_of_lt hpow]

theorem isOdd_iff : m.isOdd = true ↔ ∃ n : ℕ, m.toRat = (2 * n + 1 : ℕ) := by
  rcases Int.lt_or_le 0 m.exponent with hexp | hexp
  · obtain ⟨k, hk⟩ : ∃ k : ℕ, m.exponent = (k + 1 : ℕ) := ⟨m.exponent.toNat - 1, by omega⟩
    simp only [isOdd, toRat_of_exponent hk, not_le.2 hexp, decide_false, Bool.false_and,
      Bool.false_eq_true, false_iff, not_exists]
    intro n h
    replace h : m.significand * 2 ^ (k + 1) = 2 * n + 1 := by exact_mod_cast h
    rw [pow_succ, ← mul_assoc] at h
    omega
  · obtain ⟨k, hk⟩ : ∃ k : ℕ, m.exponent = -k := ⟨(-m.exponent).toNat, by omega⟩
    have hneg : (-k : ℤ) ≤ 0 := by omega
    simp only [isOdd, toRat_eq_natCast_iff hk, hk, hneg, decide_true, Bool.true_and, beq_iff_eq,
      neg_neg, Int.toNat_natCast, Nat.one_shiftLeft, mod_eq_iff]

/-! ## Remainders -/

/-- What is left of a finite magnitude if another one, which is not zero, is taken away from it as
often as possible. -/
def remainder (a b : Magnitude) : Magnitude :=
  let e := min a.exponent b.exponent
  .nearestScaled ((a.significand <<< (a.exponent - e).toNat) %
    (b.significand <<< (b.exponent - e).toNat)) e

def two : Magnitude := ofRank (1024 * blockSize)

theorem toRat_one : one.toRat = 1 := by
  have hsignificand : one.significand = blockSize := by decide
  have hexponent : one.exponent = -52 := by decide
  rw [toRat, hsignificand, hexponent, blockSize_cast, ← zpow_add₀ two_ne_zero]
  norm_num

theorem toRat_two : two.toRat = 2 := by
  have hsignificand : two.significand = blockSize := by decide
  have hexponent : two.exponent = -51 := by decide
  rw [toRat, hsignificand, hexponent, blockSize_cast, ← zpow_add₀ two_ne_zero]
  norm_num

theorem shiftLeft_significand (h : m.toRat = n) (hk : -(k : ℤ) ≤ m.exponent) :
    m.significand <<< (m.exponent - -(k : ℤ)).toNat = n * 2 ^ k := by
  obtain ⟨j, hj⟩ : ∃ j : ℕ, m.exponent = j - k := ⟨(m.exponent + k).toNat, by omega⟩
  have hsteps : (m.exponent - -(k : ℤ)).toNat = j := by omega
  have hcast : (m.significand : ℚ) * 2 ^ j = n * 2 ^ k := by
    rw [← h, toRat, hj, zpow_sub₀ two_ne_zero, zpow_natCast, zpow_natCast, mul_assoc,
      div_mul_cancel₀ _ (by positivity)]
  rw [hsteps, Nat.shiftLeft_eq]
  exact_mod_cast hcast

theorem remainder_two (h : m.toRat = n) :
    m.remainder two = if n % 2 = 1 then one else zero := by
  have hexponent : two.exponent = -51 := by decide
  obtain ⟨k, hk⟩ : ∃ k : ℕ, min m.exponent two.exponent = -k :=
    ⟨(-min m.exponent two.exponent).toNat, by omega⟩
  have htwo : two.toRat = (2 : ℕ) := toRat_two
  have hexact : ((n % 2 * 2 ^ k : ℕ) : ℚ) * 2 ^ (-k : ℤ) = (n % 2 : ℕ) := by
    rw [zpow_neg, zpow_natCast]
    push_cast
    rw [mul_inv_cancel_right₀ (by positivity)]
  rw [remainder, hk, shiftLeft_significand h (hk ▸ min_le_left _ _),
    shiftLeft_significand htwo (hk ▸ min_le_right _ _), Nat.mul_mod_mul_right, nearestScaled_eq,
    hexact]
  rcases Nat.mod_two_eq_zero_or_one n with hn | hn
  · rw [hn, if_neg (by decide), Nat.cast_zero, ← toRat_zero, nearestTo_toRat]
  · rw [hn, if_pos rfl, Nat.cast_one, ← toRat_one, nearestTo_toRat]

end Magnitude

namespace Binary64

def toRat : Binary64 → ℚ
  | nan => 0
  | signed negative m => if negative then -m.toRat else m.toRat

def two : Binary64 := .signed false .two

/-- The remainder that has the sign of the dividend. -/
def truncatedMod : Binary64 → Binary64 → Binary64
  | signed s a, signed _ b =>
    if a.isInfinite || b.isZero then nan
    else if b.isInfinite then signed s a
    else signed s (a.remainder b)
  | _, _ => nan

/-- The remainder that has the sign of the divisor: a remainder of the other sign is raised by the
divisor. -/
def flooredMod (x y : Binary64) : Binary64 :=
  let r := truncatedMod x y
  if r.isZero then signed y.isNegative .zero
  else if y.isNegative != r.isNegative then r.add y
  else r

def leavesOne (x : Binary64) : Bool := x.isFinite && x.isWhole && (x.flooredMod two).equals one

def IsOddInteger (x : Binary64) : Prop := x.isFinite = true ∧ ∃ k : ℤ, x.toRat = 2 * k + 1

def IsInteger (x : Binary64) : Prop := x.isFinite = true ∧ ∃ k : ℤ, x.toRat = k

section Signs

variable {q : ℚ} {negative : Bool}

theorem exists_intCast_iff (hq : 0 ≤ q) :
    (∃ k : ℤ, (if negative then -q else q) = k) ↔ ∃ n : ℕ, q = n := by
  constructor
  · rintro ⟨k, hk⟩
    refine ⟨k.natAbs, ?_⟩
    rw [Nat.cast_natAbs, Int.cast_abs, ← hk]
    cases negative <;> simp [abs_of_nonneg hq]
  · rintro ⟨n, rfl⟩
    cases negative with
    | false => exact ⟨n, by simp⟩
    | true => exact ⟨-n, by simp⟩

theorem exists_odd_iff (hq : 0 ≤ q) :
    (∃ k : ℤ, (if negative then -q else q) = 2 * k + 1) ↔ ∃ n : ℕ, q = (2 * n + 1 : ℕ) := by
  constructor
  · rintro ⟨k, hk⟩
    cases negative with
    | false =>
      have hpos : (0 : ℚ) ≤ (2 * k + 1 : ℤ) := by simpa [← hk] using hq
      replace hpos : 0 ≤ 2 * k + 1 := by exact_mod_cast hpos
      lift k to ℕ using by omega
      exact ⟨k, by simpa using hk⟩
    | true =>
      have hneg : ((2 * k + 1 : ℤ) : ℚ) ≤ 0 := by simpa [← hk] using hq
      replace hneg : 2 * k + 1 ≤ 0 := by exact_mod_cast hneg
      obtain ⟨n, rfl⟩ : ∃ n : ℕ, k = -n - 1 := ⟨(-k - 1).toNat, by omega⟩
      refine ⟨n, ?_⟩
      rw [if_pos rfl] at hk
      push_cast at hk ⊢
      linarith
  · rintro ⟨n, rfl⟩
    cases negative with
    | false => exact ⟨n, by simp⟩
    | true =>
      refine ⟨-n - 1, ?_⟩
      rw [if_pos rfl]
      push_cast
      ring

end Signs

theorem isWhole_iff {x : Binary64} : x.isWhole = true ↔ x.IsInteger := by
  cases x with
  | nan => simp [isWhole, IsInteger, isFinite]
  | signed negative m =>
    simp only [isWhole, IsInteger, isFinite, toRat, exists_intCast_iff m.toRat_nonneg,
      Bool.and_eq_true, Magnitude.isWhole_iff]

theorem isOdd_iff {x : Binary64} : x.isOdd = true ↔ x.IsOddInteger := by
  cases x with
  | nan => simp [isOdd, IsOddInteger, isFinite]
  | signed negative m =>
    simp only [isOdd, IsOddInteger, isFinite, toRat, exists_odd_iff m.toRat_nonneg,
      Bool.and_eq_true, Magnitude.isOdd_iff]

/-- The floored remainder by two of a whole number is one for the odd ones, also for those that are
negative. -/
theorem flooredMod_two {m : Magnitude} {n : ℕ} (negative : Bool) (hm : m.isInfinite = false)
    (h : m.toRat = n) :
    flooredMod (signed negative m) two = if n % 2 = 1 then one else zero := by
  have hmod : truncatedMod (signed negative m) two =
      signed negative (if n % 2 = 1 then .one else .zero) := by
    have hzero : Magnitude.two.isZero = false := by decide
    have hinf : Magnitude.two.isInfinite = false := by decide
    simp only [truncatedMod, two, hm, hzero, hinf, Magnitude.remainder_two h, Bool.or_self,
      Bool.false_eq_true, if_false]
  rw [flooredMod, hmod]
  split <;> cases negative <;> decide

theorem leavesOne_iff {x : Binary64} : x.leavesOne = true ↔ x.IsOddInteger := by
  cases x with
  | nan => simp [leavesOne, IsOddInteger, isFinite]
  | signed negative m =>
    simp only [leavesOne, IsOddInteger, isFinite, isWhole, toRat, exists_odd_iff m.toRat_nonneg,
      Bool.and_eq_true]
    constructor
    · rintro ⟨⟨hfinite, -, hwhole⟩, hmod⟩
      obtain ⟨n, hn⟩ := Magnitude.isWhole_iff.1 hwhole
      rw [flooredMod_two negative (by simpa using hfinite) hn] at hmod
      split at hmod
      · next hodd =>
        refine ⟨hfinite, n / 2, ?_⟩
        rw [hn]
        congr 1
        omega
      · exact absurd hmod (by decide)
    · rintro ⟨hfinite, n, hn⟩
      refine ⟨⟨hfinite, hfinite, Magnitude.isWhole_iff.2 ⟨_, hn⟩⟩, ?_⟩
      rw [flooredMod_two negative (by simpa using hfinite) hn, if_pos (by omega)]
      decide

end Binary64

end InfixCalculator
