import InfixCalculator.Decimal.Shortest
import InfixCalculator.Proofs.Binary64.Rounding

/-!
# Decimals that are read back

A decimal is rounded from its rational value, also where the power of ten is not computed.  The
shortest decimal of a finite magnitude is rounded to the magnitude again.
-/

namespace InfixCalculator

open Magnitude

namespace Decimal

def toRat (d : Decimal) : ℚ := d.coefficient * 10 ^ d.exponent

theorem powerOfTen_cast (exponent : ℕ) : (powerOfTen exponent : ℚ) = 10 ^ exponent := by
  have hpow : powerOfTen exponent = 10 ^ exponent := rfl
  rw [hpow]
  push_cast
  rfl

theorem powerOfTen_pos (exponent : ℕ) : 0 < powerOfTen exponent := Nat.pow_pos (by decide)

theorem scaled_div (n : ℕ) (e : ℤ) :
    ((n * powerOfTen e.toNat : ℕ) : ℚ) / powerOfTen (-e).toNat = n * 10 ^ e := by
  rw [Nat.cast_mul, powerOfTen_cast, powerOfTen_cast]
  rcases Int.le_total 0 e with he | he
  · lift e to ℕ using he
    simp
  · obtain ⟨k, rfl⟩ : ∃ k : ℕ, e = -k := ⟨(-e).toNat, by omega⟩
    simp [div_eq_mul_inv]

/-- A number of `bits + 1` bits has more than `3 * bits / 10` decimal digits. -/
theorem pow_ten_le (bits : ℕ) : 10 ^ (3 * bits / 10) ≤ 2 ^ bits := by
  have hpow : (10 ^ (3 * bits / 10)) ^ 10 ≤ (2 ^ bits) ^ 10 := by
    calc (10 ^ (3 * bits / 10)) ^ 10 = 10 ^ (3 * bits / 10 * 10) := (pow_mul _ _ _).symm
      _ ≤ 10 ^ (3 * bits) := Nat.pow_le_pow_right (by decide) (Nat.div_mul_le_self _ _)
      _ = (10 ^ 3) ^ bits := pow_mul _ _ _
      _ ≤ (2 ^ 10) ^ bits := Nat.pow_le_pow_left (by decide) _
      _ = (2 ^ bits) ^ 10 := by rw [← pow_mul, ← pow_mul, Nat.mul_comm]
  exact (Nat.pow_le_pow_iff_left (by decide)).1 hpow

/-- A number of `bits + 1` bits has at most `bits / 3 + 1` decimal digits. -/
theorem pow_two_le (bits : ℕ) : 2 ^ (bits + 1) ≤ 10 ^ (bits / 3 + 1) := by
  calc 2 ^ (bits + 1) ≤ 2 ^ (3 * (bits / 3 + 1)) := Nat.pow_le_pow_right (by decide) (by omega)
    _ = (2 ^ 3) ^ (bits / 3 + 1) := pow_mul _ _ _
    _ ≤ 10 ^ (bits / 3 + 1) := Nat.pow_le_pow_left (by decide) _

theorem overflow_le_pow : (2 : ℚ) ^ (1024 : ℤ) ≤ 10 ^ (311 : ℤ) := by
  have hpow : 2 ^ 1024 ≤ 10 ^ 311 := by decide +kernel
  exact_mod_cast hpow

theorem pow_le_underflow : (10 : ℚ) ^ (-331 : ℤ) ≤ 2 ^ (-1075 : ℤ) := by
  have hpow : 2 ^ 1075 ≤ 10 ^ 331 := by decide +kernel
  rw [zpow_neg, zpow_neg]
  refine inv_anti₀ (by positivity) ?_
  exact_mod_cast hpow

theorem overflow_le_toRat {d : Decimal} (hd : d.coefficient ≠ 0)
    (h : 310 < (3 * d.coefficient.log2 / 10 : ℕ) + d.exponent) : 2 ^ (1024 : ℤ) ≤ d.toRat := by
  have hcoefficient : 10 ^ (3 * d.coefficient.log2 / 10) ≤ d.coefficient :=
    (pow_ten_le _).trans (Nat.log2_self_le hd)
  calc (2 : ℚ) ^ (1024 : ℤ) ≤ 10 ^ (311 : ℤ) := overflow_le_pow
    _ ≤ 10 ^ ((3 * d.coefficient.log2 / 10 : ℕ) + d.exponent) :=
      zpow_le_zpow_right₀ (by norm_num) (by omega)
    _ = 10 ^ (3 * d.coefficient.log2 / 10) * 10 ^ d.exponent := by
      rw [zpow_add₀ (by norm_num), zpow_natCast]
    _ ≤ d.coefficient * 10 ^ d.exponent := by
      gcongr
      exact_mod_cast hcoefficient

theorem toRat_lt_underflow {d : Decimal}
    (h : (d.coefficient.log2 / 3 + 1 : ℕ) + d.exponent < -330) : d.toRat < 2 ^ (-1075 : ℤ) := by
  have hcoefficient : d.coefficient < 10 ^ (d.coefficient.log2 / 3 + 1) :=
    Nat.lt_log2_self.trans_le (pow_two_le _)
  calc d.toRat = d.coefficient * 10 ^ d.exponent := rfl
    _ < 10 ^ (d.coefficient.log2 / 3 + 1) * 10 ^ d.exponent := by
      gcongr
      exact_mod_cast hcoefficient
    _ = 10 ^ ((d.coefficient.log2 / 3 + 1 : ℕ) + d.exponent) := by
      rw [zpow_add₀ (by norm_num), zpow_natCast]
    _ ≤ 10 ^ (-331 : ℤ) := zpow_le_zpow_right₀ (by norm_num) (by omega)
    _ ≤ 2 ^ (-1075 : ℤ) := pow_le_underflow

theorem toMagnitude_eq (d : Decimal) : d.toMagnitude = nearestTo d.toRat := by
  unfold toMagnitude
  split
  · next hzero => rw [nearestTo, toRat, hzero, if_pos (by simp)]
  · next hzero =>
    dsimp only
    split
    · next hlarge => exact (nearestTo_of_overflow (overflow_le_toRat hzero hlarge)).symm
    · split
      · next hsmall => exact (nearestTo_of_underflow (toRat_lt_underflow hsmall)).symm
      · rw [nearest_eq _ (powerOfTen_pos _), scaled_div, toRat]

theorem toMagnitude_mono {d d' : Decimal} (h : d.toRat ≤ d'.toRat) :
    d.toMagnitude.rank ≤ d'.toMagnitude.rank := by
  rw [toMagnitude_eq, toMagnitude_eq]
  exact nearestTo_mono h

theorem toMagnitude_congr {d d' : Decimal} (h : d.toRat = d'.toRat) :
    d.toMagnitude = d'.toMagnitude := by
  rw [toMagnitude_eq, toMagnitude_eq, h]

theorem toRat_stripZeros (coefficient : ℕ) (exponent : ℤ) :
    (stripZeros coefficient exponent).toRat = coefficient * 10 ^ exponent := by
  fun_induction stripZeros coefficient exponent with
  | case1 coefficient exponent h ih =>
    have hdiv : (coefficient : ℚ) = (coefficient / 10 : ℕ) * 10 := by
      exact_mod_cast (Nat.div_mul_cancel (Nat.dvd_of_mod_eq_zero h.2)).symm
    rw [ih, zpow_add_one₀ (by norm_num), hdiv]
    ring
  | case2 => rfl

theorem toRat_normalize (d : Decimal) : d.normalize.toRat = d.toRat :=
  toRat_stripZeros d.coefficient d.exponent

end Decimal

namespace Magnitude

theorem toRat_exactDecimal (m : Magnitude) : m.exactDecimal.toRat = m.toRat := by
  unfold exactDecimal
  split
  · next h =>
    rw [Decimal.toRat, toRat, numerator, shiftLeft_cast, zpow_zero, mul_one, ← zpow_natCast,
      Int.toNat_of_nonneg h]
  · next h =>
    obtain ⟨k, hk⟩ : ∃ k : ℕ, m.exponent = -k := ⟨(-m.exponent).toNat, by omega⟩
    have hten : (10 : ℚ) = 2 * 5 := by norm_num
    rw [Decimal.toRat, toRat, hk]
    simp only [neg_neg, Int.toNat_natCast, Nat.pow_eq]
    push_cast
    rw [zpow_neg, zpow_neg, zpow_natCast, zpow_natCast, hten, mul_pow]
    field_simp

theorem toMagnitude_of_choice {m : Magnitude} {below above d : Decimal}
    {readsBelow readsAbove : Bool} {nearer : Prop} [Decidable nearer]
    (h : (match readsBelow, readsAbove with
      | true, true => if nearer then some below else some above
      | true, false => some below
      | false, true => some above
      | false, false => none) = some d)
    (hbelow : readsBelow = true → below.toMagnitude = m)
    (habove : readsAbove = true → above.toMagnitude = m) : d.toMagnitude = m := by
  match readsBelow, readsAbove with
  | true, true =>
    dsimp only at h
    split at h
    · exact Option.some.inj h ▸ hbelow rfl
    · exact Option.some.inj h ▸ habove rfl
  | true, false => exact Option.some.inj h ▸ hbelow rfl
  | false, true => exact Option.some.inj h ▸ habove rfl
  | false, false => simp at h

theorem toMagnitude_of_decimalOn? {m : Magnitude} {exponent : ℤ} {d : Decimal}
    (h : m.decimalOn? exponent = some d) : d.toMagnitude = m := by
  unfold decimalOn? at h
  exact toMagnitude_of_choice h (fun hb => eq_of_beq hb) fun ha => eq_of_beq ha

theorem toMagnitude_exactDecimal (m : Magnitude) : m.exactDecimal.toMagnitude = m := by
  rw [Decimal.toMagnitude_eq, toRat_exactDecimal, nearestTo_toRat]

theorem toMagnitude_firstDecimal (m : Magnitude) (exponent : ℤ) (grids : ℕ) :
    (m.firstDecimal exponent grids).toMagnitude = m := by
  induction grids generalizing exponent with
  | zero => exact toMagnitude_exactDecimal m
  | succ grids ih =>
    unfold firstDecimal
    split
    · next d hd => exact toMagnitude_of_decimalOn? hd
    · exact ih (exponent - 1)

/-- The shortest decimal of a magnitude is rounded to the magnitude. -/
theorem toMagnitude_shortest (m : Magnitude) : m.shortest.toMagnitude = m := by
  unfold shortest
  split
  · next h =>
    have hrank : m.rank = 0 := eq_of_beq h
    rw [← ofRank_rank m, hrank]
    rfl
  · rw [Decimal.toMagnitude_congr (Decimal.toRat_normalize _), toMagnitude_firstDecimal]

end Magnitude

end InfixCalculator
