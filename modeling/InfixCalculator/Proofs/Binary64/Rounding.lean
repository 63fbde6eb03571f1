import InfixCalculator.Binary64.Rounding
import Mathlib.Algebra.Order.Field.Power
import Mathlib.Algebra.Order.Floor.Semifield
import Mathlib.Data.Int.Log
import Mathlib.Data.Rat.Floor
import Mathlib.Tactic.FieldSimp
import Mathlib.Tactic.GCongr
import Mathlib.Tactic.Linarith
import Mathlib.Tactic.NormNum
import Mathlib.Tactic.Positivity
import Mathlib.Tactic.Ring

/-!
# Laws of rounding

Rounding a quotient of natural numbers depends on its rational value only: `Magnitude.nearest` is
`Magnitude.nearestTo` of this value.  Rounding is monotone, and it keeps every value that a finite
magnitude has.
-/

namespace InfixCalculator.Magnitude

variable {x y : ℚ} {num den : ℕ}

/-! ## Rounding to whole numbers -/

/-- The whole number nearest to `x`, the even one of two equally near. -/
def wholeNearest (x : ℚ) : ℕ :=
  match compare (2 * (x - ⌊x⌋₊)) 1 with
  | .lt => ⌊x⌋₊
  | .eq => ⌊x⌋₊ + ⌊x⌋₊ % 2
  | .gt => ⌊x⌋₊ + 1

theorem nearestWhole_eq (num : ℕ) (hden : 0 < den) :
    nearestWhole num den = wholeNearest (num / den) := by
  have hden' : (0 : ℚ) < den := by exact_mod_cast hden
  have hnum : (num : ℚ) = den * (num / den : ℕ) + (num % den : ℕ) := by
    exact_mod_cast (Nat.div_add_mod num den).symm
  have hfract : 2 * ((num : ℚ) / den - ⌊(num : ℚ) / den⌋₊) = (2 * (num % den) : ℕ) / den := by
    rw [Nat.floor_div_eq_div, eq_div_iff hden'.ne']
    push_cast
    rw [mul_assoc, sub_mul, div_mul_cancel₀ _ hden'.ne']
    linarith
  have hcompare : compare (2 * (num % den)) den =
      compare (2 * ((num : ℚ) / den - ⌊(num : ℚ) / den⌋₊)) 1 := by
    rw [hfract]
    rcases lt_trichotomy (2 * (num % den)) den with h | h | h
    · rw [compare_lt_iff_lt.2 h, eq_comm, compare_lt_iff_lt, div_lt_one hden']
      exact_mod_cast h
    · rw [compare_eq_iff_eq.2 h, eq_comm, compare_eq_iff_eq, div_eq_one_iff_eq hden'.ne']
      exact_mod_cast h
    · rw [compare_gt_iff_gt.2 h, eq_comm, compare_gt_iff_gt, one_lt_div hden']
      exact_mod_cast h
  rw [wholeNearest, ← hcompare, Nat.floor_div_eq_div]
  rfl

theorem floor_le_wholeNearest (x : ℚ) : ⌊x⌋₊ ≤ wholeNearest x := by
  unfold wholeNearest
  split <;> omega

theorem wholeNearest_le_floor (x : ℚ) : wholeNearest x ≤ ⌊x⌋₊ + 1 := by
  unfold wholeNearest
  split <;> omega

theorem wholeNearest_mono (h : x ≤ y) : wholeNearest x ≤ wholeNearest y := by
  rcases (Nat.floor_mono h).lt_or_eq with hlt | heq
  · have := wholeNearest_le_floor x
    have := floor_le_wholeNearest y
    omega
  · unfold wholeNearest
    rw [heq]
    have hle : 2 * (x - ⌊y⌋₊) ≤ 2 * (y - ⌊y⌋₊) := by linarith
    cases hx : compare (2 * (x - ⌊y⌋₊)) 1 with
    | lt => dsimp only; split <;> omega
    | eq =>
      rw [compare_eq_iff_eq] at hx
      cases hy : compare (2 * (y - ⌊y⌋₊)) 1 with
      | lt =>
        rw [compare_lt_iff_lt] at hy
        linarith
      | eq => exact le_rfl
      | gt => dsimp only; omega
    | gt =>
      rw [compare_gt_iff_gt] at hx
      rw [compare_gt_iff_gt.2 (lt_of_lt_of_le hx hle)]

theorem wholeNearest_natCast (n : ℕ) : wholeNearest n = n := by
  have hfract : compare (2 * ((n : ℚ) - ⌊(n : ℚ)⌋₊)) 1 = .lt := by
    rw [compare_lt_iff_lt, Nat.floor_natCast]
    norm_num
  rw [wholeNearest, hfract, Nat.floor_natCast]

theorem wholeNearest_le {n : ℕ} (h : x ≤ n) : wholeNearest x ≤ n :=
  (wholeNearest_mono h).trans_eq (wholeNearest_natCast n)

theorem le_wholeNearest {n : ℕ} (h : (n : ℚ) ≤ x) : n ≤ wholeNearest x :=
  (wholeNearest_natCast n).symm.trans_le (wholeNearest_mono h)

theorem wholeNearest_of_lt_half (h : x < 1 / 2) : wholeNearest x = 0 := by
  have hfloor : ⌊x⌋₊ = 0 := Nat.floor_eq_zero.2 (by linarith)
  rw [wholeNearest, hfloor, compare_lt_iff_lt.2 (by norm_num; linarith)]

/-! ## The grid of a quotient -/

theorem shiftLeft_cast (n k : ℕ) : ((n <<< k : ℕ) : ℚ) = n * 2 ^ k := by
  rw [Nat.shiftLeft_eq]
  push_cast
  rfl

theorem shifted_div (num den : ℕ) (e : ℤ) :
    ((num <<< (-e).toNat : ℕ) : ℚ) / (den <<< e.toNat : ℕ) = num / den / 2 ^ e := by
  rw [shiftLeft_cast, shiftLeft_cast]
  rcases Int.le_total 0 e with he | he
  · lift e to ℕ using he
    simp [div_div]
  · obtain ⟨k, rfl⟩ : ∃ k : ℕ, e = -k := ⟨(-e).toNat, by omega⟩
    simp [div_mul_eq_mul_div]

theorem floorLog2_spec (hnum : 0 < num) (hden : 0 < den) :
    (2 : ℚ) ^ floorLog2 num den ≤ num / den ∧ (num : ℚ) / den < 2 ^ (floorLog2 num den + 1) := by
  have hden' : (0 : ℚ) < den := by exact_mod_cast hden
  have hbelow (k : ℤ) : num <<< (-k).toNat < den <<< k.toNat ↔ (num : ℚ) / den < 2 ^ k := by
    have hpos : (0 : ℚ) < (den <<< k.toNat : ℕ) := by
      rw [shiftLeft_cast]
      positivity
    rw [← Nat.cast_lt (α := ℚ), ← div_lt_one hpos, shifted_div, div_lt_one (by positivity)]
  have hnumlow : (2 : ℚ) ^ num.log2 ≤ num := by exact_mod_cast Nat.log2_self_le hnum.ne'
  have hnumhigh : (num : ℚ) < 2 ^ (num.log2 + 1) := by exact_mod_cast Nat.lt_log2_self
  have hdenlow : (2 : ℚ) ^ den.log2 ≤ den := by exact_mod_cast Nat.log2_self_le hden.ne'
  have hdenhigh : (den : ℚ) < 2 ^ (den.log2 + 1) := by exact_mod_cast Nat.lt_log2_self
  have hlow : (2 : ℚ) ^ ((num.log2 : ℤ) - den.log2 - 1) ≤ num / den := by
    rw [le_div_iff₀ hden']
    calc (2 : ℚ) ^ ((num.log2 : ℤ) - den.log2 - 1) * den
        ≤ 2 ^ ((num.log2 : ℤ) - den.log2 - 1) * 2 ^ (den.log2 + 1) := by gcongr
      _ = 2 ^ num.log2 := by
        rw [← zpow_natCast, ← zpow_natCast, ← zpow_add₀ two_ne_zero]
        congr 1
        push_cast
        ring
      _ ≤ num := hnumlow
  have hhigh : (num : ℚ) / den < 2 ^ ((num.log2 : ℤ) - den.log2 + 1) := by
    rw [div_lt_iff₀ hden']
    calc (num : ℚ) < 2 ^ (num.log2 + 1) := hnumhigh
      _ = 2 ^ ((num.log2 : ℤ) - den.log2 + 1) * 2 ^ den.log2 := by
        rw [← zpow_natCast, ← zpow_natCast, ← zpow_add₀ two_ne_zero]
        congr 1
        push_cast
        ring
      _ ≤ 2 ^ ((num.log2 : ℤ) - den.log2 + 1) * den := by gcongr
  unfold floorLog2
  dsimp only
  split
  · next h => exact ⟨hlow, by simpa using (hbelow _).1 h⟩
  · next h => exact ⟨not_lt.1 (mt (hbelow _).2 h), hhigh⟩

theorem log_eq {k : ℤ} (hlow : (2 : ℚ) ^ k ≤ x) (hhigh : x < 2 ^ (k + 1)) : Int.log 2 x = k := by
  have hx : 0 < x := lt_of_lt_of_le (by positivity) hlow
  have hle := (Int.zpow_le_iff_le_log (R := ℚ) (b := 2) one_lt_two hx).1 hlow
  have hlt := (Int.lt_zpow_iff_log_lt (R := ℚ) (b := 2) one_lt_two hx).1 hhigh
  omega

theorem floorLog2_eq (hnum : 0 < num) (hden : 0 < den) :
    floorLog2 num den = Int.log 2 ((num : ℚ) / den) := by
  obtain ⟨hlow, hhigh⟩ := floorLog2_spec hnum hden
  exact (log_eq hlow hhigh).symm

/-- The exponent of the grid on which `x` is rounded. -/
def gridOf (x : ℚ) : ℤ := max (Int.log 2 x - 52) leastExponent

/-- The rank to which a positive `x` is rounded, where ranks go on beyond infinity. -/
def rankNear (x : ℚ) : ℕ :=
  wholeNearest (x / 2 ^ gridOf x) + blockSize * (gridOf x - leastExponent).toNat

def nearestTo (x : ℚ) : Magnitude := if x ≤ 0 then zero else ofRank (rankNear x)

theorem nearest_eq (num : ℕ) (hden : 0 < den) : nearest num den = nearestTo (num / den) := by
  unfold nearest nearestTo
  by_cases hnum : num = 0
  · simp [hnum]
  · have hnum' : 0 < num := Nat.pos_of_ne_zero hnum
    have hx : (0 : ℚ) < num / den := by positivity
    have hshift : 0 < den <<< (gridOf (num / den)).toNat := by
      rw [Nat.shiftLeft_eq]
      positivity
    have hgrid : gridExponent num den = gridOf (num / den) := by
      rw [gridExponent, gridOf, floorLog2_eq hnum' hden]
    rw [if_neg hnum, if_neg hx.not_ge]
    dsimp only
    rw [hgrid, nearestWhole_eq _ hshift, shifted_div, rankNear]

/-! ## Monotonicity -/

theorem blockSize_pos : 0 < blockSize := by decide

theorem blockSize_cast : (blockSize : ℚ) = 2 ^ (52 : ℤ) := by
  have hsize : blockSize = 2 ^ 52 := by decide
  rw [hsize]
  norm_num

theorem scaled_le (x : ℚ) : x / 2 ^ gridOf x ≤ (2 * blockSize : ℕ) := by
  have hlog := Int.lt_zpow_succ_log_self (R := ℚ) (b := 2) one_lt_two x
  rw [div_le_iff₀ (by positivity)]
  calc x ≤ 2 ^ (Int.log 2 x + 1) := by exact_mod_cast hlog.le
    _ ≤ 2 ^ (1 + 52 + gridOf x) := by
      refine zpow_le_zpow_right₀ one_le_two ?_
      have : Int.log 2 x - 52 ≤ gridOf x := le_max_left _ _
      omega
    _ = (2 * blockSize : ℕ) * 2 ^ gridOf x := by
      rw [zpow_add₀ two_ne_zero, zpow_add₀ two_ne_zero, Nat.cast_mul, blockSize_cast]
      norm_num

theorem le_scaled (hx : 0 < x) (h : leastExponent < gridOf x) :
    (blockSize : ℕ) ≤ x / 2 ^ gridOf x := by
  have hlog := Int.zpow_log_le_self (R := ℚ) (b := 2) one_lt_two hx
  have hgrid : gridOf x + 52 = Int.log 2 x := by
    unfold gridOf at h ⊢
    omega
  rw [le_div_iff₀ (by positivity), blockSize_cast, ← zpow_add₀ two_ne_zero, add_comm, hgrid]
  exact_mod_cast hlog

theorem gridOf_mono (hx : 0 < x) (h : x ≤ y) : gridOf x ≤ gridOf y :=
  max_le_max_right _ (Int.sub_le_sub_right (Int.log_mono_right hx h) 52)

theorem leastExponent_le_gridOf (x : ℚ) : leastExponent ≤ gridOf x := le_max_right _ _

theorem rankNear_mono (hx : 0 < x) (h : x ≤ y) : rankNear x ≤ rankNear y := by
  have hleast := leastExponent_le_gridOf x
  rcases (gridOf_mono hx h).lt_or_eq with hlt | heq
  · -- A coarser grid: the smaller number stays below the block in which the larger one lies.
    have hxs : wholeNearest (x / 2 ^ gridOf x) ≤ 2 * blockSize := wholeNearest_le (scaled_le x)
    have hys : blockSize ≤ wholeNearest (y / 2 ^ gridOf y) :=
      le_wholeNearest (le_scaled (hx.trans_le h) (by omega))
    have hblocks : blockSize * ((gridOf x - leastExponent).toNat + 1) ≤
        blockSize * (gridOf y - leastExponent).toNat :=
      Nat.mul_le_mul_left _ (by omega)
    unfold rankNear
    rw [Nat.mul_add] at hblocks
    omega
  · unfold rankNear
    rw [heq]
    have hscaled : x / 2 ^ gridOf y ≤ y / 2 ^ gridOf y := by gcongr
    have := wholeNearest_mono hscaled
    omega

theorem nearestTo_mono (h : x ≤ y) : (nearestTo x).rank ≤ (nearestTo y).rank := by
  unfold nearestTo
  split
  · exact Nat.zero_le _
  · next hx =>
    rw [not_le] at hx
    rw [if_neg (hx.trans_le h).not_ge, rank_ofRank, rank_ofRank]
    exact min_le_min_right _ (rankNear_mono hx h)

/-! ## Exact values -/

def toRat (m : Magnitude) : ℚ := m.significand * 2 ^ m.exponent

theorem toRat_nonneg (m : Magnitude) : 0 ≤ m.toRat :=
  mul_nonneg (Nat.cast_nonneg _) (by positivity)

theorem toRat_zero : zero.toRat = 0 := by
  have hsignificand : zero.significand = 0 := by decide
  rw [toRat, hsignificand, Nat.cast_zero, zero_mul]

/-- The block of a rank, counted from the finest grid on, fixes exponent and significand. -/
theorem exists_block (m : Magnitude) : ∃ k : ℕ, m.exponent = k + leastExponent ∧
    m.rank = m.significand + blockSize * k ∧ m.significand < 2 * blockSize ∧
    (0 < k → blockSize ≤ m.significand) := by
  have hle := Nat.mul_div_le m.rank blockSize
  have hlt := Nat.lt_mul_div_succ m.rank blockSize_pos
  refine ⟨max (m.rank / blockSize) 1 - 1, ?_, ?_⟩
  · unfold exponent exponentOf
    omega
  · unfold significand significandOf
    generalize m.rank / blockSize = q at *
    cases q with
    | zero =>
      simp only [Nat.zero_add, Nat.mul_one] at hlt
      simp only [Nat.zero_max, Nat.sub_self, Nat.mul_zero, Nat.sub_zero]
      omega
    | succ q =>
      have hmax : max (q + 1) 1 - 1 = q := by omega
      rw [hmax]
      simp only [Nat.mul_add, Nat.mul_one] at hle hlt
      omega

theorem significand_pos {m : Magnitude} (h : m.rank ≠ 0) : 0 < m.significand := by
  obtain ⟨k, -, hrank, -, hblock⟩ := m.exists_block
  rcases Nat.eq_zero_or_pos k with rfl | hk
  · omega
  · exact blockSize_pos.trans_le (hblock hk)

theorem gridOf_toRat {m : Magnitude} (h : m.rank ≠ 0) : gridOf m.toRat = m.exponent := by
  obtain ⟨k, hk, -, hlt, hblock⟩ := m.exists_block
  have hpos : (0 : ℚ) < m.significand := by exact_mod_cast significand_pos h
  have hx : 0 < m.toRat := mul_pos hpos (by positivity)
  have hhigh : Int.log 2 m.toRat < m.exponent + 53 := by
    rw [← Int.lt_zpow_iff_log_lt one_lt_two hx]
    have hsize : (m.significand : ℚ) < 2 ^ (53 : ℤ) := by
      calc (m.significand : ℚ) < (2 * blockSize : ℕ) := by exact_mod_cast hlt
        _ = 2 ^ (53 : ℤ) := by
          rw [Nat.cast_mul, blockSize_cast]
          norm_num
    push_cast
    rw [toRat, add_comm, zpow_add₀ two_ne_zero]
    gcongr
  unfold gridOf
  rcases Nat.eq_zero_or_pos k with rfl | hk'
  · omega
  · have hlow : m.exponent + 52 ≤ Int.log 2 m.toRat := by
      rw [← Int.zpow_le_iff_le_log one_lt_two hx]
      have hsize : (2 : ℚ) ^ (52 : ℤ) ≤ m.significand := by
        rw [← blockSize_cast]
        exact_mod_cast hblock hk'
      push_cast
      rw [toRat, add_comm, zpow_add₀ two_ne_zero]
      gcongr
    omega

theorem rankNear_toRat {m : Magnitude} (h : m.rank ≠ 0) : rankNear m.toRat = m.rank := by
  obtain ⟨k, hk, hrank, -⟩ := m.exists_block
  have hscaled : m.toRat / 2 ^ m.exponent = m.significand := by
    rw [toRat, mul_div_cancel_right₀ _ (by positivity)]
  have hsteps : (m.exponent - leastExponent).toNat = k := by omega
  rw [rankNear, gridOf_toRat h, hscaled, wholeNearest_natCast, hsteps, hrank]

theorem nearestTo_toRat (m : Magnitude) : nearestTo m.toRat = m := by
  by_cases h : m.rank = 0
  · have hm : m = zero := by rw [← ofRank_rank m, h, zero]
    have hzero : zero.significand = 0 := by decide
    rw [hm, nearestTo, toRat, hzero, if_pos (by simp)]
  · have hx : 0 < m.toRat := mul_pos (by exact_mod_cast significand_pos h) (by positivity)
    rw [nearestTo, if_neg hx.not_ge, rankNear_toRat h, ofRank_rank]

/-! ## Both ends of the range -/

theorem toRat_infinity : infinity.toRat = 2 ^ (1024 : ℤ) := by
  have hsignificand : infinity.significand = blockSize := by decide
  have hexponent : infinity.exponent = 972 := by decide
  rw [toRat, hsignificand, hexponent, blockSize_cast, ← zpow_add₀ two_ne_zero]
  norm_num

theorem nearestTo_of_overflow (h : 2 ^ (1024 : ℤ) ≤ x) : nearestTo x = infinity := by
  have hle := nearestTo_mono h
  rw [← toRat_infinity, nearestTo_toRat] at hle
  have htop := (nearestTo x).rank_le
  have hinfinity : infinity.rank = topRank := by decide
  rw [← ofRank_rank (nearestTo x), ← ofRank_rank infinity]
  congr 1
  omega

theorem nearestTo_of_underflow (h : x < 2 ^ (-1075 : ℤ)) : nearestTo x = zero := by
  unfold nearestTo
  split
  · rfl
  · next hx =>
    rw [not_le] at hx
    have hlog : Int.log 2 x < -1075 := by
      rw [← Int.lt_zpow_iff_log_lt one_lt_two hx]
      exact_mod_cast h
    have hgrid : gridOf x = leastExponent := by
      unfold gridOf leastExponent
      omega
    have hhalf : x / 2 ^ leastExponent < 1 / 2 := by
      rw [div_lt_iff₀ (by positivity)]
      calc x < 2 ^ (-1075 : ℤ) := h
        _ = 1 / 2 * 2 ^ leastExponent := by
          have hexponent : (-1075 : ℤ) = -1 + leastExponent := rfl
          rw [hexponent, zpow_add₀ two_ne_zero]
          norm_num
    rw [rankNear, hgrid, wholeNearest_of_lt_half hhalf, Int.sub_self, Int.toNat_zero, Nat.mul_zero,
      zero]

/-! ## Steps of a grid -/

theorem nearestScaled_eq (significand : ℕ) (exponent : ℤ) :
    nearestScaled significand exponent = nearestTo (significand * 2 ^ exponent) := by
  unfold nearestScaled
  split
  · next hzero => rw [hzero, nearestTo, if_pos (by simp)]
  · next hzero =>
    have hlow : (2 : ℚ) ^ ((significand.log2 : ℤ) + exponent) ≤ significand * 2 ^ exponent := by
      rw [zpow_add₀ two_ne_zero, zpow_natCast]
      gcongr
      exact_mod_cast Nat.log2_self_le hzero
    have hhigh :
        significand * 2 ^ exponent < (2 : ℚ) ^ ((significand.log2 : ℤ) + exponent + 1) := by
      have hlog :
          (significand.log2 : ℤ) + exponent + 1 = (significand.log2 + 1 : ℕ) + exponent := by
        push_cast
        ring
      rw [hlog, zpow_add₀ two_ne_zero, zpow_natCast]
      gcongr
      exact_mod_cast Nat.lt_log2_self
    dsimp only
    split
    · next hlarge =>
      have hpow : (2 : ℚ) ^ (1024 : ℤ) ≤ 2 ^ ((significand.log2 : ℤ) + exponent) :=
        zpow_le_zpow_right₀ one_le_two (by omega)
      exact (nearestTo_of_overflow (hpow.trans hlow)).symm
    · split
      · next hsmall =>
        have hpow : (2 : ℚ) ^ ((significand.log2 : ℤ) + exponent + 1) ≤ 2 ^ (-1075 : ℤ) :=
          zpow_le_zpow_right₀ one_le_two (by omega)
        exact (nearestTo_of_underflow (hhigh.trans_le hpow)).symm
      · have hscaled := shifted_div significand 1 (-exponent)
        have hpos : 0 < 1 <<< (-exponent).toNat := by
          rw [Nat.shiftLeft_eq]
          positivity
        rw [neg_neg] at hscaled
        rw [nearest_eq _ hpos, hscaled, Nat.cast_one, div_one, zpow_neg, div_inv_eq_mul]

end InfixCalculator.Magnitude
