import InfixCalculator.Proofs.Binary64.Rounding

/-!
# Nearest magnitudes

Rounding gives the one magnitude that is nearest to a number, and of two equally near ones that of
even rank.  Infinity counts as the power of two that would follow the finite magnitudes, so numbers
from halfway between them on are rounded to it.
-/

namespace InfixCalculator.Magnitude

variable {x : ℚ} {m m' : Magnitude} {n : ℕ}

/-- No other magnitude is nearer to `x`, and one that is as near leaves the tie to an even rank. -/
def IsNearest (x : ℚ) (m : Magnitude) : Prop :=
  ∀ m', m' ≠ m → |x - m.toRat| < |x - m'.toRat| ∨
    |x - m.toRat| = |x - m'.toRat| ∧ m.rank % 2 = 0

/-! ## Values and ranks -/

theorem toRat_strictMono (h : m.rank < m'.rank) : m.toRat < m'.toRat := by
  by_contra hle
  have hrank := nearestTo_mono (not_lt.1 hle)
  rw [nearestTo_toRat, nearestTo_toRat] at hrank
  omega

theorem eq_of_rank_eq (h : m.rank = m'.rank) : m = m' := by
  rw [← ofRank_rank m, ← ofRank_rank m', h]

/-- There is only one nearest magnitude: halfway between two magnitudes of even rank there is
another one. -/
theorem IsNearest.unique (h : IsNearest x m) (h' : IsNearest x m') : m' = m := by
  by_contra hne
  wlog hlt : m.rank < m'.rank generalizing m m'
  · refine this h' h (Ne.symm hne) ?_
    have hrank : m'.rank ≠ m.rank := fun heq => hne (eq_of_rank_eq heq)
    omega
  have htie : |x - m.toRat| = |x - m'.toRat| ∧ m.rank % 2 = 0 ∧ m'.rank % 2 = 0 := by
    rcases h m' hne with hlt' | ⟨heq, heven⟩ <;>
      rcases h' m (Ne.symm hne) with hlt'' | ⟨heq', heven'⟩
    · exact absurd hlt'' hlt'.not_gt
    · exact absurd heq' hlt'.ne'
    · exact absurd heq hlt''.ne'
    · exact ⟨heq, heven, heven'⟩
  obtain ⟨heq, heven, heven'⟩ := htie
  have hle := m'.rank_le
  have hbetween : (ofRank (m.rank + 1)).rank = m.rank + 1 := by
    rw [rank_ofRank]
    omega
  have hlow : m.toRat < (ofRank (m.rank + 1)).toRat := toRat_strictMono (by omega)
  have hhigh : (ofRank (m.rank + 1)).toRat < m'.toRat := toRat_strictMono (by omega)
  have hne' : ofRank (m.rank + 1) ≠ m := fun heq => by
    rw [heq] at hlow
    exact lt_irrefl _ hlow
  have hfar : |x - m.toRat| ≤ |x - (ofRank (m.rank + 1)).toRat| := by
    rcases h _ hne' with hlt' | ⟨heq', -⟩
    · exact hlt'.le
    · exact heq'.le
  have hnear : |x - (ofRank (m.rank + 1)).toRat| < |x - m.toRat| := by
    rcases abs_eq_abs.1 heq with hsame | hhalf
    · linarith
    · exact lt_of_lt_of_le (abs_lt.2 ⟨by linarith, by linarith⟩) (le_abs_self _)
  exact absurd hfar hnear.not_ge

/-! ## Whole numbers -/

theorem abs_sub_wholeNearest (hx : 0 ≤ x) : |x - wholeNearest x| ≤ 1 / 2 ∧
    (|x - wholeNearest x| = 1 / 2 → wholeNearest x % 2 = 0) := by
  have hlow := Nat.floor_le hx
  have hhigh := Nat.lt_floor_add_one x
  unfold wholeNearest
  cases hcompare : compare (2 * (x - ⌊x⌋₊)) 1 with
  | lt =>
    rw [compare_lt_iff_lt] at hcompare
    have habs : |x - ⌊x⌋₊| < 1 / 2 := abs_lt.2 ⟨by linarith, by linarith⟩
    exact ⟨habs.le, fun h => absurd h habs.ne⟩
  | eq =>
    rw [compare_eq_iff_eq] at hcompare
    dsimp only
    rcases Nat.mod_two_eq_zero_or_one ⌊x⌋₊ with hmod | hmod
    · refine ⟨?_, fun _ => by omega⟩
      rw [hmod, Nat.add_zero]
      exact abs_le.2 ⟨by linarith, by linarith⟩
    · refine ⟨?_, fun _ => by omega⟩
      rw [hmod]
      push_cast
      exact abs_le.2 ⟨by linarith, by linarith⟩
  | gt =>
    rw [compare_gt_iff_gt] at hcompare
    dsimp only
    have habs : |x - (⌊x⌋₊ + 1 : ℕ)| < 1 / 2 := by
      push_cast
      exact abs_lt.2 ⟨by linarith, by linarith⟩
    exact ⟨habs.le, fun h => absurd h habs.ne⟩

theorem wholeNearest_nearest (hx : 0 ≤ x) (hn : n ≠ wholeNearest x) :
    |x - wholeNearest x| < |x - n| ∨
      |x - wholeNearest x| = |x - n| ∧ wholeNearest x % 2 = 0 := by
  obtain ⟨hhalf, heven⟩ := abs_sub_wholeNearest hx
  have hstep : (1 : ℚ) ≤ |(n : ℚ) - wholeNearest x| := by
    have hint : 1 ≤ |(n : ℤ) - wholeNearest x| := Int.one_le_abs (by omega)
    exact_mod_cast hint
  have hfar : (1 : ℚ) / 2 ≤ |x - n| := by
    have htriangle := abs_sub_le (n : ℚ) x (wholeNearest x)
    rw [abs_sub_comm (n : ℚ) x] at htriangle
    linarith
  rcases hhalf.lt_or_eq with hlt | heq
  · exact .inl (hlt.trans_le hfar)
  · rcases hfar.lt_or_eq with hlt' | heq'
    · exact .inl (heq.trans_lt hlt')
    · exact .inr ⟨heq.trans heq', heven heq⟩

/-! ## Magnitudes -/

theorem blockSize_eq : blockSize = 4503599627370496 := by decide

theorem toRat_ofRank {steps k : ℕ} (hsteps : steps ≤ 2 * blockSize)
    (hblock : 0 < k → blockSize ≤ steps) (hrank : steps + blockSize * k ≤ topRank) :
    (ofRank (steps + blockSize * k)).toRat = steps * 2 ^ (k + leastExponent) := by
  obtain ⟨j, hexponent, hj, hlt, hblock'⟩ := (ofRank (steps + blockSize * k)).exists_block
  rw [rank_ofRank, Nat.min_eq_left hrank] at hj
  rw [toRat, hexponent]
  generalize (ofRank (steps + blockSize * k)).significand = s at *
  -- Two blocks of steps are the first magnitude of the next block; all others lie in the block.
  have hcases : j = k ∧ s = steps ∨ j = k + 1 ∧ s = blockSize ∧ steps = 2 * blockSize := by
    rw [blockSize_eq] at *
    omega
  rcases hcases with ⟨rfl, rfl⟩ | ⟨rfl, rfl, rfl⟩
  · rfl
  · push_cast
    rw [add_right_comm, zpow_add_one₀ two_ne_zero]
    ring

theorem gridOf_lt (hx : 0 < x) (h : x < 2 ^ (1024 : ℤ)) : gridOf x < 972 := by
  have hlog : Int.log 2 x < 1024 := by
    rwa [← Int.lt_zpow_iff_log_lt one_lt_two hx, Nat.cast_ofNat]
  unfold gridOf leastExponent
  omega

theorem toRat_injective (h : m.toRat = m'.toRat) : m = m' := by
  rw [← nearestTo_toRat m, h, nearestTo_toRat]

/-- A magnitude is a whole number of steps of the grid on which `x` is rounded, or it is less than
one block of steps, which is not more than `x`. -/
theorem exists_steps_or_lt (hx : 0 < x) (m : Magnitude) :
    (∃ n : ℕ, m.toRat = n * 2 ^ gridOf x) ∨
      m.toRat < blockSize * 2 ^ gridOf x ∧ blockSize * 2 ^ gridOf x ≤ x := by
  obtain ⟨j, hexponent, -, hlt, -⟩ := m.exists_block
  have hleast := leastExponent_le_gridOf x
  rcases Int.lt_or_le m.exponent (gridOf x) with hfine | hcoarse
  · refine .inr ⟨?_, (le_div_iff₀ (by positivity)).1 (le_scaled hx (by omega))⟩
    calc m.toRat = m.significand * 2 ^ m.exponent := rfl
      _ < (2 * blockSize : ℕ) * 2 ^ m.exponent := by
        gcongr
      _ = blockSize * 2 ^ (m.exponent + 1) := by
        rw [zpow_add_one₀ two_ne_zero]
        push_cast
        ring
      _ ≤ blockSize * 2 ^ gridOf x := by
        gcongr
        · exact one_le_two
        · exact hfine
  · obtain ⟨i, hi⟩ : ∃ i : ℕ, m.exponent = i + gridOf x := ⟨(m.exponent - gridOf x).toNat, by omega⟩
    refine .inl ⟨m.significand * 2 ^ i, ?_⟩
    rw [toRat, hi, zpow_add₀ two_ne_zero, zpow_natCast]
    push_cast
    ring

theorem abs_sub_steps {s : ℚ} (hs : 0 < s) (x n : ℚ) : |x - n * s| = |x / s - n| * s := by
  rw [← abs_of_pos hs, ← abs_mul, abs_of_pos hs, sub_mul, div_mul_cancel₀ _ hs.ne']

theorem toRat_nearestTo (hx : 0 < x) (h : x < 2 ^ (1024 : ℤ)) :
    (nearestTo x).toRat = wholeNearest (x / 2 ^ gridOf x) * 2 ^ gridOf x ∧
      (nearestTo x).rank % 2 = wholeNearest (x / 2 ^ gridOf x) % 2 := by
  have hleast := leastExponent_le_gridOf x
  have hgrid := gridOf_lt hx h
  have hexponent : ((gridOf x - leastExponent).toNat : ℤ) + leastExponent = gridOf x := by omega
  have hsteps : wholeNearest (x / 2 ^ gridOf x) ≤ 2 * blockSize := wholeNearest_le (scaled_le x)
  have hrank : wholeNearest (x / 2 ^ gridOf x) + blockSize * (gridOf x - leastExponent).toNat ≤
      topRank := by
    unfold leastExponent at *
    rw [topRank, blockSize_eq] at *
    omega
  have hvalue := toRat_ofRank hsteps
    (fun hk => le_wholeNearest (le_scaled hx (by omega))) hrank
  rw [hexponent] at hvalue
  rw [nearestTo, if_neg hx.not_ge, rankNear]
  refine ⟨hvalue, ?_⟩
  rw [rank_ofRank, Nat.min_eq_left hrank, blockSize_eq]
  omega

theorem isNearest_of_lt (hx : 0 < x) (h : x < 2 ^ (1024 : ℤ)) : IsNearest x (nearestTo x) := by
  obtain ⟨hvalue, hparity⟩ := toRat_nearestTo hx h
  have hs : (0 : ℚ) < 2 ^ gridOf x := by positivity
  have hy : 0 ≤ x / 2 ^ gridOf x := by positivity
  intro m' hne
  rw [hvalue, hparity, abs_sub_steps hs]
  rcases exists_steps_or_lt hx m' with ⟨n, hn⟩ | ⟨hlow, hle⟩
  · have hsteps : n ≠ wholeNearest (x / 2 ^ gridOf x) := by
      rintro rfl
      exact hne (toRat_injective (hn.trans hvalue.symm))
    rw [hn, abs_sub_steps hs]
    rcases wholeNearest_nearest hy hsteps with hlt | ⟨heq, heven⟩
    · exact .inl (mul_lt_mul_of_pos_right hlt hs)
    · exact .inr ⟨by rw [heq], heven⟩
  · -- The first step of the block lies between the other magnitude and `x`.
    have hblock : |x / 2 ^ gridOf x - wholeNearest (x / 2 ^ gridOf x)| ≤
        |x / 2 ^ gridOf x - blockSize| := by
      by_cases heq : blockSize = wholeNearest (x / 2 ^ gridOf x)
      · rw [← heq]
      · rcases wholeNearest_nearest hy heq with hlt | ⟨htie, -⟩
        · exact hlt.le
        · exact htie.le
    left
    calc |x / 2 ^ gridOf x - wholeNearest (x / 2 ^ gridOf x)| * 2 ^ gridOf x
        ≤ |x / 2 ^ gridOf x - blockSize| * 2 ^ gridOf x := by gcongr
      _ = |x - blockSize * 2 ^ gridOf x| := (abs_sub_steps hs x blockSize).symm
      _ = x - blockSize * 2 ^ gridOf x := abs_of_nonneg (by linarith)
      _ < x - m'.toRat := by linarith
      _ ≤ |x - m'.toRat| := le_abs_self _

theorem isNearest_of_overflow (h : 2 ^ (1024 : ℤ) ≤ x) : IsNearest x infinity := by
  intro m' hne
  have hrank : m'.rank < infinity.rank := by
    have hne' : m'.rank ≠ infinity.rank := fun heq => hne (eq_of_rank_eq heq)
    have hle := m'.rank_le
    have htop : infinity.rank = topRank := by decide
    omega
  have hlt := toRat_strictMono hrank
  rw [← toRat_infinity] at h
  rw [abs_of_nonneg (by linarith), abs_of_nonneg (by linarith)]
  exact .inl (by linarith)

theorem isNearest_nearestTo (hx : 0 ≤ x) : IsNearest x (nearestTo x) := by
  rcases hx.eq_or_lt with rfl | hpos
  · intro m' hne
    rw [nearestTo, if_pos le_rfl] at hne ⊢
    have hrank : m'.rank ≠ zero.rank := fun heq => hne (eq_of_rank_eq heq)
    have hlt : zero.toRat < m'.toRat := toRat_strictMono (Nat.pos_of_ne_zero hrank)
    rw [toRat_zero] at hlt ⊢
    left
    rw [sub_zero, abs_zero, zero_sub, abs_neg]
    exact hlt.trans_le (le_abs_self _)
  · rcases lt_or_ge x (2 ^ (1024 : ℤ)) with hlt | hge
    · exact isNearest_of_lt hpos hlt
    · rw [nearestTo_of_overflow hge]
      exact isNearest_of_overflow hge

/-- Rounding gives the nearest magnitude. -/
theorem isNearest_iff (hx : 0 ≤ x) : IsNearest x m ↔ m = nearestTo x := by
  constructor
  · intro h
    exact (isNearest_nearestTo hx).unique h
  · rintro rfl
    exact isNearest_nearestTo hx

end InfixCalculator.Magnitude
