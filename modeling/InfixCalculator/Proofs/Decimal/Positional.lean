import InfixCalculator.Decimal.Text
import InfixCalculator.Proofs.Decimal.ReadBack

/-!
# Numbers written in full

A magnitude that is zero, or at least 0.0001 and less than 10 ^ 16, is written as digits with a
point among them and without an exponent.  Reading these digits gives the magnitude again.
-/

namespace InfixCalculator

namespace Decimal

variable {whole fraction digits : List Char}

/-! ## Literals with a point -/

/-- The text has digits on both sides of one point, at least one of them before it, and stands for
the given value. -/
def PointLiteral (text : List Char) (value : ℚ) : Prop :=
  ∃ whole fraction, text = whole ++ '.' :: fraction ∧ whole ≠ [] ∧
    (∀ c ∈ whole ++ fraction, c.isDigit = true) ∧
    (⟨wholeOfDigits (whole ++ fraction), -(fraction.length : ℤ)⟩ : Decimal).toRat = value

theorem ne_point_of_isDigit {c : Char} (h : c.isDigit = true) : c ≠ '.' := by
  rintro rfl
  simp [Char.isDigit] at h

theorem ofLiteral_point (h : ∀ c ∈ whole, c.isDigit = true) :
    ofLiteral (whole ++ '.' :: fraction) =
      ⟨wholeOfDigits (whole ++ fraction), -(fraction.length : ℤ)⟩ := by
  have hall : ∀ c ∈ whole, (c != '.') = true := fun c hc => by
    simpa using ne_point_of_isDigit (h c hc)
  simp [ofLiteral, List.takeWhile_append_of_pos hall, List.dropWhile_append_of_pos hall]

theorem PointLiteral.toRat_ofLiteral {text : List Char} {value : ℚ} (h : PointLiteral text value) :
    (ofLiteral text).toRat = value := by
  obtain ⟨whole, fraction, rfl, -, hdigits, hvalue⟩ := h
  rw [ofLiteral_point fun c hc => hdigits c (List.mem_append_left _ hc), hvalue]

theorem wholeOfDigits_append_zeros (digits : List Char) (n : ℕ) :
    wholeOfDigits (digits ++ List.replicate n '0') = 10 ^ n * wholeOfDigits digits := by
  rw [wholeOfDigits, Nat.ofDigitChars_append, Nat.ofDigitChars_replicate_zero, wholeOfDigits]

theorem wholeOfDigits_zeros_append (digits : List Char) (n : ℕ) :
    wholeOfDigits (List.replicate n '0' ++ digits) = wholeOfDigits digits := by
  rw [wholeOfDigits, Nat.ofDigitChars_append, Nat.ofDigitChars_replicate_zero, Nat.mul_zero,
    wholeOfDigits]

theorem isDigit_of_mem_zeros {n : ℕ} {c : Char} (h : c ∈ List.replicate n '0') :
    c.isDigit = true := by
  rw [List.eq_of_mem_replicate h]
  rfl

end Decimal

namespace DecimalLayout

open Decimal

variable {digits : List Char} {lead : ℤ}

theorem pointLiteral_of_neg (hdigits : ∀ c ∈ digits, c.isDigit = true) (hlead : lead < 0) :
    PointLiteral (positional digits lead)
      (⟨wholeOfDigits digits, lead + 1 - digits.length⟩ : Decimal).toRat := by
  obtain ⟨k, hk⟩ : ∃ k : ℕ, (-lead - 1).toNat = k ∧ lead = -(k : ℤ) - 1 :=
    ⟨_, rfl, by omega⟩
  rw [positional, if_pos hlead, hk.1]
  refine ⟨['0'], List.replicate k '0' ++ digits, rfl, by simp, ?_, ?_⟩
  · intro c hc
    rw [← List.append_assoc] at hc
    rcases List.mem_append.1 hc with hc | hc
    · exact isDigit_of_mem_zeros (n := k + 1) hc
    · exact hdigits c hc
  · have hzeros : ['0'] ++ (List.replicate k '0' ++ digits)
        = List.replicate (k + 1) '0' ++ digits := rfl
    rw [hzeros, wholeOfDigits_zeros_append, List.length_append, List.length_replicate, hk.2]
    congr 2
    push_cast
    ring

theorem pointLiteral_of_lt (hdigits : ∀ c ∈ digits, c.isDigit = true) (hlead : 0 ≤ lead)
    (hlen : lead + 1 < digits.length) : PointLiteral (positional digits lead)
      (⟨wholeOfDigits digits, lead + 1 - digits.length⟩ : Decimal).toRat := by
  lift lead to ℕ using hlead
  have hfraction : digits.drop (lead + 1) ≠ [] := by
    rw [Ne, List.drop_eq_nil_iff]
    omega
  have hpad : lead + 1 - digits.length = 0 := by omega
  rw [positional, if_neg (by omega)]
  simp only [Int.toNat_natCast, List.isEmpty_eq_false_iff.2 hfraction, hpad, List.replicate_zero,
    List.append_nil, Bool.false_eq_true, if_false]
  refine ⟨digits.take (lead + 1), digits.drop (lead + 1), rfl, ?_, ?_, ?_⟩
  · rw [Ne, List.take_eq_nil_iff]
    rintro (h | rfl)
    · omega
    · simp at hfraction
  · rwa [List.take_append_drop]
  · rw [List.take_append_drop, List.length_drop]
    congr 2
    omega

theorem pointLiteral_of_le (hne : digits ≠ []) (hdigits : ∀ c ∈ digits, c.isDigit = true)
    (hlead : 0 ≤ lead) (hlen : digits.length ≤ lead + 1) : PointLiteral (positional digits lead)
      (⟨wholeOfDigits digits, lead + 1 - digits.length⟩ : Decimal).toRat := by
  lift lead to ℕ using hlead
  obtain ⟨pad, hpad⟩ : ∃ pad, lead + 1 = digits.length + pad :=
    Nat.exists_eq_add_of_le (by omega)
  rw [positional, if_neg (by omega)]
  simp only [Int.toNat_natCast, hpad, List.take_of_length_le (Nat.le_add_right _ pad),
    List.drop_of_length_le (Nat.le_add_right _ pad), Nat.add_sub_cancel_left, List.isEmpty_nil,
    if_true]
  have hzeros : digits ++ List.replicate pad '0' ++ ['0'] =
      digits ++ List.replicate (pad + 1) '0' := by
    rw [List.replicate_succ', List.append_assoc]
  refine ⟨digits ++ List.replicate pad '0', ['0'], rfl, by simp [hne], ?_, ?_⟩
  · intro c hc
    rw [hzeros] at hc
    rcases List.mem_append.1 hc with hc | hc
    · exact hdigits c hc
    · exact isDigit_of_mem_zeros hc
  · have hexponent : ((lead : ℤ) + 1 - digits.length) = pad := by omega
    rw [hzeros, wholeOfDigits_append_zeros, hexponent, toRat, toRat, List.length_singleton]
    push_cast
    rw [zpow_natCast, zpow_neg_one, pow_succ]
    field_simp

/-- The point stands where the exponent of the leading digit says. -/
theorem pointLiteral_positional (hne : digits ≠ []) (hdigits : ∀ c ∈ digits, c.isDigit = true)
    (lead : ℤ) : PointLiteral (positional digits lead)
      (⟨wholeOfDigits digits, lead + 1 - digits.length⟩ : Decimal).toRat := by
  rcases Int.lt_or_le lead 0 with hneg | hpos
  · exact pointLiteral_of_neg hdigits hneg
  · rcases Int.lt_or_le (lead + 1) digits.length with hlt | hle
    · exact pointLiteral_of_lt hdigits hpos hlt
    · exact pointLiteral_of_le hne hdigits hpos hle

theorem pointLiteral_write {layout : DecimalLayout} {d : Decimal}
    (hfrom : layout.positionalFrom ≤ d.exponent + (Nat.toDigits 10 d.coefficient).length - 1)
    (hto : d.exponent + (Nat.toDigits 10 d.coefficient).length - 1 < layout.scientificFrom) :
    PointLiteral (layout.write d) d.toRat := by
  have hpoint := pointLiteral_positional (Nat.toDigits_ne_nil (n := d.coefficient) (b := 10))
    (fun c => Nat.isDigit_of_mem_toDigits (by decide) (by decide))
    (d.exponent + (Nat.toDigits 10 d.coefficient).length - 1)
  have hexponent : d.exponent + ((Nat.toDigits 10 d.coefficient).length : ℤ) - 1 + 1
      - (Nat.toDigits 10 d.coefficient).length = d.exponent := by omega
  rw [hexponent, wholeOfDigits, Nat.ofDigitChars_ten_toDigits] at hpoint
  rwa [write, if_pos ⟨hfrom, hto⟩]

end DecimalLayout

/-! ## The range of numbers written in full -/

namespace Decimal

theorem pow_le_coefficient {d : Decimal} (h : d.coefficient ≠ 0) :
    10 ^ ((Nat.toDigits 10 d.coefficient).length - 1) ≤ d.coefficient := by
  have hpos := Nat.length_toDigits_pos (b := 10) (n := d.coefficient)
  rcases Nat.eq_zero_or_pos ((Nat.toDigits 10 d.coefficient).length - 1) with hone | hmore
  · rw [hone]
    exact Nat.pos_of_ne_zero h
  · have hlen := mt (Nat.length_toDigits_le_iff (n := d.coefficient) (b := 10) (by decide) hmore).2
      (by omega)
    omega

theorem coefficient_lt_pow (d : Decimal) :
    d.coefficient < 10 ^ (Nat.toDigits 10 d.coefficient).length :=
  (Nat.length_toDigits_le_iff (by decide) Nat.length_toDigits_pos).1 le_rfl

/-- The exponent of the leading digit of a decimal. -/
def lead (d : Decimal) : ℤ := d.exponent + (Nat.toDigits 10 d.coefficient).length - 1

theorem pow_lead_le {d : Decimal} (h : d.coefficient ≠ 0) : 10 ^ d.lead ≤ d.toRat := by
  have hpos := Nat.length_toDigits_pos (b := 10) (n := d.coefficient)
  have hlead : d.lead = ((Nat.toDigits 10 d.coefficient).length - 1 : ℕ) + d.exponent := by
    unfold lead
    omega
  rw [hlead, zpow_add₀ (by norm_num), zpow_natCast, toRat]
  gcongr
  exact_mod_cast pow_le_coefficient h

theorem toRat_lt_pow (d : Decimal) : d.toRat < 10 ^ (d.lead + 1) := by
  have hlead : d.lead + 1 = ((Nat.toDigits 10 d.coefficient).length : ℕ) + d.exponent := by
    unfold lead
    omega
  rw [hlead, zpow_add₀ (by norm_num), zpow_natCast, toRat]
  gcongr
  exact_mod_cast coefficient_lt_pow d

end Decimal

namespace Magnitude

/-- A magnitude that is zero, or at least 0.0001 and less than 10 ^ 16. -/
def WrittenInFull (m : Magnitude) : Prop :=
  m.isZero = true ∨ (Decimal.toMagnitude ⟨1, -4⟩).rank ≤ m.rank ∧
    m.rank < (Decimal.toMagnitude ⟨1, 16⟩).rank

theorem shortest_least : (Decimal.toMagnitude ⟨1, -4⟩).shortest = ⟨1, -4⟩ := by
  have hzero : (Decimal.toMagnitude ⟨1, -4⟩).isZero = false := by decide
  have hfloor : floorLog10 (Decimal.toMagnitude ⟨1, -4⟩).numerator
      (Decimal.toMagnitude ⟨1, -4⟩).denominator = -4 := by decide
  have hfirst : (Decimal.toMagnitude ⟨1, -4⟩).decimalOn? (-4) = some ⟨1, -4⟩ := by decide
  rw [shortest, hzero, hfloor, firstDecimal, hfirst]
  simp [Decimal.normalize, Decimal.stripZeros]

theorem WrittenInFull.isInfinite {m : Magnitude} (h : m.WrittenInFull) : m.isInfinite = false := by
  have htop := (Decimal.toMagnitude ⟨1, 16⟩).rank_le
  have hpos : 0 < topRank := by decide
  have hlt : m.rank < topRank := by
    rcases h with hzero | ⟨-, hhigh⟩
    · rwa [eq_of_beq hzero]
    · exact hhigh.trans_le htop
  exact beq_false_of_ne hlt.ne

theorem shortest_of_isZero {m : Magnitude} (h : m.isZero = true) : m.shortest = ⟨0, 0⟩ := if_pos h

theorem coefficient_shortest_ne_zero {m : Magnitude} (h : m.rank ≠ 0) :
    m.shortest.coefficient ≠ 0 := fun hzero => by
  have hread := m.toMagnitude_shortest
  rw [Decimal.toMagnitude, if_pos hzero] at hread
  exact h (by rw [← hread]; rfl)

theorem le_lead_shortest {m : Magnitude} (h : (Decimal.toMagnitude ⟨1, -4⟩).rank ≤ m.rank) :
    -4 ≤ m.shortest.lead := by
  by_contra hlead
  have hlt : m.shortest.toRat ≤ (⟨1, -4⟩ : Decimal).toRat := by
    calc m.shortest.toRat ≤ 10 ^ (m.shortest.lead + 1) := m.shortest.toRat_lt_pow.le
      _ ≤ 10 ^ (-4 : ℤ) := zpow_le_zpow_right₀ (by norm_num) (by omega)
      _ = (⟨1, -4⟩ : Decimal).toRat := by simp [Decimal.toRat]
  have hrank := Decimal.toMagnitude_mono hlt
  rw [toMagnitude_shortest] at hrank
  have hm : m = Decimal.toMagnitude ⟨1, -4⟩ := by
    rw [← ofRank_rank m, ← ofRank_rank (Decimal.toMagnitude ⟨1, -4⟩), Nat.le_antisymm hrank h]
  rw [hm, shortest_least] at hlead
  exact hlead (by decide)

theorem lead_shortest_lt {m : Magnitude} (hzero : m.rank ≠ 0)
    (h : m.rank < (Decimal.toMagnitude ⟨1, 16⟩).rank) : m.shortest.lead < 16 := by
  by_contra hlead
  have hle : (⟨1, 16⟩ : Decimal).toRat ≤ m.shortest.toRat := by
    calc (⟨1, 16⟩ : Decimal).toRat = 10 ^ (16 : ℤ) := by simp [Decimal.toRat]
      _ ≤ 10 ^ m.shortest.lead := zpow_le_zpow_right₀ (by norm_num) (by omega)
      _ ≤ m.shortest.toRat := Decimal.pow_lead_le (coefficient_shortest_ne_zero hzero)
  have hrank := Decimal.toMagnitude_mono hle
  rw [toMagnitude_shortest] at hrank
  omega

/-- A magnitude in the range is written as digits with a point, which are read back. -/
theorem WrittenInFull.pointLiteral {m : Magnitude} (h : m.WrittenInFull) :
    Decimal.PointLiteral (DecimalLayout.plain.writeMagnitude m) m.shortest.toRat := by
  have hlead : -4 ≤ m.shortest.lead ∧ m.shortest.lead < 16 := by
    rcases h with hzero | ⟨hlow, hhigh⟩
    · rw [shortest_of_isZero hzero]
      decide
    · have hpos : 0 < (Decimal.toMagnitude ⟨1, -4⟩).rank := by decide
      exact ⟨le_lead_shortest hlow, lead_shortest_lt (by omega) hhigh⟩
  rw [DecimalLayout.writeMagnitude, h.isInfinite]
  exact DecimalLayout.pointLiteral_write hlead.1 hlead.2

theorem WrittenInFull.readsBack {m : Magnitude} (h : m.WrittenInFull) :
    (Decimal.ofLiteral (DecimalLayout.plain.writeMagnitude m)).toMagnitude = m := by
  rw [Decimal.toMagnitude_congr h.pointLiteral.toRat_ofLiteral, toMagnitude_shortest]

end Magnitude

end InfixCalculator
