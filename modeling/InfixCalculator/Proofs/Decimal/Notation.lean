import InfixCalculator.Proofs.Binary64.Guarded
import InfixCalculator.Proofs.Decimal.Positional
import InfixCalculator.Proofs.Token.CheckedPull

/-!
# Numbers in every notation

Whether a number is written in full or with an exponent, its text is read back as the number.  So
no two numbers have the same text.  The text of a magnitude begins with a digit, or it is the one of
infinity; there is no blank and no bracket in it.
-/

namespace InfixCalculator

open Magnitude

namespace Decimal

theorem ofText?_marked {c : Char} {run : List Char} (hc : c.isDigit = true)
    (hrun : ∀ c' ∈ c :: run, Cursor.continuesNumber c' = true)
    (hpoints : (c :: run).count '.' ≤ 1) (exponent : List Char) :
    ofText? (c :: run ++ 'e' :: exponent) = (exponentOfText? exponent).map fun e =>
      ⟨(ofLiteral (c :: run)).coefficient, (ofLiteral (c :: run)).exponent + e⟩ := by
  have hmark : ∀ c' ∈ c :: run, (c' != 'e') = true := fun c' hc' =>
    bne_iff_ne.2 (Cursor.ne_of_continuesNumber (hrun c' hc') rfl)
  have hmantissa : (c :: run ++ 'e' :: exponent).takeWhile (· != 'e') = c :: run := by
    rw [List.takeWhile_append_of_pos hmark]
    simp
  have hmarked : (c :: run ++ 'e' :: exponent).dropWhile (· != 'e') = 'e' :: exponent := by
    rw [List.dropWhile_append_of_pos hmark]
    simp
  have hany : (c :: run).any Char.isDigit = true := List.any_eq_true.2 ⟨c, by simp, hc⟩
  have hall : (c :: run).all (fun c => c.isDigit || c == '.') = true := List.all_eq_true.2 hrun
  simp only [ofText?, hmantissa, hmarked, hany, hall, hpoints, decide_true, Bool.and_self,
    if_true, List.isEmpty_cons, Bool.false_eq_true, if_false, List.drop_one, List.tail_cons]

end Decimal

namespace DecimalLayout

open Decimal

variable {layout : DecimalLayout} {digits : List Char} {lead : ℤ}

theorem isDigit_of_mem_exponentDigits {n : ℕ} {c : Char} (h : c ∈ layout.exponentDigits n) :
    c.isDigit = true := by
  rcases List.mem_append.1 h with h | h
  · exact isDigit_of_mem_zeros h
  · exact Nat.isDigit_of_mem_toDigits (by decide) (by decide) h

theorem exponentOfText?_exponentDigits (layout : DecimalLayout) (lead : ℤ) :
    exponentOfText? ((if lead < 0 then '-' else '+') :: layout.exponentDigits lead.natAbs) =
      some lead := by
  have hne : layout.exponentDigits lead.natAbs ≠ [] := by
    simp [exponentDigits, Nat.toDigits_ne_nil]
  have hdigits : exponentOfText?.digitsOnly (layout.exponentDigits lead.natAbs) = true := by
    simp only [exponentOfText?.digitsOnly, List.isEmpty_eq_false_iff.2 hne, Bool.not_false,
      Bool.true_and, List.all_eq_true]
    exact fun c hc => isDigit_of_mem_exponentDigits hc
  have hwhole : wholeOfDigits (layout.exponentDigits lead.natAbs) = lead.natAbs := by
    rw [exponentDigits, wholeOfDigits_zeros_append, wholeOfDigits, Nat.ofDigitChars_ten_toDigits]
  by_cases hneg : lead < 0
  · rw [if_pos hneg]
    simp only [exponentOfText?, hdigits, hwhole, if_true]
    congr 1
    omega
  · rw [if_neg hneg]
    simp only [exponentOfText?, hdigits, hwhole, if_true]
    congr 1
    omega

/-- The digits behind the leading one, with a point before them if there are any. -/
def behindLead (fraction : List Char) : List Char :=
  if fraction.isEmpty then [] else '.' :: fraction

theorem scientific_cons (layout : DecimalLayout) (c : Char) (fraction : List Char) (lead : ℤ) :
    layout.scientific (c :: fraction) lead = c :: behindLead fraction ++
      'e' :: (if lead < 0 then '-' else '+') :: layout.exponentDigits lead.natAbs := by
  simp [scientific, behindLead]

theorem continuesNumber_of_mem_behindLead {fraction : List Char}
    (h : ∀ c ∈ fraction, c.isDigit = true) :
    ∀ c ∈ behindLead fraction, Cursor.continuesNumber c = true := by
  intro c hc
  unfold behindLead at hc
  split at hc
  · simp at hc
  · rcases List.mem_cons.1 hc with rfl | hc
    · rfl
    · exact Cursor.continuesNumber_of_isDigit (h c hc)

theorem count_behindLead {fraction : List Char} (h : ∀ c ∈ fraction, c.isDigit = true) :
    (behindLead fraction).count '.' ≤ 1 := by
  have hpoint : fraction.count '.' = 0 :=
    List.count_eq_zero.2 fun hmem => ne_point_of_isDigit (h _ hmem) rfl
  unfold behindLead
  split
  · exact Nat.zero_le 1
  · rw [List.count_cons_self, hpoint]

theorem ofLiteral_behindLead {c : Char} (h : c.isDigit = true) (fraction : List Char) :
    ofLiteral (c :: behindLead fraction) =
      ⟨wholeOfDigits (c :: fraction), -(fraction.length : ℤ)⟩ := by
  cases fraction with
  | nil => simp [behindLead, ofLiteral, ne_point_of_isDigit h]
  | cons c' fraction =>
    have hwhole : ∀ c' ∈ [c], c'.isDigit = true := by simp [h]
    exact ofLiteral_point hwhole

theorem mem_scientific (layout : DecimalLayout) (hne : digits ≠ [])
    (hdigits : ∀ c ∈ digits, c.isDigit = true) {lead : ℤ} {c : Char}
    (hc : c ∈ layout.scientific digits lead) :
    Cursor.continuesNumber c = true ∨ c ∈ ['e', '-', '+'] := by
  obtain ⟨first, fraction, rfl⟩ := List.exists_cons_of_ne_nil hne
  rw [List.forall_mem_cons] at hdigits
  simp only [scientific_cons, List.cons_append, List.mem_cons, List.mem_append] at hc
  rcases hc with rfl | hc | rfl | rfl | hc
  · exact .inl (Cursor.continuesNumber_of_isDigit hdigits.1)
  · exact .inl (continuesNumber_of_mem_behindLead hdigits.2 c hc)
  · simp
  · split <;> simp
  · exact .inl (Cursor.continuesNumber_of_isDigit (isDigit_of_mem_exponentDigits hc))

theorem ofText?_scientific (layout : DecimalLayout) (hne : digits ≠ [])
    (hdigits : ∀ c ∈ digits, c.isDigit = true) (lead : ℤ) :
    Decimal.ofText? (layout.scientific digits lead) =
      some ⟨wholeOfDigits digits, lead + 1 - digits.length⟩ := by
  obtain ⟨c, fraction, rfl⟩ := List.exists_cons_of_ne_nil hne
  rw [List.forall_mem_cons] at hdigits
  have hcount : (c :: behindLead fraction).count '.' ≤ 1 := by
    rw [List.count_cons_of_ne (ne_point_of_isDigit hdigits.1)]
    exact count_behindLead hdigits.2
  have hrun : ∀ c' ∈ c :: behindLead fraction, Cursor.continuesNumber c' = true :=
    List.forall_mem_cons.2 ⟨Cursor.continuesNumber_of_isDigit hdigits.1,
      continuesNumber_of_mem_behindLead hdigits.2⟩
  rw [scientific_cons, ofText?_marked hdigits.1 hrun hcount, exponentOfText?_exponentDigits,
    Option.map_some, ofLiteral_behindLead hdigits.1]
  congr 2
  rw [List.length_cons]
  push_cast
  ring

end DecimalLayout

namespace Decimal.PointLiteral

variable {text : List Char} {value : ℚ}

theorem exists_cons (h : PointLiteral text value) : ∃ c run, text = c :: run ∧
    c.isDigit = true ∧ (∀ c' ∈ text, Cursor.continuesNumber c' = true) ∧ text.count '.' ≤ 1 := by
  obtain ⟨whole, fraction, rfl, hwhole, hdigits, -⟩ := h
  obtain ⟨first, whole, rfl⟩ := List.exists_cons_of_ne_nil hwhole
  have hnumber (c : Char) (hc : c ∈ (first :: whole) ++ '.' :: fraction) :
      Cursor.continuesNumber c = true := by
    rw [List.mem_append, List.mem_cons (a := c) (b := '.')] at hc
    rcases hc with hc | rfl | hc
    · exact Cursor.continuesNumber_of_isDigit (hdigits c (List.mem_append_left _ hc))
    · rfl
    · exact Cursor.continuesNumber_of_isDigit (hdigits c (List.mem_append_right _ hc))
  have hpoint (digits : List Char) (h : ∀ c ∈ digits, c.isDigit = true) : digits.count '.' = 0 :=
    List.count_eq_zero.2 fun hmem => ne_point_of_isDigit (h _ hmem) rfl
  refine ⟨first, whole ++ '.' :: fraction, rfl, hdigits first (by simp), hnumber, ?_⟩
  rw [List.count_append, List.count_cons_self,
    hpoint _ fun c hc => hdigits c (List.mem_append_left _ hc),
    hpoint _ fun c hc => hdigits c (List.mem_append_right _ hc)]

theorem ofText?_eq (h : PointLiteral text value) : ofText? text = some (ofLiteral text) := by
  obtain ⟨c, run, rfl, hc, hrun, hpoints⟩ := h.exists_cons
  exact ofText?_literal hc hrun hpoints

end Decimal.PointLiteral

namespace Decimal

/-- A decimal is written in full, or its digits are written with an exponent. -/
theorem write_cases (layout : DecimalLayout) (d : Decimal) :
    PointLiteral (layout.write d) d.toRat ∨
      ∃ digits lead, digits ≠ [] ∧ (∀ c ∈ digits, c.isDigit = true) ∧
        layout.write d = layout.scientific digits lead ∧
        (⟨wholeOfDigits digits, lead + 1 - digits.length⟩ : Decimal) = d := by
  by_cases h : layout.positionalFrom ≤ d.exponent + (Nat.toDigits 10 d.coefficient).length - 1 ∧
      d.exponent + (Nat.toDigits 10 d.coefficient).length - 1 < layout.scientificFrom
  · exact .inl (DecimalLayout.pointLiteral_write h.1 h.2)
  · have hexponent : d.exponent + ((Nat.toDigits 10 d.coefficient).length : ℤ) - 1 + 1
        - (Nat.toDigits 10 d.coefficient).length = d.exponent := by omega
    refine .inr ⟨Nat.toDigits 10 d.coefficient, _, Nat.toDigits_ne_nil,
      fun c => Nat.isDigit_of_mem_toDigits (by decide) (by decide), if_neg h, ?_⟩
    rw [wholeOfDigits, Nat.ofDigitChars_ten_toDigits, hexponent]

theorem exists_ofText?_write (layout : DecimalLayout) (d : Decimal) :
    ∃ d', ofText? (layout.write d) = some d' ∧ d'.toRat = d.toRat := by
  rcases write_cases layout d with h | ⟨digits, lead, hne, hdigits, htext, hd⟩
  · exact ⟨_, h.ofText?_eq, h.toRat_ofLiteral⟩
  · rw [htext, DecimalLayout.ofText?_scientific layout hne hdigits, hd]
    exact ⟨d, rfl, rfl⟩

end Decimal

/-! ## The characters of numbers -/

/-- The text begins with a digit or the first letter of infinity, and has neither blanks nor
brackets. -/
structure Numeral (text : List Char) : Prop where
  first : ∃ c ∈ text.head?, c.isDigit = true ∨ c = 'i'
  apart : ∀ c ∈ text, c ≠ ' ' ∧ c ≠ '(' ∧ c ≠ ')'

namespace Numeral

theorem apart_of_continuesNumber {c : Char} (h : Cursor.continuesNumber c = true) :
    c ≠ ' ' ∧ c ≠ '(' ∧ c ≠ ')' :=
  ⟨Cursor.ne_of_continuesNumber h rfl, Cursor.ne_of_continuesNumber h rfl,
    Cursor.ne_of_continuesNumber h rfl⟩

theorem of_pointLiteral {text : List Char} {value : ℚ} (h : Decimal.PointLiteral text value) :
    Numeral text := by
  obtain ⟨c, run, rfl, hc, hrun, -⟩ := h.exists_cons
  exact ⟨⟨c, rfl, .inl hc⟩, fun c' hc' => apart_of_continuesNumber (hrun c' hc')⟩

theorem scientific (layout : DecimalLayout) {digits : List Char} (hne : digits ≠ [])
    (hdigits : ∀ c ∈ digits, c.isDigit = true) (lead : ℤ) :
    Numeral (layout.scientific digits lead) := by
  refine ⟨?first, fun c hc => ?apart⟩
  case first =>
    obtain ⟨c, fraction, rfl⟩ := List.exists_cons_of_ne_nil hne
    rw [DecimalLayout.scientific_cons]
    exact ⟨c, rfl, .inl (hdigits c List.mem_cons_self)⟩
  case apart =>
    rcases layout.mem_scientific hne hdigits hc with hc | hc
    · exact apart_of_continuesNumber hc
    · simp only [List.mem_cons, List.not_mem_nil, or_false] at hc
      rcases hc with rfl | rfl | rfl <;> decide

theorem write (layout : DecimalLayout) (d : Decimal) : Numeral (layout.write d) := by
  rcases Decimal.write_cases layout d with h | ⟨digits, lead, hne, hdigits, htext, -⟩
  · exact of_pointLiteral h
  · rw [htext]
    exact scientific layout hne hdigits lead

theorem infinity : Numeral DecimalLayout.plain.infinity.toList := by
  refine ⟨⟨'i', rfl, .inr rfl⟩, ?_⟩
  change ∀ c ∈ ['i', 'n', 'f'], c ≠ ' ' ∧ c ≠ '(' ∧ c ≠ ')'
  simp

theorem first_ne {c : Char} {text : List Char} (h : Numeral (c :: text)) (c' : Char)
    (hdigit : c'.isDigit = false) (hi : c' ≠ 'i') : c ≠ c' := by
  obtain ⟨first, hfirst, hc⟩ := h.first
  obtain rfl := Option.some.inj hfirst
  rintro rfl
  simp [hdigit, hi] at hc

end Numeral

namespace Magnitude

theorem numeral_writeMagnitude (m : Magnitude) :
    Numeral (DecimalLayout.plain.writeMagnitude m) := by
  unfold DecimalLayout.writeMagnitude
  split
  · exact .infinity
  · exact .write _ _

theorem ofText?_writeMagnitude (m : Magnitude) :
    ofText? (DecimalLayout.plain.writeMagnitude m) = some m := by
  unfold DecimalLayout.writeMagnitude
  split
  · next h => rw [ofText?, if_pos rfl, eq_infinity h]
  · obtain ⟨d, hd, hvalue⟩ := Decimal.exists_ofText?_write DecimalLayout.plain m.shortest
    have hne : DecimalLayout.plain.write m.shortest ≠ DecimalLayout.plain.infinity.toList := by
      intro htext
      have hnone : Decimal.ofText? DecimalLayout.plain.infinity.toList = none := by decide
      rw [htext, hnone] at hd
      contradiction
    rw [ofText?, if_neg hne, hd, Option.map_some, Decimal.toMagnitude_congr hvalue,
      toMagnitude_shortest]

end Magnitude

namespace Binary64

/-- The text of a number is read back, that of infinity and of no number included. -/
theorem ofText?_text (x : Binary64) : ofText? x.text = some x := by
  cases x with
  | nan => rfl
  | signed negative m =>
    have hnumeral := m.numeral_writeMagnitude
    have hread := m.ofText?_writeMagnitude
    obtain ⟨c, hc, -⟩ := hnumeral.first
    obtain ⟨tail, htext⟩ := List.head?_eq_some_iff.1 hc
    rw [htext] at hnumeral hread
    have hnan : text (signed negative m) ≠ DecimalLayout.plain.nan := by
      intro h
      have hlist := congrArg String.toList h
      rw [text, String.toList_ofList, textChars, htext] at hlist
      cases negative with
      | false => exact hnumeral.first_ne 'n' rfl (by decide) (List.cons.inj hlist).1
      | true => exact absurd (List.cons.inj hlist).1 (by decide)
    rw [ofText?, if_neg hnan, text, String.toList_ofList, textChars, htext]
    cases negative with
    | false =>
      split
      · next heq => exact absurd (List.cons.inj heq).1 (hnumeral.first_ne '-' rfl (by decide))
      · next => exact congrArg (Option.map _) hread
    | true => exact congrArg (Option.map _) hread

theorem text_injective : Function.Injective text := by
  intro x y h
  have hread := congrArg ofText? h
  rw [ofText?_text, ofText?_text] at hread
  exact Option.some.inj hread

end Binary64

end InfixCalculator
