import InfixCalculator.Fault
import InfixCalculator.Proofs.Expr.Readability

/-!
# Legible texts

Whatever a text in quotes is, and whatever number, token or expression is shown, all characters
that are written are printable.  So what is said of a fault stays on one line.
-/

namespace InfixCalculator

namespace Text

variable {text more : List Char} {c mark : Char}

/-- All characters of the text are printable. -/
def Legible (text : List Char) : Prop := ∀ c ∈ text, isPrintable c = true

theorem exists_unprintableRanges :
    ∃ ranges, unprintableRanges = (0x0000, 0x001F) :: (0x007F, 0x00A0) :: ranges := ⟨_, rfl⟩

theorem isPrintable_of_ascii (hfirst : 32 ≤ c.toNat) (hlast : c.toNat < 127) :
    isPrintable c = true := by
  obtain ⟨ranges, hranges⟩ := exists_unprintableRanges
  have hcontrol : ¬c.toNat ≤ 31 := by omega
  have hbehind : ¬127 ≤ c.toNat := by omega
  simp [isPrintable, hranges, CodeRange.anyContains, hcontrol, hbehind]

/-- The characters before the space are controls. -/
theorem not_isPrintable_of_control (h : c.toNat < 32) : isPrintable c = false := by
  obtain ⟨ranges, hranges⟩ := exists_unprintableRanges
  have hcontrol : c.toNat ≤ 31 := by omega
  simp [isPrintable, hranges, CodeRange.anyContains, hcontrol]

theorem Legible.notMem_of_control (h : Legible text) (hcontrol : c.toNat < 32) : c ∉ text := by
  intro hc
  have hprintable := h c hc
  rw [not_isPrintable_of_control hcontrol] at hprintable
  contradiction

theorem legible_of_ascii (h : text.all (fun c => 32 ≤ c.toNat && c.toNat < 127) = true) :
    Legible text := by
  intro c hc
  have hascii := List.all_eq_true.1 h c hc
  simp only [Bool.and_eq_true, decide_eq_true_eq] at hascii
  exact isPrintable_of_ascii hascii.1 hascii.2

@[simp] theorem legible_nil : Legible [] := by simp [Legible]

@[simp] theorem legible_append : Legible (text ++ more) ↔ Legible text ∧ Legible more :=
  List.forall_mem_append

@[simp] theorem legible_cons : Legible (c :: text) ↔ isPrintable c = true ∧ Legible text :=
  List.forall_mem_cons

/-! ## Quoted texts -/

theorem isPrintable_of_isDigit (h : c.isDigit = true) : isPrintable c = true := by
  simp only [Char.isDigit, Bool.and_eq_true, decide_eq_true_eq] at h
  have hfirst : 48 ≤ c.toNat := UInt32.le_iff_toNat_le.1 h.1
  have hlast : c.toNat ≤ 57 := UInt32.le_iff_toNat_le.1 h.2
  exact isPrintable_of_ascii (by omega) (by omega)

theorem isPrintable_of_continuesNumber (h : Cursor.continuesNumber c = true) :
    isPrintable c = true := by
  simp only [Cursor.continuesNumber, Bool.or_eq_true, beq_iff_eq] at h
  rcases h with h | rfl
  · exact isPrintable_of_isDigit h
  · exact isPrintable_of_ascii (by decide) (by decide)

theorem isPrintable_digitChar (n : Nat) : isPrintable n.digitChar = true := by
  have hascii : 32 ≤ n.digitChar.toNat ∧ n.digitChar.toNat < 127 := by
    fun_cases Nat.digitChar n <;> decide
  exact isPrintable_of_ascii hascii.1 hascii.2

theorem legible_toDigits {base : Nat} (hbase : 1 < base) (n : Nat) :
    Legible (Nat.toDigits base n) := by
  induction n using Nat.strongRecOn with
  | ind n ih =>
    rw [Nat.toDigits_eq_if hbase]
    split
    · simp [isPrintable_digitChar]
    · have hless : n / base < n := Nat.div_lt_self (by omega) hbase
      simp [ih _ hless, isPrintable_digitChar]

theorem legible_hexDigits (width n : Nat) : Legible (hexDigits width n) := by
  have hzeros : Legible (List.replicate (width - (Nat.toDigits 16 n).length) '0') := by
    intro c hc
    rw [List.eq_of_mem_replicate hc]
    exact isPrintable_of_isDigit rfl
  exact legible_append.2 ⟨hzeros, legible_toDigits (by decide) n⟩

theorem isPrintable_quoteMark (text : List Char) : isPrintable (quoteMark text) = true := by
  unfold quoteMark
  split <;> exact isPrintable_of_ascii (by decide) (by decide)

/-- What is not printable is escaped. -/
theorem legible_quoteChar (hmark : isPrintable mark = true) (c : Char) :
    Legible (quoteChar mark c) := by
  have hbackslash : isPrintable '\\' = true := isPrintable_of_ascii (by decide) (by decide)
  have hletter (letter : Char) (hfirst : 32 ≤ letter.toNat) (hlast : letter.toNat < 127) :
      Legible ['\\', letter] := by
    simp [hbackslash, isPrintable_of_ascii hfirst hlast]
  unfold quoteChar
  split_ifs with hescaped hfeed hreturn htab hprintable
  · rcases (by simpa using hescaped : c = mark ∨ c = '\\') with rfl | rfl
    · simp [hbackslash, hmark]
    · simp [hbackslash]
  · exact hletter 'n' (by decide) (by decide)
  · exact hletter 'r' (by decide) (by decide)
  · exact hletter 't' (by decide) (by decide)
  · simp [hprintable]
  · unfold escapeCode
    split_ifs
    · exact legible_append.2 ⟨hletter 'x' (by decide) (by decide), legible_hexDigits 2 _⟩
    · exact legible_append.2 ⟨hletter 'u' (by decide) (by decide), legible_hexDigits 4 _⟩
    · exact legible_append.2 ⟨hletter 'U' (by decide) (by decide), legible_hexDigits 8 _⟩

theorem legible_quoteChars (text : List Char) : Legible (quoteChars text) := by
  have hmark := isPrintable_quoteMark text
  have hinside : Legible (text.flatMap (quoteChar (quoteMark text))) := by
    intro c hc
    obtain ⟨c', -, hc'⟩ := List.mem_flatMap.1 hc
    exact legible_quoteChar hmark c' c hc'
  simp [quoteChars, hmark, hinside]

end Text

open Text

/-! ## Numbers and expressions -/

theorem DecimalLayout.mem_write (layout : DecimalLayout) {d : Decimal} {c : Char}
    (hc : c ∈ layout.write d) : Cursor.continuesNumber c = true ∨ c ∈ ['e', '-', '+'] := by
  rcases Decimal.write_cases layout d with h | ⟨digits, lead, hne, hdigits, htext, -⟩
  · obtain ⟨first, run, -, -, hrun, -⟩ := h.exists_cons
    exact .inl (hrun c hc)
  · rw [htext] at hc
    exact layout.mem_scientific hne hdigits hc

theorem Binary64.mem_textChars {x : Binary64} {c : Char} (hc : c ∈ x.textChars) :
    Cursor.continuesNumber c = true ∨ c ∈ ['e', '-', '+', 'i', 'n', 'f', 'a'] := by
  have hmagnitude {m : Magnitude} (hc : c ∈ DecimalLayout.plain.writeMagnitude m) :
      Cursor.continuesNumber c = true ∨ c ∈ ['e', '-', '+', 'i', 'n', 'f', 'a'] := by
    unfold DecimalLayout.writeMagnitude at hc
    split at hc
    · exact .inr ((by decide : "inf".toList ⊆ ['e', '-', '+', 'i', 'n', 'f', 'a']) hc)
    · exact (DecimalLayout.plain.mem_write hc).imp_right fun h =>
        List.mem_append_left ['i', 'n', 'f', 'a'] h
  cases x with
  | nan => exact .inr ((by decide : "nan".toList ⊆ ['e', '-', '+', 'i', 'n', 'f', 'a']) hc)
  | signed negative m =>
    cases negative with
    | false => exact hmagnitude hc
    | true =>
      rcases List.mem_cons.1 hc with rfl | hc
      · exact .inr (by decide)
      · exact hmagnitude hc

theorem Binary64.legible_textChars (x : Binary64) : Legible x.textChars := by
  have hletters : Legible ['e', '-', '+', 'i', 'n', 'f', 'a'] := legible_of_ascii rfl
  intro c hc
  exact (mem_textChars hc).elim isPrintable_of_continuesNumber (hletters c)

theorem Binary64.legible_text (x : Binary64) : Legible x.text.toList := by
  rw [text, String.toList_ofList]
  exact x.legible_textChars

theorem BinaryOp.legible_symbol (op : BinaryOp) : Legible op.symbol.toList :=
  legible_of_ascii (by cases op <;> rfl)

/-- An expression is shown in printable characters. -/
theorem Expr.legible_chars (e : Expr) : Legible e.chars := by
  have hopening : isPrintable '(' = true := isPrintable_of_ascii (by decide) (by decide)
  have hclosing : isPrintable ')' = true := isPrintable_of_ascii (by decide) (by decide)
  have hspace : isPrintable ' ' = true := isPrintable_of_ascii (by decide) (by decide)
  have hminus : isPrintable '-' = true := isPrintable_of_ascii (by decide) (by decide)
  induction e with
  | leaf x =>
    rw [chars_leaf]
    exact x.legible_textChars
  | binary op left right ihl ihr =>
    simp [chars_binary, hopening, hclosing, hspace, op.legible_symbol, ihl, ihr]
  | negative operand ih =>
    rw [chars_negative]
    split <;> simp [hminus, hopening, hclosing, ih]

/-! ## Tokens and faults -/

theorem TokenKind.legible_display (kind : TokenKind) : Legible kind.display.toList :=
  legible_of_ascii (by cases kind <;> rfl)

theorem Token.legible_display (t : Token) : Legible t.display.toList := by
  have hvalue : Legible t.valueText.toList := by
    unfold valueText
    split
    · exact Binary64.legible_text _
    · exact legible_of_ascii rfl
  have hkind := t.kind.legible_display
  have hopening : Legible "(".toList := legible_of_ascii rfl
  have hclosing : Legible ")".toList := legible_of_ascii rfl
  unfold display
  split
  · simp only [String.toList_append, legible_append]
    exact ⟨⟨⟨hkind, hopening⟩, hvalue⟩, hclosing⟩
  · exact hkind

/-- What is said of a cause is written in printable characters, whatever the source holds. -/
theorem FaultCause.legible_detail (cause : FaultCause) : Legible cause.detail.toList := by
  unfold detail
  cases cause with
  | emptyExpression | noMoreTokens | unexpectedEnd | nestedTooDeeply => exact legible_of_ascii rfl
  | unexpectedCharacter c =>
    simp only [String.toList_append, String.toList_ofList, legible_append]
    exact ⟨legible_of_ascii rfl, legible_quoteChars [c]⟩
  | malformedNumber literal =>
    simp only [String.toList_append, String.toList_ofList, legible_append]
    exact ⟨legible_of_ascii rfl, legible_quoteChars literal⟩
  | expected kind found =>
    simp only [String.toList_append, legible_append]
    exact ⟨⟨⟨legible_of_ascii rfl, Token.legible_display _⟩, legible_of_ascii rfl⟩,
      found.legible_display⟩
  | operandExpected found =>
    simp only [String.toList_append, legible_append]
    exact ⟨⟨legible_of_ascii rfl, found.legible_display⟩, legible_of_ascii rfl⟩
  | operatorExpected found | leftoverToken found =>
    rw [String.toList_append, legible_append]
    exact ⟨legible_of_ascii rfl, found.legible_display⟩

/-! ## Last characters -/

namespace Text

/-- The text is not empty and does not end in a space. -/
def EndsVisibly (text : List Char) : Prop := ∃ c, text.getLast? = some c ∧ c ≠ ' '

variable {text : List Char}

theorem EndsVisibly.append_left (h : EndsVisibly text) (front : List Char) :
    EndsVisibly (front ++ text) := by
  obtain ⟨c, hlast, hc⟩ := h
  refine ⟨c, ?_, hc⟩
  rw [List.getLast?_append, hlast]
  rfl

theorem endsVisibly_append_singleton (front : List Char) {c : Char} (hc : c ≠ ' ') :
    EndsVisibly (front ++ [c]) :=
  ⟨c, List.getLast?_concat, hc⟩

/-- A text that is not empty and has no spaces. -/
theorem endsVisibly_of_notMem (hne : text ≠ []) (hspace : ' ' ∉ text) : EndsVisibly text := by
  refine ⟨text.getLast hne, List.getLast?_eq_some_getLast hne, fun hc => hspace ?_⟩
  rw [← hc]
  exact List.getLast_mem hne

theorem endsVisibly_quoteChars (text : List Char) : EndsVisibly (quoteChars text) := by
  have hmark : quoteMark text ≠ ' ' := by
    unfold quoteMark
    split <;> decide
  rw [quoteChars, ← List.cons_append]
  exact endsVisibly_append_singleton _ hmark

end Text

theorem Token.endsVisibly_display (t : Token) : EndsVisibly t.display.toList := by
  unfold display
  split
  · rw [String.toList_append]
    exact endsVisibly_append_singleton _ (by decide)
  · cases t.kind <;> exact ⟨_, rfl, by decide⟩

theorem FaultCause.endsVisibly_detail (cause : FaultCause) :
    EndsVisibly cause.detail.toList := by
  unfold detail
  cases cause with
  | emptyExpression | noMoreTokens | unexpectedEnd | nestedTooDeeply =>
    exact ⟨_, rfl, by decide⟩
  | unexpectedCharacter c =>
    simp only [String.toList_append, String.toList_ofList]
    exact (endsVisibly_quoteChars [c]).append_left _
  | malformedNumber literal =>
    simp only [String.toList_append, String.toList_ofList]
    exact (endsVisibly_quoteChars literal).append_left _
  | operandExpected found =>
    rw [String.toList_append]
    exact EndsVisibly.append_left ⟨'d', rfl, by decide⟩ _
  | expected _ found | operatorExpected found | leftoverToken found =>
    rw [String.toList_append]
    exact found.endsVisibly_display.append_left _

theorem Binary64.space_notMem_textChars (x : Binary64) : ' ' ∉ x.textChars := by
  intro h
  rcases mem_textChars h with h | h
  · cases h
  · revert h
    decide

theorem Binary64.textChars_ne_nil (x : Binary64) : x.textChars ≠ [] := by
  cases x with
  | nan => decide
  | signed negative m =>
    cases negative with
    | false =>
      obtain ⟨c, hc, -⟩ := m.numeral_writeMagnitude.first
      exact List.ne_nil_of_mem (List.mem_of_head? hc)
    | true => exact List.cons_ne_nil _ _

theorem Binary64.endsVisibly_textChars (x : Binary64) : EndsVisibly x.textChars :=
  endsVisibly_of_notMem x.textChars_ne_nil x.space_notMem_textChars

theorem Expr.endsVisibly_chars (e : Expr) : EndsVisibly e.chars := by
  induction e with
  | leaf x =>
    rw [chars_leaf]
    exact x.endsVisibly_textChars
  | binary op left right =>
    have hbracket : EndsVisibly (chars right ++ [')']) :=
      endsVisibly_append_singleton _ (by decide)
    rw [chars_binary]
    have hright := (hbracket.append_left [' ']).append_left op.symbol.toList
    exact (hright.append_left [' ']).append_left ('(' :: chars left)
  | negative operand ih =>
    rw [chars_negative]
    split
    · exact (endsVisibly_append_singleton _ (by decide)).append_left ['-', '(']
    · exact ih.append_left ['-']

end InfixCalculator
