import InfixCalculator.Proofs.Parser.Ahead

/-!
# Concatenated texts

The pulls at a text are determined lexeme by lexeme, as `Cursor.lexeme_induction` takes it apart.
Where no number literal runs over the seam of two texts, the pulls at both together are those at
the first one, up to its end, and then those at the second one.  Apart from positions they do not
depend on where a text stands.
-/

namespace InfixCalculator

namespace Cursor

variable {text more : List Char} {c : Char} {position : Nat}

theorem isSkipped_of_ofChar? {kind : TokenKind} (h : TokenKind.ofChar? c = some kind) :
    isSkipped c = false := by
  unfold TokenKind.ofChar? at h
  split at h <;> first | rfl | simp at h

theorem continuesNumber_of_ofChar? {kind : TokenKind} (h : TokenKind.ofChar? c = some kind) :
    continuesNumber c = false := by
  unfold TokenKind.ofChar? at h
  split at h <;> first | rfl | simp at h

theorem kind_ne_num_of_ofChar? {kind : TokenKind} (h : TokenKind.ofChar? c = some kind) :
    kind ≠ .num := by
  rintro rfl
  unfold TokenKind.ofChar? at h
  split at h <;> simp at h

theorem isSkipped_of_isDigit (h : c.isDigit = true) : isSkipped c = false := by
  have hne {c' : Char} (hc' : c'.isDigit = false) : c ≠ c' := by
    rintro rfl
    simp [h] at hc'
  have hspace : c ≠ ' ' := hne rfl
  have htab : c ≠ '\t' := hne rfl
  have hline : c ≠ '\n' := hne rfl
  have hreturn : c ≠ '\r' := hne rfl
  simp [isSkipped, hspace, htab, hline, hreturn]

theorem ofChar?_of_isDigit (h : c.isDigit = true) : TokenKind.ofChar? c = none := by
  unfold TokenKind.ofChar?
  split <;> first | rfl | simp [Char.isDigit] at h

/-! ## The pulls at the first lexeme -/

theorem pullAll_nil (position : Nat) : pullAll ⟨[], position⟩ = [.exhausted] := rfl

theorem pull_of_skipped (h : isSkipped c = true) :
    pull ⟨c :: text, position⟩ = pull ⟨text, position + 1⟩ := by
  simp only [pull]
  rw [pullFrom, if_pos h]

theorem pullAll_of_skipped (h : isSkipped c = true) :
    pullAll ⟨c :: text, position⟩ = pullAll ⟨text, position + 1⟩ := by
  rw [pullAll_eq, pullAll_eq, pull_of_skipped h]

theorem pullAll_of_symbol {kind : TokenKind} (h : TokenKind.ofChar? c = some kind) :
    pullAll ⟨c :: text, position⟩ =
      .token ⟨kind, none, position⟩ :: pullAll ⟨text, position + 1⟩ := by
  apply pullAll_of_token
  simp [pull, pullFrom, isSkipped_of_ofChar? h, h]

theorem pull_of_digit (h : c.isDigit = true) :
    pull ⟨c :: text, position⟩ = pullNumber c text position := by
  simp [pull, pullFrom, isSkipped_of_isDigit h, ofChar?_of_isDigit h, h]

theorem pullAll_of_number (h : c.isDigit = true)
    (hpoints : (c :: text.takeWhile continuesNumber).count '.' ≤ 1) :
    pullAll ⟨c :: text, position⟩ =
      .token ⟨.num, some (.ofLiteral (c :: text.takeWhile continuesNumber)), position⟩ ::
        pullAll ⟨text.dropWhile continuesNumber,
          position + (c :: text.takeWhile continuesNumber).length⟩ := by
  apply pullAll_of_token
  rw [pull_of_digit h, pullNumber, if_neg (Nat.not_lt.2 hpoints)]

theorem pullAll_of_malformed (h : c.isDigit = true)
    (hpoints : 1 < (c :: text.takeWhile continuesNumber).count '.') :
    pullAll ⟨c :: text, position⟩ =
      [.failed ⟨.malformedNumber (c :: text.takeWhile continuesNumber), some position⟩] := by
  apply pullAll_of_failed
  rw [pull_of_digit h, pullNumber, if_pos hpoints]

theorem pullAll_of_unexpected (hskip : isSkipped c = false) (hkind : TokenKind.ofChar? c = none)
    (hdigit : c.isDigit = false) :
    pullAll ⟨c :: text, position⟩ = [.failed ⟨.unexpectedCharacter c, some position⟩] := by
  apply pullAll_of_failed
  simp [pull, pullFrom, hskip, hkind, hdigit]
  rfl

/-- Induction on a text, one lexeme at a time: a blank, a symbol, a run of digits and points, or a
character that begins no lexeme. -/
theorem lexeme_induction {motive : List Char → Prop} (nil : motive [])
    (skipped : ∀ c text, isSkipped c = true → motive text → motive (c :: text))
    (symbol : ∀ c kind text, TokenKind.ofChar? c = some kind → motive text → motive (c :: text))
    (digit : ∀ c text, c.isDigit = true → motive (text.dropWhile continuesNumber) →
      motive (c :: text))
    (unexpected : ∀ c text, isSkipped c = false → TokenKind.ofChar? c = none →
      c.isDigit = false → motive (c :: text)) (text : List Char) : motive text := by
  generalize hn : text.length = n
  induction n using Nat.strongRecOn generalizing text with
  | ind n ih =>
    cases text with
    | nil => exact nil
    | cons c text =>
      rw [List.length_cons] at hn
      have htext : motive text := ih text.length (by omega) text rfl
      cases hskip : isSkipped c with
      | true => exact skipped c text hskip htext
      | false =>
        cases hkind : TokenKind.ofChar? c with
        | some kind => exact symbol c kind text hkind htext
        | none =>
          cases hdigit : c.isDigit with
          | true =>
            have hle := (List.dropWhile_sublist (l := text) continuesNumber).length_le
            exact digit c text hdigit (ih _ (by omega) _ rfl)
          | false => exact unexpected c text hskip hkind hdigit

/-! ## Seams -/

/-- The last character of the first text and the first one of the second text may belong to one
number literal. -/
def Joins (text more : List Char) : Prop :=
  ∃ c ∈ text.getLast?, ∃ c' ∈ more.head?, continuesNumber c = true ∧ continuesNumber c' = true

theorem Joins.of_suffix {tail : List Char} (h : Joins tail more) (hs : tail <:+ text) :
    Joins text more := by
  obtain ⟨front, rfl⟩ := hs
  obtain ⟨c, hc, hmore⟩ := h
  refine ⟨c, ?_, hmore⟩
  rw [Option.mem_def] at hc ⊢
  rw [List.getLast?_append, hc, Option.some_or]

theorem Joins.of_append {front tail : List Char} (h : Joins (front ++ tail) more)
    (hne : tail ≠ []) : Joins tail more := by
  obtain ⟨c, hc, hmore⟩ := h
  refine ⟨c, ?_, hmore⟩
  rwa [List.getLast?_append, List.getLast?_eq_some_getLast hne, Option.some_or,
    ← List.getLast?_eq_some_getLast hne] at hc

theorem not_joins_of_last (text : List Char) (hc : continuesNumber c = false) :
    ¬Joins (text ++ [c]) more := by
  rintro ⟨c', hc', -, -, hcont, -⟩
  obtain rfl : c = c' := by simpa using hc'
  simp [hc] at hcont

theorem not_joins_of_first (hc : continuesNumber c = false) : ¬Joins text (c :: more) := by
  rintro ⟨-, -, c', hc', -, hcont⟩
  obtain rfl : c = c' := by simpa using hc'
  simp [hc] at hcont

theorem not_joins_nil : ¬Joins [] more := by
  rintro ⟨c, hc, -⟩
  simp at hc

/-- The run of digits and points that goes on in a text ends there, or at its end. -/
theorem run_append (hc : continuesNumber c = true) (h : ¬Joins (c :: text) more) :
    (text ++ more).takeWhile continuesNumber = text.takeWhile continuesNumber ∧
      (text ++ more).dropWhile continuesNumber = text.dropWhile continuesNumber ++ more := by
  induction text generalizing c with
  | nil =>
    cases more with
    | nil => exact ⟨rfl, rfl⟩
    | cons c' more =>
      cases hc' : continuesNumber c' with
      | true => exact absurd ⟨c, rfl, c', rfl, hc, hc'⟩ h
      | false => simp [hc']
  | cons a text ih =>
    cases ha : continuesNumber a with
    | true =>
      obtain ⟨htake, hdrop⟩ := ih ha fun hj => h (hj.of_suffix (List.suffix_cons c _))
      simp [ha, htake, hdrop]
    | false => simp [ha]

/-- The results before exhaustion, and behind them those of `more`. -/
def thenPulls : List Pull → List Pull → List Pull
  | .token t :: pulls, more => .token t :: thenPulls pulls more
  | .exhausted :: _, more => more
  | .failed fault :: _, _ => [.failed fault]
  | [], _ => []

@[simp] theorem thenPulls_tokens (tokens : List Token) (more : List Pull) :
    thenPulls (tokens.map .token ++ [.exhausted]) more = tokens.map .token ++ more := by
  induction tokens with
  | nil => rfl
  | cons token tokens ih => exact congrArg (Pull.token token :: ·) ih

/-- Where no number runs over the seam, two texts are divided into tokens one after the other. -/
theorem pullAll_append (h : ¬Joins text more) (position : Nat) :
    pullAll ⟨text ++ more, position⟩ =
      thenPulls (pullAll ⟨text, position⟩) (pullAll ⟨more, position + text.length⟩) := by
  induction text using lexeme_induction generalizing position with
  | nil => rfl
  | skipped c text hskip ih =>
    have hstep := ih (fun hj => h (hj.of_suffix (List.suffix_cons c text))) (position + 1)
    rw [List.cons_append, pullAll_of_skipped hskip, pullAll_of_skipped hskip, hstep,
      List.length_cons, Nat.add_right_comm, Nat.add_assoc]
  | symbol c kind text hkind ih =>
    have hstep := ih (fun hj => h (hj.of_suffix (List.suffix_cons c text))) (position + 1)
    rw [List.cons_append, pullAll_of_symbol hkind, pullAll_of_symbol hkind, hstep, thenPulls,
      List.length_cons, Nat.add_right_comm, Nat.add_assoc]
  | digit c text hdigit ih =>
    obtain ⟨htake, hdrop⟩ := run_append (by simp [continuesNumber, hdigit]) h
    have hlen : (c :: text.takeWhile continuesNumber).length
        + (text.dropWhile continuesNumber).length = (c :: text).length := by
      have := congrArg List.length
        (List.takeWhile_append_dropWhile (p := continuesNumber) (l := text))
      simp only [List.length_append, List.length_cons] at this ⊢
      omega
    by_cases hpoints : (c :: text.takeWhile continuesNumber).count '.' ≤ 1
    · have hsuffix : text.dropWhile continuesNumber <:+ c :: text :=
        (List.dropWhile_suffix _).trans (List.suffix_cons c text)
      rw [List.cons_append, pullAll_of_number hdigit (by rwa [htake]),
        pullAll_of_number hdigit hpoints, thenPulls, htake, hdrop,
        ih fun hj => h (hj.of_suffix hsuffix), Nat.add_assoc, hlen]
    · rw [Nat.not_le] at hpoints
      rw [List.cons_append, pullAll_of_malformed hdigit (by rwa [htake]),
        pullAll_of_malformed hdigit hpoints, thenPulls, htake]
  | unexpected c text hskip hkind hdigit =>
    rw [List.cons_append, pullAll_of_unexpected hskip hkind hdigit,
      pullAll_of_unexpected hskip hkind hdigit]
    rfl

/-! ## Lexemes as parts of a text -/

theorem not_joins_of_skipped {blanks : List Char} (h : ∀ c ∈ blanks, isSkipped c = true) :
    ¬Joins text blanks := by
  cases blanks with
  | nil =>
    rintro ⟨-, -, c, hc, -⟩
    simp at hc
  | cons c blanks =>
    have hc := h c (by simp)
    refine not_joins_of_first ?_
    simp only [isSkipped, Bool.or_eq_true, beq_iff_eq] at hc
    obtain ((rfl | rfl) | rfl) | rfl := hc <;> rfl

theorem pullAll_of_all_skipped {blanks : List Char} (h : ∀ c ∈ blanks, isSkipped c = true)
    (position : Nat) : pullAll ⟨blanks, position⟩ = [.exhausted] := by
  induction blanks generalizing position with
  | nil => rfl
  | cons c blanks ih =>
    rw [List.forall_mem_cons] at h
    rw [pullAll_of_skipped h.1, ih h.2]

theorem takeWhile_of_all (h : ∀ c ∈ text, continuesNumber c = true) :
    text.takeWhile continuesNumber = text := by
  have htake : (text ++ []).takeWhile continuesNumber = text ++ [].takeWhile continuesNumber :=
    List.takeWhile_append_of_pos h
  simpa using htake

theorem dropWhile_of_all (h : ∀ c ∈ text, continuesNumber c = true) :
    text.dropWhile continuesNumber = [] := by
  have hdrop : (text ++ []).dropWhile continuesNumber = [].dropWhile continuesNumber :=
    List.dropWhile_append_of_pos h
  simpa using hdrop

theorem takeWhile_run_eq (text : List Char) :
    (text.takeWhile continuesNumber).takeWhile continuesNumber = text.takeWhile continuesNumber ∧
      (text.takeWhile continuesNumber).dropWhile continuesNumber = [] := by
  have hall : ∀ c ∈ text.takeWhile continuesNumber, continuesNumber c = true :=
    fun c hc => List.all_eq_true.1 List.all_takeWhile c hc
  exact ⟨takeWhile_of_all hall, dropWhile_of_all hall⟩

/-- A number literal of a text is followed by a character that cannot belong to it. -/
theorem not_joins_dropWhile (text : List Char) (lexeme : List Char) :
    ¬Joins lexeme (text.dropWhile continuesNumber) := by
  rintro ⟨-, -, c, hc, -, hcont⟩
  have := List.head?_dropWhile_not continuesNumber text
  rw [Option.mem_def] at hc
  simp [hc, hcont] at this

/-- At `position` stand blanks and the lexeme of the token, which ends before `rest`. -/
structure FirstLexeme (token : Token) (position : Nat) (blanks lexeme rest : List Char) :
    Prop where
  skipped : ∀ c ∈ blanks, isSkipped c = true
  position_eq : token.position = position + blanks.length
  alone : pullAll ⟨blanks ++ lexeme, position⟩ = [.token token, .exhausted]
  lexeme_ne : lexeme ≠ []
  not_joins : ¬Joins lexeme rest
  literal : token.kind = .num → ∀ c ∈ lexeme, continuesNumber c = true

/-- The run of digits and points that begins with a literal is the literal. -/
theorem FirstLexeme.dropWhile_literal {token : Token} {blanks lexeme rest : List Char}
    (h : FirstLexeme token position blanks lexeme rest) (hnum : token.kind = .num) :
    (lexeme ++ rest).dropWhile continuesNumber = rest := by
  have hall := h.literal hnum
  have hjoins := h.not_joins
  obtain ⟨c, digits, rfl⟩ := List.exists_cons_of_ne_nil h.lexeme_ne
  rw [List.forall_mem_cons] at hall
  rw [List.cons_append, List.dropWhile_cons_of_pos hall.1, (run_append hall.1 hjoins).2,
    dropWhile_of_all hall.2, List.nil_append]

theorem exists_firstLexeme {token : Token} {pulls : List Pull}
    (h : pullAll ⟨text, position⟩ = .token token :: pulls) :
    ∃ blanks lexeme rest, text = blanks ++ lexeme ++ rest ∧
      FirstLexeme token position blanks lexeme rest ∧
      pullAll ⟨rest, position + (blanks ++ lexeme).length⟩ = pulls := by
  induction text using lexeme_induction generalizing position with
  | nil => simp [pullAll_nil] at h
  | skipped c text hskip ih =>
    rw [pullAll_of_skipped hskip] at h
    obtain ⟨blanks, lexeme, rest, rfl, hfirst, hrest⟩ := ih h
    refine ⟨c :: blanks, lexeme, rest, rfl,
      ⟨?_, ?_, ?_, hfirst.lexeme_ne, hfirst.not_joins, hfirst.literal⟩, ?_⟩
    · exact List.forall_mem_cons.2 ⟨hskip, hfirst.skipped⟩
    · rw [hfirst.position_eq, List.length_cons]
      omega
    · rw [List.cons_append, pullAll_of_skipped hskip, hfirst.alone]
    · rw [← hrest, List.cons_append, List.length_cons]
      congr 2
      omega
  | symbol c kind text hkind ih =>
    rw [pullAll_of_symbol hkind] at h
    obtain ⟨rfl, rfl⟩ := by simpa using h
    refine ⟨[], [c], text, rfl, ⟨by simp, rfl, pullAll_of_symbol hkind, by simp, ?_, ?_⟩, rfl⟩
    · exact not_joins_of_last [] (continuesNumber_of_ofChar? hkind)
    · exact fun hnum => absurd hnum (kind_ne_num_of_ofChar? hkind)
  | digit c text hdigit ih =>
    by_cases hpoints : (c :: text.takeWhile continuesNumber).count '.' ≤ 1
    · rw [pullAll_of_number hdigit hpoints] at h
      obtain ⟨rfl, rfl⟩ := by simpa using h
      refine ⟨[], c :: text.takeWhile continuesNumber, text.dropWhile continuesNumber, by simp,
        ⟨by simp, rfl, ?_, by simp, not_joins_dropWhile text _, fun _ => ?_⟩, rfl⟩
      · obtain ⟨htake, hdrop⟩ := takeWhile_run_eq text
        rw [List.nil_append, pullAll_of_number hdigit (by rwa [htake]), htake, hdrop, pullAll_nil]
      · exact List.forall_mem_cons.2 ⟨by simp [continuesNumber, hdigit],
          fun c hc => List.all_eq_true.1 List.all_takeWhile c hc⟩
    · rw [pullAll_of_malformed hdigit (Nat.not_le.1 hpoints)] at h
      simp at h
  | unexpected c text hskip hkind hdigit =>
    rw [pullAll_of_unexpected hskip hkind hdigit] at h
    simp at h

/-- Wherever the pulls at a text are divided behind tokens, the text can be divided too. -/
theorem exists_seam {tokens : List Token} {pulls : List Pull}
    (h : pullAll ⟨text, position⟩ = tokens.map .token ++ pulls) :
    ∃ front rest, text = front ++ rest ∧ ¬Joins front rest ∧
      pullAll ⟨front, position⟩ = tokens.map .token ++ [.exhausted] ∧
      pullAll ⟨rest, position + front.length⟩ = pulls := by
  induction tokens generalizing text position with
  | nil => exact ⟨[], text, rfl, not_joins_nil, rfl, h⟩
  | cons token tokens ih =>
    obtain ⟨blanks, lexeme, rest, rfl, hfirst, hrest⟩ := exists_firstLexeme h
    obtain ⟨front, rest, rfl, hseam, hfront, hpulls⟩ := ih hrest
    have hjoins : ¬Joins (blanks ++ lexeme) front := fun hj => by
      refine hfirst.not_joins ?_
      obtain ⟨c, hc, c', hc', hcont⟩ := hj.of_append hfirst.lexeme_ne
      exact ⟨c, hc, c', by simp_all, hcont⟩
    refine ⟨blanks ++ lexeme ++ front, rest, by simp, fun hj => ?_, ?_, ?_⟩
    · cases front with
      | nil =>
        rw [List.append_nil] at hj
        exact hfirst.not_joins (hj.of_append hfirst.lexeme_ne)
      | cons c front => exact hseam (hj.of_append (by simp))
    · rw [pullAll_append hjoins, hfirst.alone, hfront]
      rfl
    · have hlen : (blanks ++ lexeme ++ front).length = (blanks ++ lexeme).length + front.length :=
        List.length_append
      rw [← hpulls, hlen, Nat.add_assoc]

end Cursor

/-! ## Texts wherever they stand -/

def Token.bare (t : Token) : Token := { t with position := 0 }

@[simp] theorem Token.kind_bare (t : Token) : t.bare.kind = t.kind := rfl

@[simp] theorem Token.number_bare (t : Token) : t.bare.number = t.number := rfl

def Pull.bare : Pull → Pull
  | token t => .token t.bare
  | exhausted => exhausted
  | failed fault => .failed ⟨fault.cause, none⟩

namespace Cursor

variable {text more : List Char} {lexemes lexemes' : List Token}

theorem map_bare_pullAll (text : List Char) (position position' : Nat) :
    (pullAll ⟨text, position⟩).map Pull.bare = (pullAll ⟨text, position'⟩).map Pull.bare := by
  induction text using lexeme_induction generalizing position position' with
  | nil => rfl
  | skipped c text hskip ih => rw [pullAll_of_skipped hskip, pullAll_of_skipped hskip, ih]
  | symbol c kind text hkind ih =>
    rw [pullAll_of_symbol hkind, pullAll_of_symbol hkind, List.map_cons, List.map_cons,
      ih _ (position' + 1)]
    rfl
  | digit c text hdigit ih =>
    by_cases hpoints : (c :: text.takeWhile continuesNumber).count '.' ≤ 1
    · rw [pullAll_of_number hdigit hpoints, pullAll_of_number hdigit hpoints, List.map_cons,
        List.map_cons, ih]
      rfl
    · rw [Nat.not_le] at hpoints
      rw [pullAll_of_malformed hdigit hpoints, pullAll_of_malformed hdigit hpoints]
      rfl
  | unexpected c text hskip hkind hdigit =>
    rw [pullAll_of_unexpected hskip hkind hdigit, pullAll_of_unexpected hskip hkind hdigit]
    rfl

theorem map_bare_thenPulls (pulls pulls' : List Pull) :
    (thenPulls pulls pulls').map Pull.bare =
      thenPulls (pulls.map Pull.bare) (pulls'.map Pull.bare) := by
  induction pulls with
  | nil => rfl
  | cons pull pulls ih =>
    cases pull with
    | token t => exact congrArg (Pull.token t.bare :: ·) ih
    | exhausted => rfl
    | failed fault => rfl

/-- A text without faulty lexemes, with the tokens that it is divided into wherever it stands. -/
def Lexes (text : List Char) (lexemes : List Token) : Prop :=
  ∀ position, (pullAll ⟨text, position⟩).map Pull.bare = lexemes.map .token ++ [.exhausted]

namespace Lexes

theorem of_pullAll {position : Nat} {tokens : List Token}
    (h : pullAll ⟨text, position⟩ = tokens.map .token ++ [.exhausted]) :
    Lexes text (tokens.map Token.bare) := fun position' => by
  rw [map_bare_pullAll text position' position, h]
  simp [Pull.bare, Function.comp_def]

theorem exists_tokens (h : Lexes text lexemes) (position : Nat) :
    ∃ tokens : List Token, pullAll ⟨text, position⟩ = tokens.map .token ++ [.exhausted] ∧
      tokens.map Token.bare = lexemes := by
  replace h := h position
  generalize pullAll ⟨text, position⟩ = pulls at h
  induction lexemes generalizing pulls with
  | nil =>
    obtain ⟨pull, rfl⟩ : ∃ pull, pulls = [pull] := by
      match pulls with
      | [pull] => exact ⟨pull, rfl⟩
      | [] => simp at h
      | _ :: _ :: _ => simp at h
    cases pull <;> simp [Pull.bare] at h
    exact ⟨[], rfl, rfl⟩
  | cons lexeme lexemes ih =>
    match pulls with
    | [] => simp at h
    | .token t :: pulls =>
      rw [List.map_cons, List.map_cons, List.cons_append, List.cons.injEq] at h
      obtain ⟨tokens, rfl, rfl⟩ := ih pulls h.2
      exact ⟨t :: tokens, rfl, by rw [List.map_cons, Pull.token.inj h.1]⟩
    | .exhausted :: _ => simp [Pull.bare] at h
    | .failed _ :: _ => simp [Pull.bare] at h

theorem append (h : Lexes text lexemes) (h' : Lexes more lexemes') (hj : ¬Joins text more) :
    Lexes (text ++ more) (lexemes ++ lexemes') := fun position => by
  rw [pullAll_append hj, map_bare_thenPulls, h, h', thenPulls_tokens]
  simp

theorem symbol {c : Char} {kind : TokenKind} (h : TokenKind.ofChar? c = some kind) :
    Lexes [c] [⟨kind, none, 0⟩] := fun position => by
  rw [pullAll_of_symbol h]
  rfl

theorem blank {c : Char} (h : isSkipped c = true) : Lexes [c] [] := fun position => by
  rw [pullAll_of_skipped h]
  rfl

theorem append_symbol {c : Char} {kind : TokenKind} (h : Lexes text lexemes)
    (hc : TokenKind.ofChar? c = some kind) : Lexes (text ++ [c]) (lexemes ++ [⟨kind, none, 0⟩]) :=
  h.append (symbol hc) (not_joins_of_first (continuesNumber_of_ofChar? hc))

theorem symbol_append {c : Char} {kind : TokenKind} (h : Lexes text lexemes)
    (hc : TokenKind.ofChar? c = some kind) : Lexes (c :: text) (⟨kind, none, 0⟩ :: lexemes) :=
  (symbol hc).append h (not_joins_of_last [] (continuesNumber_of_ofChar? hc))

end Lexes

end Cursor

end InfixCalculator
