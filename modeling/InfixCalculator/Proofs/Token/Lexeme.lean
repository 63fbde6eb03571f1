import Mathlib.Data.List.DropRight
import InfixCalculator.Proofs.Token.Concatenation

/-!
# Lexemes

Behind blanks stands a lexeme: a run of digits and points that begins with a digit, or a single
character.  A pull yields what the lexeme stands for, and the cursor is moved right behind it.
-/

namespace InfixCalculator

def Pull.column? : Pull → Option Nat
  | token t => some t.position
  | exhausted => none
  | failed fault => fault.column

namespace Cursor

def lexeme : List Char → List Char
  | [] => []
  | c :: text => if c.isDigit then c :: text.takeWhile continuesNumber else [c]

/-- Whether a text that follows a lexeme would be a part of it. -/
def extendsLexeme (lexeme more : List Char) : Bool :=
  lexeme.head?.any Char.isDigit && more.head?.any continuesNumber

/-- The column behind the lexeme that begins at a column of a text. -/
def lexemeEnd (text : List Char) (column : Nat) : Nat :=
  column + (lexeme (text.drop column)).length

def along (text : List Char) (column : Nat) : Cursor := ⟨text.drop column, column⟩

/-- What the lexeme at a column stands for. -/
def lexemePull (lexeme : List Char) (column : Nat) : Pull :=
  match lexeme with
  | [] => .exhausted
  | c :: _ =>
    match TokenKind.ofChar? c with
    | some kind => .token ⟨kind, none, column⟩
    | none =>
      if c.isDigit then
        if 1 < lexeme.count '.' then .failed ⟨.malformedNumber lexeme, some column⟩
        else .token ⟨.num, some (.ofLiteral lexeme), column⟩
      else .failed ⟨.unexpectedCharacter c, some column⟩

def blanks (text : List Char) : List Char := text.takeWhile isSkipped

def unblanked (text : List Char) : List Char := text.dropWhile isSkipped

variable {text more : List Char} {c : Char} {position column : Nat} {t : Token} {next : Cursor}

theorem drop_takeWhile (p : Char → Bool) (text : List Char) :
    text.drop (text.takeWhile p).length = text.dropWhile p := by
  have hsplit := List.takeWhile_append_dropWhile (p := p) (l := text)
  calc text.drop (text.takeWhile p).length
      = (text.takeWhile p ++ text.dropWhile p).drop (text.takeWhile p).length := by rw [hsplit]
    _ = text.dropWhile p := List.drop_left

theorem blanks_append_unblanked (text : List Char) : blanks text ++ unblanked text = text :=
  List.takeWhile_append_dropWhile

theorem lexeme_digit (h : c.isDigit = true) :
    lexeme (c :: text) = c :: text.takeWhile continuesNumber := if_pos h

theorem lexeme_single (h : c.isDigit = false) : lexeme (c :: text) = [c] := by simp [lexeme, h]

theorem lexeme_isPrefix (text : List Char) : lexeme text <+: text := by
  cases text with
  | nil => exact List.prefix_rfl
  | cons c text =>
    cases hdigit : c.isDigit with
    | true =>
      rw [lexeme_digit hdigit]
      exact (List.prefix_cons_inj c).2 (List.takeWhile_prefix _)
    | false =>
      rw [lexeme_single hdigit]
      exact ⟨text, rfl⟩

theorem lexeme_ne_nil (c : Char) (text : List Char) : lexeme (c :: text) ≠ [] := by
  rw [lexeme]
  split <;> simp

theorem not_isSkipped_of_unblanked {tail : List Char} (h : unblanked text = c :: tail) :
    isSkipped c = false := by
  have hhead := List.head?_dropWhile_not isSkipped text
  unfold unblanked at h
  simpa [h] using hhead

theorem pull_unblanked (text : List Char) (position : Nat) :
    pull ⟨text, position⟩ = pull ⟨unblanked text, position + (blanks text).length⟩ := by
  induction text generalizing position with
  | nil => rfl
  | cons c text ih =>
    unfold blanks unblanked at *
    cases hskip : isSkipped c with
    | true =>
      rw [pull_of_skipped hskip, List.dropWhile_cons_of_pos hskip, List.takeWhile_cons_of_pos hskip,
        ih, List.length_cons, Nat.add_right_comm, Nat.add_assoc]
    | false =>
      simp [hskip]

theorem isDigit_of_ofChar? {kind : TokenKind} (h : TokenKind.ofChar? c = some kind) :
    c.isDigit = false := by
  cases hdigit : c.isDigit with
  | true => simp [ofChar?_of_isDigit hdigit] at h
  | false => rfl

theorem pullAll_unblanked (text : List Char) (position : Nat) :
    pullAll ⟨text, position⟩ = pullAll ⟨unblanked text, position + (blanks text).length⟩ := by
  rw [pullAll_eq, pullAll_eq, pull_unblanked]

theorem pull_cons (hskip : isSkipped c = false) (text : List Char) (position : Nat) :
    pull ⟨c :: text, position⟩ = (lexemePull (lexeme (c :: text)) position,
      match lexemePull (lexeme (c :: text)) position with
      | .token _ => ⟨(c :: text).drop (lexeme (c :: text)).length,
          position + (lexeme (c :: text)).length⟩
      | _ => ⟨[], position⟩) := by
  cases hkind : TokenKind.ofChar? c with
  | some kind =>
    simp [pull, pullFrom, hskip, hkind, lexeme_single (isDigit_of_ofChar? hkind), lexemePull]
  | none =>
    cases hdigit : c.isDigit with
    | false =>
      simp [pull, pullFrom, hskip, hkind, hdigit, lexeme_single hdigit, lexemePull]
    | true =>
      rw [pull_of_digit hdigit, pullNumber, lexeme_digit hdigit, lexemePull]
      by_cases hpoints : 1 < (c :: text.takeWhile continuesNumber).count '.'
      · simp [hkind, hdigit, hpoints]
      · simp [hkind, hdigit, hpoints, drop_takeWhile]

/-- What stands behind the blanks of a text decides what a pull yields. -/
theorem pull_fst (text : List Char) (position : Nat) :
    (pull ⟨text, position⟩).1 =
      lexemePull (lexeme (unblanked text)) (position + (blanks text).length) := by
  rw [pull_unblanked]
  cases htail : unblanked text with
  | nil => rfl
  | cons c tail => rw [pull_cons (not_isSkipped_of_unblanked htail)]

theorem unblanked_drop (text : List Char) (column : Nat) :
    unblanked (text.drop column) = text.drop (column + (blanks (text.drop column)).length) := by
  rw [unblanked, ← drop_takeWhile, List.drop_drop, blanks]

theorem position_of_lexemePull {lexeme : List Char} (h : lexemePull lexeme column = .token t) :
    t.position = column := by
  unfold lexemePull at h
  grind

/-- A token of a text stands at its lexeme, and the cursor is moved behind the lexeme. -/
theorem pull_along (h : pull (along text column) = (.token t, next)) :
    column ≤ t.position ∧ t.position < text.length ∧
      lexemePull (lexeme (text.drop t.position)) t.position = .token t ∧
      next = along text (lexemeEnd text t.position) := by
  have hblanks := unblanked_drop text column
  rw [along, pull_unblanked] at h
  generalize hstart : column + (blanks (text.drop column)).length = start at *
  cases htail : unblanked (text.drop column) with
  | nil =>
    rw [htail] at h
    simp [pull, pullFrom] at h
  | cons c tail =>
    rw [htail, pull_cons (not_isSkipped_of_unblanked htail), ← htail, hblanks] at h
    obtain ⟨htoken, hnext⟩ := Prod.mk.inj h
    have hposition := position_of_lexemePull htoken
    rw [htoken] at hnext
    subst hposition
    refine ⟨by omega, ?_, htoken, ?_⟩
    · rw [hblanks] at htail
      exact List.length_lt_of_drop_ne_nil (by simp [htail])
    · rw [← hnext, along, lexemeEnd, List.drop_drop]

theorem pull_along_exhausted (hcolumn : column ≤ text.length)
    (h : pull (along text column) = (.exhausted, next)) : next = along text text.length := by
  have hblanks := unblanked_drop text column
  have hlen := congrArg List.length (blanks_append_unblanked (text.drop column))
  rw [along, pull_unblanked] at h
  cases htail : unblanked (text.drop column) with
  | nil =>
    rw [htail] at h hlen
    simp only [List.append_nil, List.length_drop] at hlen
    rw [hlen, Nat.add_sub_cancel' hcolumn] at h
    obtain rfl := by simpa [pull, pullFrom] using h
    simp [along]
  | cons c tail =>
    rw [htail, pull_cons (not_isSkipped_of_unblanked htail)] at h
    have hnone := (Prod.mk.inj h).1
    unfold lexemePull at hnone
    grind [lexeme_ne_nil]

theorem rest_of_pull {cursor : Cursor} {result : Pull} (h : cursor.pull = (result, next))
    (hresult : ∀ t, result ≠ .token t) : next.rest = [] := by
  obtain ⟨text, position⟩ := cursor
  rw [pull_unblanked] at h
  cases htail : unblanked text with
  | nil =>
    obtain ⟨-, rfl⟩ := by simpa [htail, pull, pullFrom] using h
    rfl
  | cons c tail =>
    rw [htail, pull_cons (not_isSkipped_of_unblanked htail)] at h
    obtain ⟨rfl, rfl⟩ := Prod.mk.inj h
    split
    · next t ht => exact absurd ht (hresult t)
    · rfl

theorem column_of_lexemePull {lexeme : List Char} (h : lexeme ≠ []) :
    (lexemePull lexeme column).column? = some column := by
  unfold lexemePull
  grind [Pull.column?]

theorem lexemePull_eq_exhausted {lexeme : List Char} (h : lexemePull lexeme column = .exhausted) :
    lexeme = [] := by
  unfold lexemePull at h
  grind

/-! ## Texts that agree up to a column -/

theorem continuesNumber_of_isSkipped (h : isSkipped c = true) : continuesNumber c = false := by
  simp only [isSkipped, Bool.or_eq_true, beq_iff_eq] at h
  obtain ((rfl | rfl) | rfl) | rfl := h <;> rfl

theorem isSkipped_of_mem_blanks (h : c ∈ blanks text) : isSkipped c = true :=
  List.all_eq_true.1 List.all_takeWhile c h

theorem exists_column {tokens : List Token} {pulls : List Pull}
    (h : pullAll ⟨text, 0⟩ = tokens.map .token ++ pulls) :
    ∃ column ≤ text.length, pullAll ⟨text.take column, 0⟩ = tokens.map .token ++ [.exhausted] ∧
      ¬Joins (text.take column) (text.drop column) ∧
      unblanked (text.drop column) = text.drop column ∧ pullAll (along text column) = pulls := by
  obtain ⟨front, rest, rfl, hseam, hfront, hrest⟩ := exists_seam h
  have hsplit : front ++ rest = (front ++ blanks rest) ++ unblanked rest := by
    rw [List.append_assoc, blanks_append_unblanked]
  refine ⟨(front ++ blanks rest).length, by rw [hsplit]; simp, ?_⟩
  rw [hsplit, along, List.take_left, List.drop_left]
  have hskipped : ∀ c ∈ blanks rest, isSkipped c = true := fun c => isSkipped_of_mem_blanks
  refine ⟨?_, ?_, ?_, ?_⟩
  · rw [pullAll_append (not_joins_of_skipped hskipped), hfront,
      pullAll_of_all_skipped hskipped, thenPulls_tokens]
  · cases hblanks : (blanks rest).getLast? with
    | none =>
      rw [List.getLast?_eq_none_iff] at hblanks
      have hrest := blanks_append_unblanked rest
      rw [hblanks, List.nil_append] at hrest
      rwa [hblanks, List.append_nil, hrest]
    | some c =>
      have hc := continuesNumber_of_isSkipped (hskipped c (List.mem_of_getLast? hblanks))
      rintro ⟨c', hc', -, -, hcont, -⟩
      rw [List.getLast?_append, hblanks, Option.some_or, Option.mem_some_iff] at hc'
      rw [← hc', hc] at hcont
      contradiction
  · exact List.dropWhile_idempotent _ _
  · rw [List.length_append, ← hrest, Nat.zero_add, ← pullAll_unblanked]

theorem pull_fst_of_unblanked (h : unblanked text = text) (position : Nat) :
    (pull ⟨text, position⟩).1 = lexemePull (lexeme text) position := by
  have hblanks := congrArg List.length (blanks_append_unblanked text)
  rw [h, List.length_append] at hblanks
  rw [pull_fst, h, show (blanks text).length = 0 by omega, Nat.add_zero]

theorem Joins.congr_head? {more' : List Char} (h : Joins text more)
    (heq : more.head? = more'.head?) : Joins text more' := by
  unfold Joins at *
  rwa [← heq]

theorem fst_of_pullAll {cursor : Cursor} {head : Pull} {pulls : List Pull}
    (h : cursor.pullAll = head :: pulls) : cursor.pull.1 = head := by
  rw [pullAll_eq] at h
  split at h <;> simp_all

theorem exists_pullAll_of_fst {cursor : Cursor} {head : Pull} (h : cursor.pull.1 = head) :
    ∃ pulls, cursor.pullAll = head :: pulls ∧ ((∀ t, head ≠ .token t) → pulls = []) := by
  subst h
  rw [pullAll_eq]
  split
  · next t next hpull => exact ⟨_, by rw [hpull], fun hne => absurd (by rw [hpull]) (hne t)⟩
  · next result next _ hpull => exact ⟨[], by rw [hpull], fun _ => rfl⟩

theorem unblanked_eq_self_iff : unblanked text = text ↔ ∀ c ∈ text.head?, isSkipped c = false := by
  cases text with
  | nil => simp [unblanked]
  | cons c text =>
    have hlen := (List.dropWhile_sublist (l := text) isSkipped).length_le
    cases hskip : isSkipped c with
    | true =>
      refine ⟨fun h => ?_, fun h => by simp [hskip] at h⟩
      rw [unblanked, List.dropWhile_cons_of_pos hskip] at h
      rw [h, List.length_cons] at hlen
      omega
    | false => simp [unblanked, hskip]

theorem not_extendsLexeme_drop (text : List Char) :
    extendsLexeme (lexeme text) (text.drop (lexeme text).length) = false := by
  cases text with
  | nil => rfl
  | cons c text =>
    cases hdigit : c.isDigit with
    | true =>
      have hhead := List.head?_dropWhile_not continuesNumber text
      rw [lexeme_digit hdigit, List.length_cons, List.drop_succ_cons, drop_takeWhile]
      cases hdrop : text.dropWhile continuesNumber <;> simp_all [extendsLexeme]
    | false => simp [lexeme_single hdigit, extendsLexeme, hdigit]

/-- A lexeme stays the same before a text that is no part of it. -/
theorem lexeme_append (h : extendsLexeme (lexeme (c :: text)) more = false) :
    lexeme (lexeme (c :: text) ++ more) = lexeme (c :: text) := by
  cases hdigit : c.isDigit with
  | true =>
    have hmore : more.takeWhile continuesNumber = [] := by
      cases more <;> simp_all [extendsLexeme, lexeme_digit]
    rw [lexeme_digit hdigit, List.cons_append, lexeme_digit hdigit,
      List.takeWhile_append_of_pos fun c hc => List.all_eq_true.1 List.all_takeWhile c hc, hmore,
      List.append_nil]
  | false => rw [lexeme_single hdigit, List.singleton_append, lexeme_single hdigit]

theorem head?_lexeme_append (c : Char) (text more : List Char) :
    (lexeme (c :: text) ++ more).head? = some c := by
  rw [lexeme]
  split <;> rfl

theorem take_lexemeEnd (text : List Char) (column : Nat) :
    text.take (lexemeEnd text column) = text.take column ++ lexeme (text.drop column) := by
  rw [lexemeEnd, List.take_add, ← List.prefix_iff_eq_take.1 (lexeme_isPrefix _)]

theorem lexemeEnd_le (h : column ≤ text.length) : lexemeEnd text column ≤ text.length := by
  have hlen := (lexeme_isPrefix (text.drop column)).length_le
  rw [List.length_drop] at hlen
  unfold lexemeEnd
  omega

theorem lexemeEnd_length (text : List Char) : lexemeEnd text text.length = text.length := by
  rw [lexemeEnd, List.drop_length]
  rfl

theorem column_of_pullAll {head : Pull} {pulls : List Pull} (hcolumn : column ≤ text.length)
    (htail : unblanked (text.drop column) = text.drop column)
    (h : pullAll (along text column) = head :: pulls) :
    lexemePull (lexeme (text.drop column)) column = head ∧
      (head = .exhausted → column = text.length) ∧
      (head ≠ .exhausted → column < text.length ∧ head.column? = some column) := by
  have hfirst : lexemePull (lexeme (text.drop column)) column = head := by
    rw [← pull_fst_of_unblanked htail]
    exact fst_of_pullAll h
  refine ⟨hfirst, ?_, ?_⟩
  · rintro rfl
    have hnil := lexemePull_eq_exhausted hfirst
    cases hdrop : text.drop column with
    | nil => exact Nat.le_antisymm hcolumn (List.drop_eq_nil_iff.1 hdrop)
    | cons c tail => exact absurd (hdrop ▸ hnil) (lexeme_ne_nil c tail)
  · intro hhead
    cases hdrop : text.drop column with
    | nil => exact absurd hfirst.symm (by simpa [hdrop, lexeme, lexemePull] using hhead)
    | cons c tail =>
      refine ⟨List.length_lt_of_drop_ne_nil (by simp [hdrop]), ?_⟩
      rw [← hfirst, hdrop, column_of_lexemePull (lexeme_ne_nil c tail)]

/-- Up to the end of a lexeme, the pulls at a text do not depend on what follows it. -/
theorem pullAll_take_lexemeEnd {tokens : List Token} {head : Pull} {pulls more : List _}
    (hcolumn : head.column? = some column)
    (h : pullAll ⟨text, 0⟩ = tokens.map .token ++ head :: pulls)
    (hmore : extendsLexeme (lexeme (text.drop column)) more = false) :
    ∃ pulls', pullAll ⟨text.take (lexemeEnd text column) ++ more, 0⟩
        = tokens.map .token ++ head :: pulls' ∧ ((∀ t, head ≠ .token t) → pulls' = []) := by
  obtain ⟨column', hle, htake, hjoins, htail, hpulls⟩ := exists_column h
  have hhead : head ≠ .exhausted := fun heq => by simp [heq, Pull.column?] at hcolumn
  obtain ⟨hfirst, -, hlt⟩ := column_of_pullAll hle htail hpulls
  obtain rfl : column' = column := by simpa [(hlt hhead).2] using hcolumn
  have hne : text.drop column' ≠ [] := by simpa using (hlt hhead).1
  obtain ⟨c, tail, hdrop⟩ := List.exists_cons_of_ne_nil hne
  rw [hdrop] at hjoins htail hfirst hmore
  have hhead? := head?_lexeme_append c tail more
  have hseam : ¬Joins (text.take column') (lexeme (c :: tail) ++ more) := fun hj =>
    hjoins (hj.congr_head? (by rw [hhead?, List.head?_cons]))
  have hunblanked : unblanked (lexeme (c :: tail) ++ more) = lexeme (c :: tail) ++ more := by
    rw [unblanked_eq_self_iff, hhead?]
    simpa [unblanked_eq_self_iff] using htail
  have hpull := pull_fst_of_unblanked hunblanked column'
  rw [lexeme_append hmore, hfirst] at hpull
  obtain ⟨pulls', hpulls', hend⟩ := exists_pullAll_of_fst hpull
  refine ⟨pulls', ?_, hend⟩
  rw [take_lexemeEnd, hdrop, List.append_assoc, pullAll_append hseam, htake, thenPulls_tokens,
    Nat.zero_add, List.length_take_of_le hle, hpulls']

/-- A token that ends before a text ends stays the same in every longer text. -/
theorem pullAll_append_of_lexemeEnd_lt {tokens : List Token} {pulls : List Pull}
    (h : pullAll ⟨text, 0⟩ = tokens.map .token ++ .token t :: pulls)
    (hend : lexemeEnd text t.position < text.length) (more : List Char) :
    ∃ pulls', pullAll ⟨text ++ more, 0⟩ = tokens.map .token ++ .token t :: pulls' := by
  have hdrop : text.drop (lexemeEnd text t.position) ≠ [] := by simpa using hend
  have hmunch := not_extendsLexeme_drop (text.drop t.position)
  rw [List.drop_drop, ← lexemeEnd] at hmunch
  have hmore : extendsLexeme (lexeme (text.drop t.position))
      (text.drop (lexemeEnd text t.position) ++ more) = false := by
    rwa [extendsLexeme, List.head?_append_of_ne_nil _ hdrop]
  obtain ⟨pulls', hpulls', -⟩ := pullAll_take_lexemeEnd rfl h hmore
  refine ⟨pulls', ?_⟩
  rwa [← List.append_assoc, List.take_append_drop] at hpulls'

/-- Before a lexeme a text can be cut and go on with a blank and any other text. -/
theorem pullAll_take_skipped {tokens : List Token} {head : Pull} {pulls : List Pull}
    (hcolumn : head = .exhausted ∧ column = text.length ∨ head.column? = some column)
    (h : pullAll ⟨text, 0⟩ = tokens.map .token ++ head :: pulls) (hskip : isSkipped c = true)
    (more : List Char) : pullAll ⟨text.take column ++ c :: more, 0⟩ =
      tokens.map .token ++ pullAll ⟨more, column + 1⟩ := by
  obtain ⟨column', hle, htake, -, htail, hpulls⟩ := exists_column h
  obtain ⟨-, hend, hlt⟩ := column_of_pullAll hle htail hpulls
  obtain rfl : column' = column := by
    rcases hcolumn with ⟨rfl, rfl⟩ | hcolumn
    · exact hend rfl
    · have hhead : head ≠ .exhausted := fun heq => by simp [heq, Pull.column?] at hcolumn
      simpa [(hlt hhead).2] using hcolumn
  have hseam : ¬Joins (text.take column') (c :: more) :=
    not_joins_of_first (continuesNumber_of_isSkipped hskip)
  rw [pullAll_append hseam, htake, thenPulls_tokens, Nat.zero_add, List.length_take_of_le hle,
    pullAll_of_skipped hskip]

end Cursor

end InfixCalculator
