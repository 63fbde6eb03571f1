import InfixCalculator.Proofs.Token.Lexeme

/-!
# Number literals are safe

Two steps of taking a number literal have no result on some texts: matching a digit with the digits
and points behind it, and reading the literal as a number.  `Cursor.checkedPull` takes a token with
both steps checked.  They have results wherever they are taken, so it does what `Cursor.pull` does.
-/

namespace InfixCalculator

namespace Cursor

/-- A digit at the beginning of a text with the digits and points behind it. -/
def numberRun? : List Char → Option (List Char)
  | [] => none
  | c :: text => if c.isDigit then some (c :: text.takeWhile continuesNumber) else none

/-- Takes the number literal at the beginning of a text, unless it cannot be matched or read. -/
def checkedNumber (text : List Char) (position : Nat) : Option (Pull × Cursor) := do
  let literal ← numberRun? text
  if 1 < literal.count '.' then
    return (.failed ⟨.malformedNumber literal, some position⟩, ⟨[], position⟩)
  else
    let value ← Binary64.ofText? (String.ofList literal)
    return (.token ⟨.num, some value, position⟩,
      ⟨text.drop literal.length, position + literal.length⟩)

def checkedPullFrom : List Char → Nat → Option (Pull × Cursor)
  | [], position => some (.exhausted, ⟨[], position⟩)
  | c :: rest, position =>
    if isSkipped c then checkedPullFrom rest (position + 1)
    else
      match TokenKind.ofChar? c with
      | some kind => some (.token ⟨kind, none, position⟩, ⟨rest, position + 1⟩)
      | none =>
        if c.isDigit then checkedNumber (c :: rest) position
        else some (.failed ⟨.unexpectedCharacter c, some position⟩, ⟨[], position⟩)

def checkedPull (cursor : Cursor) : Option (Pull × Cursor) :=
  checkedPullFrom cursor.rest cursor.position

end Cursor

theorem Cursor.continuesNumber_of_isDigit {c : Char} (h : c.isDigit = true) :
    continuesNumber c = true := by
  simp [continuesNumber, h]

theorem Cursor.ne_of_continuesNumber {c c' : Char} (hc : Cursor.continuesNumber c = true)
    (hc' : Cursor.continuesNumber c' = false) : c ≠ c' := by
  rintro rfl
  simp [hc] at hc'

theorem Decimal.ofText?_literal {c : Char} {run : List Char} (hc : c.isDigit = true)
    (hrun : ∀ c' ∈ c :: run, Cursor.continuesNumber c' = true)
    (hpoints : (c :: run).count '.' ≤ 1) :
    Decimal.ofText? (c :: run) = some (.ofLiteral (c :: run)) := by
  have hmark : ∀ c' ∈ c :: run, (c' != 'e') = true := fun c' hc' =>
    bne_iff_ne.2 (Cursor.ne_of_continuesNumber (hrun c' hc') rfl)
  have hmantissa : (c :: run).takeWhile (· != 'e') = c :: run := List.takeWhile_eq_self_iff.2 hmark
  have hmarked : (c :: run).dropWhile (· != 'e') = [] := List.dropWhile_eq_nil_iff.2 hmark
  have hany : (c :: run).any Char.isDigit = true := List.any_eq_true.2 ⟨c, by simp, hc⟩
  have hall : (c :: run).all (fun c => c.isDigit || c == '.') = true := List.all_eq_true.2 hrun
  simp only [Decimal.ofText?, hmantissa, hmarked, hany, hall, hpoints, decide_true, Bool.and_self,
    if_true, List.isEmpty_nil]

namespace Binary64

theorem ofText?_literal {c : Char} {run : List Char} (hc : c.isDigit = true)
    (hrun : ∀ c' ∈ c :: run, Cursor.continuesNumber c' = true)
    (hpoints : (c :: run).count '.' ≤ 1) :
    ofText? (String.ofList (c :: run)) = some (ofLiteral (c :: run)) := by
  have hfirst (c' : Char) (hc' : Cursor.continuesNumber c' = false) : c ≠ c' :=
    Cursor.ne_of_continuesNumber (hrun c (by simp)) hc'
  have hnan : String.ofList (c :: run) ≠ DecimalLayout.plain.nan := fun h => by
    have hlist := congrArg String.toList h
    rw [String.toList_ofList] at hlist
    exact hfirst 'n' rfl (List.cons.inj hlist).1
  have hinfinity : c :: run ≠ DecimalLayout.plain.infinity.toList := fun h =>
    hfirst 'i' rfl (List.cons.inj h).1
  rw [ofText?, if_neg hnan, String.toList_ofList]
  split
  · next magnitude heq => exact absurd (List.cons.inj heq).1 (hfirst '-' rfl)
  · next magnitude _ =>
    rw [Magnitude.ofText?, if_neg hinfinity, Decimal.ofText?_literal hc hrun hpoints]
    rfl

end Binary64

namespace Cursor

theorem checkedNumber_eq {c : Char} (hc : c.isDigit = true) (rest : List Char) (position : Nat) :
    checkedNumber (c :: rest) position = some (pullNumber c rest position) := by
  have hrun : ∀ c' ∈ c :: rest.takeWhile continuesNumber, continuesNumber c' = true :=
    List.forall_mem_cons.2 ⟨continuesNumber_of_isDigit hc,
      fun c' hc' => List.all_eq_true.1 List.all_takeWhile c' hc'⟩
  have hmatch : numberRun? (c :: rest) = some (c :: rest.takeWhile continuesNumber) := if_pos hc
  simp only [checkedNumber, hmatch, pullNumber, Option.bind_eq_bind, Option.bind_some]
  split
  · rfl
  · next hpoints =>
    rw [Binary64.ofText?_literal hc hrun (Nat.not_lt.1 hpoints), Option.bind_some,
      List.length_cons, List.drop_succ_cons, drop_takeWhile]
    rfl

/-- The checks of number literals never fail. -/
theorem checkedPull_eq (cursor : Cursor) : cursor.checkedPull = some cursor.pull := by
  obtain ⟨text, position⟩ := cursor
  unfold checkedPull pull
  dsimp only
  fun_induction pullFrom text position with
  | case1 position => rfl
  | case2 c rest position hskip ih => rw [checkedPullFrom, if_pos hskip, ih]
  | case3 c rest position hskip kind hkind =>
    rw [checkedPullFrom, if_neg hskip]
    simp only [hkind]
  | case4 c rest position hskip hkind hdigit =>
    rw [checkedPullFrom, if_neg hskip]
    simp only [hkind, hdigit, if_true]
    exact checkedNumber_eq hdigit rest position
  | case5 c rest position hskip hkind hdigit =>
    rw [checkedPullFrom, if_neg hskip]
    simp only [hkind, hdigit]
    rfl

theorem exists_literal_of_num {text : List Char} {position : Nat} {t : Token}
    (h : .token t ∈ pullAll ⟨text, position⟩) (hnum : t.kind = .num) :
    ∃ literal, t.value = some (.ofLiteral literal) := by
  induction text using lexeme_induction generalizing position with
  | nil => simp [pullAll_nil] at h
  | skipped c text hskip ih =>
    rw [pullAll_of_skipped hskip] at h
    exact ih h
  | symbol c kind text hkind ih =>
    rw [pullAll_of_symbol hkind, List.mem_cons, Pull.token.injEq] at h
    rcases h with rfl | h
    · exact absurd hnum (kind_ne_num_of_ofChar? hkind)
    · exact ih h
  | digit c text hdigit ih =>
    by_cases hpoints : (c :: text.takeWhile continuesNumber).count '.' ≤ 1
    · rw [pullAll_of_number hdigit hpoints, List.mem_cons, Pull.token.injEq] at h
      rcases h with rfl | h
      · exact ⟨_, rfl⟩
      · exact ih h
    · simp [pullAll_of_malformed hdigit (Nat.not_le.1 hpoints)] at h
  | unexpected c text hskip hkind hdigit => simp [pullAll_of_unexpected hskip hkind hdigit] at h

theorem value_of_num {text : List Char} {position : Nat} {t : Token}
    (h : .token t ∈ pullAll ⟨text, position⟩) (hnum : t.kind = .num) : t.value.isSome = true := by
  obtain ⟨literal, hvalue⟩ := exists_literal_of_num h hnum
  rw [hvalue, Option.isSome_some]

end Cursor

end InfixCalculator
