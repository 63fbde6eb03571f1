import InfixCalculator.Proofs.Expr.Spelling
import InfixCalculator.Proofs.Grammar.Substitution
import InfixCalculator.Proofs.Parser.Scan

/-!
# Replacing number literals in sources

Where a source has a number literal it may have any other source in brackets instead.  What it
spells then is the same expression, with the expression that the other source spells in place of
the leaf.  A source in brackets spells what it spells without them.
-/

namespace InfixCalculator

open Grammar

namespace Scan

/-- No opening bracket follows a number in what a scan accepts. -/
theorem notAhead_of_run {length : Nat} {before after : List Token} {number : Token} {scan : Scan}
    (h : scan.run length ((before ++ number :: after).map .token ++ [.exhausted]) = .ok ())
    (hnumber : number.kind = .num) : NotAhead .leftParen after := by
  induction before generalizing scan with
  | nil =>
    intro token ht hopen
    obtain ⟨after, rfl⟩ : ∃ rest, after = token :: rest := by
      cases after with
      | nil => simp at ht
      | cons first rest => exact ⟨rest, by rw [Option.some.inj ht]⟩
    simp only [List.nil_append, List.map_cons, List.cons_append, run, hnumber, hopen] at h
    obtain ⟨phase, opened⟩ := scan
    cases phase <;> cases opened <;> simp [next?, TokenKind.operator?] at h
  | cons token before ih =>
    simp only [List.cons_append, List.map_cons, run] at h
    cases hnext : scan.next? token.kind with
    | none => simp [hnext] at h
    | some next => exact ih (by simpa only [hnext] using h)

end Scan

namespace Expr

variable {limit limit' : Nat} {source text : String} {e f : Expr}

theorem notAhead_of_parseWithin (h : parseWithin limit source = .ok e) {before after : List Token}
    {number : Token} (ht : Spells source (before ++ number :: after))
    (hnumber : number.kind = .num) : NotAhead .leftParen after := by
  have hverdict := parseWithin_eq_verdict (by simp [h] : parseWithin limit source ≠ .error .tooDeep)
    (by rw [ht]; cases before <;> simp)
  rw [h, Scan.verdict, ht] at hverdict
  exact Scan.notAhead_of_run hverdict.symm hnumber

/-! ## Number literals -/

def literalPosition? : Pull → Option Nat
  | .token t => if t.kind = .num then some t.position else none
  | _ => none

def literalPositions (source : String) : List Nat :=
  (Cursor.ofSource source).pullAll.filterMap literalPosition?

/-- The source in which the number literal at a position is replaced by a text in brackets. -/
def replaceLiteral (source : String) (position : Nat) (text : String) : String :=
  String.ofList (source.toList.take position ++ (bracketed text.toList ++
    (source.toList.drop position).dropWhile Cursor.continuesNumber))

theorem length_literalPositions {tokens : List Token} (h : Spells source tokens) :
    (literalPositions source).length = numberCount tokens := by
  rw [literalPositions, h]
  clear h
  induction tokens with
  | nil => rfl
  | cons token tokens ih =>
    rw [List.map_cons, List.cons_append]
    by_cases hnum : token.kind = .num
    · rw [List.filterMap_cons_some (b := token.position) (by simp [literalPosition?, hnum]),
        numberCount_cons_num hnum, List.length_cons, ih]
    · rw [List.filterMap_cons_none (by simp [literalPosition?, hnum]), numberCount_cons_of_ne hnum,
        ih]

theorem exists_literal {tokens : List Token} {i position : Nat} (h : Spells source tokens)
    (hi : (literalPositions source)[i]? = some position) :
    ∃ before number after, tokens = before ++ number :: after ∧ number.kind = .num ∧
      number.position = position ∧ numberCount before = i := by
  rw [literalPositions, h] at hi
  clear h
  induction tokens generalizing i with
  | nil =>
    change ([] : List Nat)[i]? = _ at hi
    simp at hi
  | cons token tokens ih =>
    rw [List.map_cons, List.cons_append] at hi
    by_cases hnum : token.kind = .num
    · rw [List.filterMap_cons_some (b := token.position) (by simp [literalPosition?, hnum])] at hi
      cases i with
      | zero => exact ⟨[], token, tokens, rfl, hnum, by simpa using hi, rfl⟩
      | succ i =>
        obtain ⟨before, number, after, rfl, hnumber, hposition, rfl⟩ := ih (by simpa using hi)
        exact ⟨token :: before, number, after, rfl, hnumber, hposition, numberCount_cons_num hnum⟩
    · rw [List.filterMap_cons_none (by simp [literalPosition?, hnum])] at hi
      obtain ⟨before, number, after, rfl, hnumber, hposition, rfl⟩ := ih hi
      exact ⟨token :: before, number, after, rfl, hnumber, hposition, numberCount_cons_of_ne hnum⟩

theorem lexes_around {before after : List Token} {number : Token}
    (h : Spells source (before ++ number :: after)) (hnumber : number.kind = .num) :
    Cursor.Lexes (source.toList.take number.position) (before.map Token.bare) ∧
      Cursor.Lexes ((source.toList.drop number.position).dropWhile Cursor.continuesNumber)
        (after.map Token.bare) := by
  have hpulls : (Cursor.mk source.toList 0).pullAll =
      before.map .token ++ .token number :: (after.map .token ++ [.exhausted]) := by
    simpa [Spells, Cursor.ofSource] using h
  obtain ⟨front, mid, hsource, -, hfront, hmid⟩ := Cursor.exists_seam hpulls
  obtain ⟨blanks, lexeme, rest, rfl, hfirst, hrest⟩ := Cursor.exists_firstLexeme hmid
  have hposition : number.position = (front ++ blanks).length := by
    rw [hfirst.position_eq, List.length_append, Nat.zero_add]
  have hsource' : source.toList = (front ++ blanks) ++ (lexeme ++ rest) := by simp [hsource]
  have hblanks : Cursor.Lexes blanks [] := fun position => by
    rw [Cursor.pullAll_of_all_skipped hfirst.skipped]
    rfl
  rw [hsource', hposition, List.take_left, List.drop_left, hfirst.dropWhile_literal hnumber]
  refine ⟨?_, .of_pullAll hrest⟩
  simpa using (Cursor.Lexes.of_pullAll hfront).append hblanks
    (Cursor.not_joins_of_skipped hfirst.skipped)

theorem sumText_replaceLiteral {i position : Nat} (hsource : parseWithin limit source = .ok e)
    (htext : SumText text.toList f) (hi : (literalPositions source)[i]? = some position) :
    SumText (replaceLiteral source position text).toList (e.replaceLeaf i f) := by
  obtain ⟨tokens, htokens, hr⟩ := reads_of_parseWithin hsource
  obtain ⟨before, number, after, rfl, hnumber, rfl, rfl⟩ := exists_literal htokens hi
  have hahead := notAhead_of_parseWithin hsource htokens hnumber
  obtain ⟨group, hgroup, hunary⟩ := htext.bracketed
  have hoperand : Reads .unary (group ++ after.map Token.bare) f (after.map Token.bare) :=
    hunary _ (by simpa [NotAhead] using hahead)
  have hreads := hr.map_bare
  rw [List.map_append, List.map_cons] at hreads
  have hbare : number.bare.kind = .num := hnumber
  have hwhole := Reads.substitutes hbare hoperand hreads _ rfl List.nil_suffix
  rw [numberCount_map_bare, Rule.leafCount, Nat.zero_add] at hwhole
  obtain ⟨hbefore, hafter⟩ := lexes_around htokens hnumber
  refine ⟨_, ?_, hwhole⟩
  rw [replaceLiteral, String.toList_ofList]
  exact hbefore.append (hgroup.append hafter (not_joins_bracketed _ _))
    (Cursor.not_joins_of_first rfl)

theorem sumText_operands {source text : List Char} (op : BinaryOp) (hsource : SumText source e)
    (htext : SumText text f) : SumText
      (bracketed source ++ (op.symbol.toList ++ bracketed text)) (.binary op e f) := by
  obtain ⟨c, kind, hsymbol, hkind, hop⟩ := op.exists_symbol
  rw [hsymbol]
  have hcont := Cursor.continuesNumber_of_ofChar? hkind
  exact hsource.bracketed.binary htext.bracketed hop (.symbol hkind) (not_joins_bracketed _ _)
    (Cursor.not_joins_of_last [] hcont)

/-- Replacing the literal number `i` of an accepted source by another accepted source in brackets
gives a source that spells the same expression but for the leaf number `i`, in whose place stands
what the other source spells.  In particular brackets around a source change nothing, and two
sources in brackets with an operator between them spell a binary expression, whose value is the
operator's on both values.  All of this holds wherever the limit of nesting is not reached. -/
theorem parseWithin_replaceLiteral (hsource : parseWithin limit source = .ok e)
    (htext : parseWithin limit' text = .ok f) :
    e.leafCount = (literalPositions source).length ∧
    (∀ i position limit, (literalPositions source)[i]? = some position →
      parseWithin limit (replaceLiteral source position text) ≠ .error .tooDeep →
      parseWithin limit (replaceLiteral source position text) = .ok (e.replaceLeaf i f)) ∧
    (∀ limit, parseWithin limit ("(" ++ text ++ ")") ≠ .error .tooDeep →
      parseWithin limit ("(" ++ text ++ ")") = .ok f) ∧
    ∀ (op : BinaryOp) limit,
      parseWithin limit ("(" ++ source ++ ")" ++ op.symbol ++ "(" ++ text ++ ")")
        ≠ .error .tooDeep →
      parseWithin limit ("(" ++ source ++ ")" ++ op.symbol ++ "(" ++ text ++ ")")
        = .ok (.binary op e f) ∧
      value (.binary op e f) = op.apply e.value f.value := by
  have hsum := SumText.of_parseWithin htext
  refine ⟨?_, fun i position limit hi hlimit => ?_, fun limit hlimit => ?_,
    fun op limit hlimit => ⟨?_, ?_⟩⟩
  · obtain ⟨tokens, htokens, hr⟩ := reads_of_parseWithin hsource
    have hleaves := hr.leafCount_add
    rw [Rule.leafCount, numberCount_nil] at hleaves
    rw [length_literalPositions htokens]
    omega
  · exact (sumText_replaceLiteral hsource hsum hi).parseWithin hlimit
  · have hbracketed : SumText ("(" ++ text ++ ")").toList f := by
      simpa [bracketed] using hsum.bracketed.sum
    exact hbracketed.parseWithin hlimit
  · have hoperands := sumText_operands op (.of_parseWithin hsource) hsum
    refine SumText.parseWithin ?_ hlimit
    simpa [bracketed] using hoperands
  · simp only [value_eq_fold, Tree.fold, computing]

/-- The base of a power, replaced by a sum in brackets. -/
theorem parseWithin_replaceLiteral_base :
    replaceLiteral "2^3" 0 "1+4" = "(1+4)^3" ∧ parseWithin 20 "(1+4)^3" =
      .ok (.binary .power
        (.binary .add (.leaf (.ofLiteral ['1'])) (.leaf (.ofLiteral ['4'])))
        (.leaf (.ofLiteral ['3']))) := by
  have hbase : parseWithin 20 "2^3" = .ok (.binary .power
      (.leaf (.ofLiteral ['2'])) (.leaf (.ofLiteral ['3']))) := by decide +kernel
  have hsum : parseWithin 20 "1+4" = .ok (.binary .add
      (.leaf (.ofLiteral ['1'])) (.leaf (.ofLiteral ['4']))) := by decide +kernel
  have htext : replaceLiteral "2^3" 0 "1+4" = "(1+4)^3" := rfl
  have hreplaced := (parseWithin_replaceLiteral hbase hsum).2.1 0 0 20 (by decide +kernel)
    (parseWithin_ne_tooDeep (by rw [htext]; decide))
  rw [htext] at hreplaced
  exact ⟨htext, hreplaced⟩

end Expr

end InfixCalculator
