import InfixCalculator.Proofs.Decimal.Notation
import InfixCalculator.Proofs.Expr.Leaves
import InfixCalculator.Proofs.Expr.Spelling

/-!
# Reading rendered expressions

The text of an expression whose numbers are written in full spells the expression again, except
that the sign of a negative number comes back as a negation.
-/

namespace InfixCalculator

open Grammar

/-! ## Numbers -/

/-- A number that is written without an exponent: a zero, or one whose absolute value is at least
0.0001 and less than 10 ^ 16. -/
def Binary64.WrittenInFull : Binary64 → Prop
  | nan => False
  | signed _ m => m.WrittenInFull

namespace Decimal.PointLiteral

variable {text : List Char} {value : ℚ}

theorem lexes (h : PointLiteral text value) :
    Cursor.Lexes text [⟨.num, some (.ofLiteral text), 0⟩] := fun position => by
  obtain ⟨first, run, rfl, hfirst, hrun, hpoints⟩ := h.exists_cons
  rw [List.forall_mem_cons] at hrun
  rw [Cursor.pullAll_of_number hfirst, Cursor.takeWhile_of_all hrun.2,
    Cursor.dropWhile_of_all hrun.2]
  · rfl
  · rwa [Cursor.takeWhile_of_all hrun.2]

end Decimal.PointLiteral

namespace Expr

variable {limit : Nat} {e : Expr}

theorem operandText_writeMagnitude {m : Magnitude} (h : m.WrittenInFull) :
    OperandText (DecimalLayout.plain.writeMagnitude m) (.leaf (.signed false m)) := by
  have hvalue : Binary64.ofLiteral (DecimalLayout.plain.writeMagnitude m) = .signed false m :=
    congrArg (Binary64.signed false) h.readsBack
  refine ⟨_, h.pointLiteral.lexes, fun rest _ => ?_⟩
  rw [← hvalue]
  exact .number rfl

/-- A number, or for a negative one the negation of the number without its sign. -/
def signOut (x : Binary64) : Expr := if x.isNegative then .negative (.leaf (-x)) else .leaf x

/-- The expression with the sign of every negative number, the negative zero included, turned into a
negation. -/
def signsOut (e : Expr) : Expr := e.bindLeaves signOut

theorem fold_signOut (x : Binary64) : (signOut x).fold computing = x := by
  cases x with
  | nan => rfl
  | signed negative m => cases negative <;> rfl

theorem value_signsOut (e : Expr) : e.signsOut.value = e.value := by
  rw [value_eq_fold, value_eq_fold, signsOut, Tree.fold_bindLeaves fold_signOut]

theorem signsOut_eq_self (h : e.AllLeaves fun x => x.isNegative = false) : e.signsOut = e :=
  Tree.bindLeaves_eq_self (h.imp fun x hx => by rw [signOut, hx]; rfl)

/-! ## Texts -/

theorem operandText_text {x : Binary64} (h : x.WrittenInFull) :
    OperandText x.text.toList (signOut x) := by
  cases x with
  | nan => exact h.elim
  | signed negative m =>
    rw [Binary64.text, String.toList_ofList]
    cases negative with
    | false => exact operandText_writeMagnitude h
    | true => exact (operandText_writeMagnitude h).negative

theorem lexes_between_blanks {c : Char} {kind : TokenKind}
    (h : TokenKind.ofChar? c = some kind) :
    Cursor.Lexes [' ', c, ' '] [.symbol kind] := by
  have hright : Cursor.Lexes [c, ' '] [.symbol kind] :=
    (Cursor.Lexes.blank (c := ' ') rfl).symbol_append h
  exact (Cursor.Lexes.blank (c := ' ') rfl).append hright (Cursor.not_joins_of_last [] rfl)

theorem OperandText.rendered_binary {left right : String} {f : Expr} (op : BinaryOp)
    (hleft : OperandText left.toList e) (hright : OperandText right.toList f) :
    OperandText ("(" ++ left ++ " " ++ op.symbol ++ " " ++ right ++ ")").toList
      (.binary op e f) := by
  obtain ⟨c, kind, hsymbol, hkind, hop⟩ := op.exists_symbol
  have hsum := hleft.binary hright hop (lexes_between_blanks hkind)
    (Cursor.not_joins_of_first rfl) (Cursor.not_joins_of_last [' ', c] rfl)
  simpa [Expr.bracketed, hsymbol] using hsum.bracketed

theorem OperandText.negativeText {operand : String} (h : OperandText operand.toList e) :
    OperandText (negativeText operand).toList (.negative e) := by
  rw [Expr.negativeText]
  split
  · simpa [Expr.bracketed] using h.sum.bracketed.negative
  · simpa using h.negative

theorem operandText_render (h : e.AllLeaves Binary64.WrittenInFull) :
    OperandText e.render.toList e.signsOut := by
  rw [render_eq_fold]
  induction e with
  | leaf x => exact operandText_text h
  | binary op left right ihl ihr => exact (ihl h.1).rendered_binary op (ihr h.2)
  | negative operand ih => exact (ih h).negativeText

/-- The text of an expression whose numbers are written in full is accepted wherever the limit of
nesting is not reached.  It spells the expression with the signs taken out of its numbers, which is
the expression itself if no number is negative and has the same value in any case. -/
theorem parseWithin_render (h : e.AllLeaves Binary64.WrittenInFull)
    (hlimit : parseWithin limit e.render ≠ .error .tooDeep) :
    parseWithin limit e.render = .ok e.signsOut ∧
    ((e.AllLeaves fun x => x.isNegative = false) → e.signsOut = e) ∧
    e.signsOut.value = e.value :=
  ⟨(operandText_render h).sum.parseWithin hlimit, signsOut_eq_self, value_signsOut e⟩

/-- Minus one to the power of the negation of minus zero. -/
theorem parseWithin_render_negative_base :
    render (.binary .power (.leaf (.signed true .one)) (.negative (.leaf (.signed true .zero)))) =
      "(-1.0 ^ -(-0.0))" ∧
    parseWithin 20 "(-1.0 ^ -(-0.0))" =
      .ok (.binary .power (.negative (.leaf .one)) (.negative (.negative (.leaf .zero)))) := by
  have htext : render (.binary .power (.leaf (.signed true .one))
      (.negative (.leaf (.signed true .zero)))) = "(-1.0 ^ -(-0.0))" := by decide +kernel
  have hleaves : Tree.AllLeaves Binary64.WrittenInFull (.binary BinaryOp.power
      (.leaf (.signed true .one)) (.negative (.leaf (.signed true .zero)))) :=
    ⟨.inr (by decide), .inl rfl⟩
  have hread := (parseWithin_render hleaves
    (parseWithin_ne_tooDeep (by rw [htext]; decide : _ < 20))).1
  rw [htext] at hread
  exact ⟨htext, hread⟩

end Expr

end InfixCalculator
