import InfixCalculator.Calculator
import InfixCalculator.Expr.Untyped
import InfixCalculator.Proofs.Binary64.Guarded
import InfixCalculator.Proofs.Parser.Finality
import InfixCalculator.Proofs.Token.CheckedPull

/-!
# Nothing escapes the calculator

Several steps on the way from a line to its value have no result in general: matching and reading a
number literal, taking a token, taking the value of a token, popping a stack, dividing and raising
to a power.  Wherever the calculator takes one of them, it has a result.  So every line has a value
or is rejected with one of two kinds of faults, and some causes of faults never occur.
-/

namespace InfixCalculator

open Relation

/-! ## Causes that occur -/

namespace FaultCause

def occurs : FaultCause → Bool
  | noMoreTokens | operatorExpected _ => false
  | _ => true

theorem occurs_of_isLexical {cause : FaultCause} (h : cause.isLexical = true) :
    cause.occurs = true := by
  cases cause <;> simp_all [isLexical, occurs]

theorem kind_cases (cause : FaultCause) :
    cause.kind = .invalidOperator ∨ cause.kind = .unableToParse := by
  cases cause <;> simp [kind]

/-- The beginnings of details that are never given. -/
def absentDetails : List String :=
  ["No more tokens", "Please enter valid operator", "Unknown binary op",
    "Unknown expression type", "Unable to parse"]

def beginnings : List String :=
  ["Empty expression", "Unexpected ", "Unexpected character: ", "Invalid number literal: ",
    "Expected ", "Unexpected end of input", "Unexpected token after expression: ",
    "Expression is nested too deeply"]

theorem exists_beginning {cause : FaultCause} (h : cause.occurs = true) :
    ∃ beginning ∈ beginnings, ∃ rest, cause.detail = beginning ++ rest := by
  have hwhole (detail : String) (hdetail : detail ∈ beginnings) :
      ∃ beginning ∈ beginnings, ∃ rest, detail = beginning ++ rest :=
    ⟨detail, hdetail, "", String.append_empty.symm⟩
  cases cause with
  | noMoreTokens | operatorExpected found => cases h
  | emptyExpression => exact hwhole "Empty expression" (by simp [beginnings])
  | unexpectedEnd => exact hwhole "Unexpected end of input" (by simp [beginnings])
  | nestedTooDeeply => exact hwhole "Expression is nested too deeply" (by simp [beginnings])
  | unexpectedCharacter c => exact ⟨"Unexpected character: ", by simp [beginnings], _, rfl⟩
  | malformedNumber literal => exact ⟨"Invalid number literal: ", by simp [beginnings], _, rfl⟩
  | leftoverToken found =>
    exact ⟨"Unexpected token after expression: ", by simp [beginnings], _, rfl⟩
  | expected kind found =>
    exact ⟨"Expected ", by simp [beginnings], Token.display ⟨kind, none, 0⟩ ++ ", got " ++
      found.display, by simp only [← String.append_assoc]; rfl⟩
  | operandExpected found =>
    exact ⟨"Unexpected ", by simp [beginnings], found.display ++ " where an operand was expected",
      by rw [← String.append_assoc]; rfl⟩

/-- The first three characters tell the details that are given from those that are not. -/
theorem not_prefix_detail {cause : FaultCause} (h : cause.occurs = true) {d : String}
    (hd : d ∈ absentDetails) : ¬d.toList <+: cause.detail.toList := by
  obtain ⟨beginning, hbeginning, rest, hdetail⟩ := exists_beginning h
  have hlong : ∀ text ∈ absentDetails ++ beginnings, 3 ≤ text.toList.length := by
    simp [absentDetails, beginnings]
  have hdiffer : ∀ d ∈ absentDetails, ∀ beginning ∈ beginnings,
      d.toList.take 3 ≠ beginning.toList.take 3 := by
    simp [absentDetails, beginnings]
  rintro ⟨more, hmore⟩
  have htake := congrArg (List.take 3) hmore
  rw [hdetail, String.toList_append,
    List.take_append_of_le_length (hlong d (List.mem_append_left _ hd)),
    List.take_append_of_le_length (hlong beginning (List.mem_append_right _ hbeginning))] at htake
  exact hdiffer d hd beginning hbeginning htake

end FaultCause

namespace CallStack

theorem exists_operator? {c : CallStack} {t : Token} (h : Thresholds c.threshold c.callers)
    (ht : c.threshold < t.precedence) : ∃ op, t.kind.operator? = some op := by
  have hn := (length_le_of_thresholds h).1
  cases hop : t.kind.operator? with
  | some op => exact ⟨op, rfl⟩
  | none =>
    rw [Token.precedence, TokenKind.precedence_eq_zero hop] at ht
    omega

theorem occurs_of_refuse {c : CallStack} {t : Token} {cause : FaultCause}
    (h : Thresholds c.threshold c.callers) (hact : c.act t = .refuse cause) :
    cause.occurs = true := by
  have hoperator : c.threshold < t.precedence → ∃ op, t.kind.operator? = some op :=
    exists_operator? h
  obtain ⟨n, stage, callers⟩ := c
  unfold act returned at hact
  grind [FaultCause.occurs]

end CallStack

namespace Expr

variable {limit : Nat} {source : String} {fault : Fault}

theorem occurs_of_parseWithin (h : parseWithin limit source = .error fault) :
    fault.cause.occurs = true := by
  cases hs : ParserState.ofSource source with
  | error fault' =>
    rw [parseWithin_of_not_ofSource hs] at h
    cases h
    rcases ParserState.pullAll_of_not_ofSource hs with ⟨-, rfl⟩ | hfailed
    · rfl
    · exact FaultCause.occurs_of_isLexical (Cursor.isLexical_of_pullAll hfailed)
  | ok s =>
    rw [parseWithin_of_ofSource hs] at h
    by_cases hdeep : fault = .tooDeep
    · rw [hdeep]
      rfl
    · obtain ⟨-, m, hm, hend⟩ := Parsing.leads_of_result h (by simpa using hdeep)
      cases hend with
      | refuse act =>
        exact CallStack.occurs_of_refuse (Moment.thresholds (Moment.leads_of_within hm)) act
      | lexical act failed =>
        have hcursor := (Moment.advance_ends (CallStack.ne_eof_of_read act)).of_error failed
        exact FaultCause.occurs_of_isLexical (Cursor.isLexical_of_pullAll hcursor)

end Expr

/-! ## Values -/

namespace UntypedExpr

/-- Computes an untyped expression with guarded operators. -/
def computingWith (power : PowerFunction) :
    Tree.Reading String UntypedLeaf (Except (EvaluationFault ⊕ ArithmeticFault) Binary64) where
  leaf l := (leafValue l).mapError .inl
  binary symbol left right := do
    let x ← left
    let y ← right
    match BinaryOp.ofSymbol? symbol with
    | some op => (op.applyGuarded power x y).mapError .inr
    | none => throw (.inl (.unknownOperator symbol))
  negative := Except.map Binary64.neg

end UntypedExpr

namespace Expr

variable {power : PowerFunction}

theorem exists_fold_untyped (hpower : ∀ x y, power x y ≠ .error .zeroDivision) (e : Expr) :
    ∃ value, (untyped e).fold (UntypedExpr.computingWith power) = .ok value ∧
      ((∀ x y, Binary64.guardedPow power x y = .ok (x.pow y)) → value = e.value) := by
  simp only [value_eq_fold]
  induction e with
  | leaf x => exact ⟨x, rfl, fun _ => rfl⟩
  | binary op left right ihl ihr =>
    obtain ⟨x, hx, hxvalue⟩ := ihl
    obtain ⟨y, hy, hyvalue⟩ := ihr
    obtain ⟨z, hz⟩ := BinaryOp.exists_applyGuarded hpower op x y
    refine ⟨z, ?_, fun hmath => ?_⟩
    · rw [untyped, Tree.fold, hx, hy]
      simp only [UntypedExpr.computingWith, BinaryOp.ofSymbol?_symbol]
      change (op.applyGuarded power x y).mapError Sum.inr = _
      rw [hz]
      rfl
    · have happly := BinaryOp.applyGuarded_eq hmath op x y
      rw [hz, hxvalue hmath, hyvalue hmath] at happly
      exact Except.ok.inj happly
  | negative operand ih =>
    obtain ⟨x, hx, hxvalue⟩ := ih
    refine ⟨x.neg, ?_, fun hmath => by rw [hxvalue hmath, Tree.fold]; rfl⟩
    rw [untyped, Tree.fold, hx]
    rfl

theorem run_untyped (hpower : ∀ x y, power x y ≠ .error .zeroDivision) (e : Expr) :
    ∃ value,
      Tree.run (UntypedExpr.computingWith power) [.visit (untyped e)] [] = some [.ok value] ∧
      ((∀ x y, Binary64.guardedPow power x y = .ok (x.pow y)) → value = e.value) := by
  obtain ⟨value, hfold, hvalue⟩ := exists_fold_untyped hpower e
  exact ⟨value, by rw [Tree.run_visit_nil, hfold], hvalue⟩

end Expr

/-! ## The calculator with all its checks -/

namespace Calculator

/-- Reads and computes a line with every step checked: a kind and a detail if the line is rejected,
and no answer at all if anything else goes wrong. -/
def guardedEvaluate (power : PowerFunction) (limit : Nat) (line : String) :
    Option (Except (ReportKind × String) Evaluation) :=
  match Expr.parseWithin limit (expressionText line) with
  | .error fault => some (.error (fault.kind, fault.detail))
  | .ok e =>
    match Tree.run (UntypedExpr.computingWith power) [.visit (Expr.untyped e)] [] with
    | some [.ok value] => some (.ok ⟨e, value⟩)
    | some [.error (.inl _)] => some (.error (.unableToParse, "Unable to parse"))
    | _ => none

variable {power : PowerFunction}

theorem result_evaluateWithin (limit : Nat) (line : String) :
    (evaluateWithin limit line).result =
      (Expr.parseWithin limit (expressionText line)).map fun e => ⟨e, e.value⟩ := by
  rw [evaluateWithin, compute]
  cases Expr.parseWithin limit (expressionText line) <;> rfl

theorem parseWithin_of_error {limit : Nat} {line : String} {fault : Fault}
    (h : (evaluateWithin limit line).result = .error fault) :
    Expr.parseWithin limit (expressionText line) = .error fault := by
  rw [result_evaluateWithin] at h
  cases hparse : Expr.parseWithin limit (expressionText line) with
  | ok e =>
    rw [hparse] at h
    cases h
  | error fault' =>
    rw [hparse] at h
    cases h
    rfl

theorem guardedEvaluate_cases (hpower : ∀ x y, power x y ≠ .error .zeroDivision) (limit : Nat)
    (line : String) :
    (∃ fault, (evaluateWithin limit line).result = .error fault ∧
      guardedEvaluate power limit line = some (.error (fault.kind, fault.detail))) ∨
    ∃ e value, (evaluateWithin limit line).result = .ok ⟨e, e.value⟩ ∧
      guardedEvaluate power limit line = some (.ok ⟨e, value⟩) ∧
      ((∀ x y, Binary64.guardedPow power x y = .ok (x.pow y)) → value = e.value) := by
  rw [result_evaluateWithin, guardedEvaluate]
  cases hparse : Expr.parseWithin limit (expressionText line) with
  | error fault => exact .inl ⟨fault, rfl, rfl⟩
  | ok e =>
    obtain ⟨value, hrun, hvalue⟩ := Expr.run_untyped hpower e
    refine .inr ⟨e, value, rfl, ?_, hvalue⟩
    simp only [hrun]

/-- What holds at every moment at which a line is read: a number that is ahead has a value, only a
token is taken, and only an operator is folded. -/
theorem reading_is_safe {source : String} {s : ParserState} {m : Moment}
    (hs : ParserState.ofSource source = .ok s) (hm : ReflTransGen Moment.Next (.first s) m) :
    (m.state.current.kind = .num → m.state.current.value.isSome = true) ∧
    (∀ c, m.calls.act m.state.current = .read c → m.state.current.kind ≠ .eof) ∧
    (m.calls.threshold < m.state.current.precedence →
      ∃ op, m.state.current.kind.operator? = some op) := by
  refine ⟨fun hnum => ?_, fun c => CallStack.ne_eof_of_read,
    CallStack.exists_operator? (Moment.thresholds hm)⟩
  obtain ⟨tokens, hpulls⟩ := Moment.exists_pullAll hs hm (by simp [hnum])
  exact Cursor.value_of_num (by rw [← Cursor.ofSource, hpulls]; simp) hnum

theorem fault_is_one_of_two_kinds {limit : Nat} {line : String} {fault : Fault}
    (h : (evaluateWithin limit line).result = .error fault) :
    (fault.kind = .invalidOperator ∨ fault.kind = .unableToParse) ∧
      ∀ d ∈ FaultCause.absentDetails, ¬d.toList <+: fault.detail.toList := by
  have hoccurs := Expr.occurs_of_parseWithin (parseWithin_of_error h)
  exact ⟨fault.cause.kind_cases, fun d => FaultCause.not_prefix_detail hoccurs⟩

/-- Nothing escapes the calculator.  A line that has no value is rejected with one of two kinds, and
never with one of the absent details.  This is what comes of the steps with all their checks, if the
power function fails by an overflow or a fault of the domain only, and if the guarded powers are
those of the format then so are the values.  Number literals are matched and read, the moments of
the reading are safe, and the walks that compute and show an expression never find too few results
on their stacks and end with a single one. -/
theorem nothing_escapes {power : PowerFunction}
    (hpower : ∀ x y, power x y ≠ .error .zeroDivision) (limit : Nat) (line : String) :
    (∀ fault, (evaluateWithin limit line).result = .error fault →
      (fault.kind = .invalidOperator ∨ fault.kind = .unableToParse) ∧
      ∀ d ∈ FaultCause.absentDetails, ¬d.toList <+: fault.detail.toList) ∧
    ((∃ fault, (evaluateWithin limit line).result = .error fault ∧
        guardedEvaluate power limit line = some (.error (fault.kind, fault.detail))) ∨
      ∃ e value, (evaluateWithin limit line).result = .ok ⟨e, e.value⟩ ∧
        guardedEvaluate power limit line = some (.ok ⟨e, value⟩) ∧
        ((∀ x y, Binary64.guardedPow power x y = .ok (x.pow y)) → value = e.value)) ∧
    (∀ cursor : Cursor, cursor.checkedPull = some cursor.pull) ∧
    (∀ s m, ParserState.ofSource (expressionText line) = .ok s →
      ReflTransGen Moment.Next (.first s) m →
      (m.state.current.kind = .num → m.state.current.value.isSome = true) ∧
      (∀ c, m.calls.act m.state.current = .read c → m.state.current.kind ≠ .eof) ∧
      (m.calls.threshold < m.state.current.precedence →
        ∃ op, m.state.current.kind.operator? = some op)) ∧
    ∀ e : Expr,
      (∃ value, Tree.run (UntypedExpr.computingWith power) [.visit (Expr.untyped e)] [] =
        some [.ok value]) ∧
      Tree.run Expr.showing [.visit e] [] = some [e.render] := by
  refine ⟨fun fault => fault_is_one_of_two_kinds, guardedEvaluate_cases hpower limit line,
    Cursor.checkedPull_eq, fun s m => reading_is_safe, fun e => ⟨?computed, ?shown⟩⟩
  case computed =>
    obtain ⟨value, hrun, -⟩ := Expr.run_untyped hpower e
    exact ⟨value, hrun⟩
  case shown => rw [Tree.run_visit_nil, Expr.render_eq_fold]

/-- Zero to a negative power has a value: the power function fails there, and its guard gives
infinity. -/
theorem nothing_escapes_zero_power :
    (∀ x y, Binary64.mathPow x y ≠ .error .zeroDivision) ∧
      Binary64.mathPow .zero (.neg .one) = .error .domain ∧
      ∃ e, guardedEvaluate Binary64.mathPow 9 "0 ^ -1" = some (.ok ⟨e, .infinity⟩) := by
  have hresult : (evaluateWithin 9 "0 ^ -1").result = .ok
      ⟨.binary .power (.leaf .zero) (.negative (.leaf .one)), .infinity⟩ := by
    rw [result_evaluateWithin]
    decide +kernel
  refine ⟨Binary64.mathPow_ne_zeroDivision, by decide +kernel, ?_⟩
  rcases (nothing_escapes Binary64.mathPow_ne_zeroDivision 9 "0 ^ -1").2.1 with
    ⟨fault, hfault, -⟩ | ⟨e, value, hok, heq, hvalue⟩
  · rw [hresult] at hfault
    cases hfault
  · rw [hresult] at hok
    obtain ⟨-, hinfinity⟩ := Evaluation.mk.inj (Except.ok.inj hok)
    rw [hvalue Binary64.guardedPow_mathPow, ← hinfinity] at heq
    exact ⟨e, heq⟩

end Calculator

end InfixCalculator
