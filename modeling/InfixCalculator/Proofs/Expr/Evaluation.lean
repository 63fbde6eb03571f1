import InfixCalculator.Expr.Untyped
import InfixCalculator.Proofs.Expr.Stacks

/-!
# Evaluation with two stacks

An expression whose leaves may be foreign and whose symbols may be unknown is evaluated by a walk
with two stacks, and the walk stops at the first node that has no value.  The value or the fault is
the one that recursion on the expression gives, and so is what `UntypedExpr.value` gives, whose
walk carries a fault on its stack of results.
-/

namespace InfixCalculator

namespace UntypedExpr

/-- Evaluates an untyped expression: a leaf has its value, a sign negates the value of its operand,
and a symbol is applied to the values of its left and its right operand. -/
def evaluating : Tree.FallibleReading String UntypedLeaf EvaluationFault Binary64 where
  leaf := leafValue
  binary symbol x y := applySymbol symbol (.ok x) (.ok y)
  negative := Binary64.neg

theorem foldExcept_eq_value (e : UntypedExpr) : e.foldExcept evaluating = e.value := by
  rw [value_eq_fold]
  induction e with
  | leaf value => rfl
  | binary symbol left right ihl ihr =>
    rw [Tree.foldExcept, ihl, ihr, Tree.fold]
    cases left.fold computing with
    | error fault => rfl
    | ok x => cases right.fold computing <;> rfl
  | negative operand ih =>
    rw [Tree.foldExcept, ih, Tree.fold]
    cases operand.fold computing <;> rfl

/-- Evaluation with stacks is recursion.  On top of any stacks, the turns for an expression push its
value and leave the rest as it is, or raise its first fault; so the walk ends, and with what the
recursion gives.  The walks that carry faults give the same, and on an expression of known nodes and
operators there is no fault. -/
theorem evaluation_by_stacks (e : UntypedExpr) :
    (∀ pending results,
      Tree.turns evaluating e.stepCount ⟨(e, false) :: pending, results⟩ =
        match e.foldExcept evaluating with
        | .ok value => .ok ⟨pending, value :: results⟩
        | .error fault => .error (.raised fault)) ∧
    Tree.loop evaluating ⟨[(e, false)], []⟩ =
      (match e.foldExcept evaluating with
        | .ok value => .ok value
        | .error fault => .error (.raised fault)) ∧
    e.value = e.foldExcept evaluating ∧
    (∀ steps results, Tree.run computing (.visit e :: steps) results =
      Tree.run computing steps (e.foldExcept evaluating :: results)) ∧
    ∀ known : Expr,
      (Expr.untyped known).foldExcept evaluating = .ok known.value ∧
      ∀ steps results, Tree.run Expr.computing (.visit known :: steps) results =
        Tree.run Expr.computing steps (known.value :: results) := by
  refine ⟨fun pending results => ?turns, ?loop, (foldExcept_eq_value e).symm,
    fun steps results => ?walk, fun known => ⟨?known, fun steps results => ?knownWalk⟩⟩
  case turns =>
    rw [Tree.turns_visit]
    cases e.foldExcept evaluating <;> rfl
  case loop =>
    rw [Tree.loop_visit]
    cases e.foldExcept evaluating <;> rfl
  case walk => rw [Tree.run_visit, foldExcept_eq_value, value_eq_fold]
  case known => rw [foldExcept_eq_value, Expr.value_untyped]
  case knownWalk => rw [Tree.run_visit, Expr.value_eq_fold]

/-- An operand without a value counts before a symbol that is unknown. -/
example : Tree.foldExcept evaluating
    (.binary "%" (.leaf (.number .one)) (.negative (.leaf (.foreign "str")))) =
      .error (.unknownNode "str") := rfl

end UntypedExpr

end InfixCalculator
