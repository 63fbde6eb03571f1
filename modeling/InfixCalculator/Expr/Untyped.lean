import InfixCalculator.Expr.Basic

/-!
# Untyped expressions

Operator trees whose operators are given by symbols, which need not be known ones, and whose leaves
need not be numbers.  They have a value unless a symbol is unknown or a leaf is foreign; the first
such node, reading operands from left to right and before their operator, is the fault reported.
-/

namespace InfixCalculator

inductive UntypedLeaf where
  | number (value : Binary64)
  /-- A value of another kind, known by the name of its type. -/
  | foreign (typeName : String)
  deriving DecidableEq, Repr

/-- An expression with operators given by symbols. -/
abbrev UntypedExpr := Tree String UntypedLeaf

inductive EvaluationFault where
  | unknownOperator (symbol : String)
  | unknownNode (typeName : String)
  deriving DecidableEq, Repr

def EvaluationFault.message : EvaluationFault → String
  | unknownOperator symbol => "Unknown binary op: " ++ symbol
  | unknownNode typeName => "Unknown expression type: " ++ typeName

namespace UntypedExpr

def leafValue : UntypedLeaf → Except EvaluationFault Binary64
  | .number value => .ok value
  | .foreign typeName => .error (.unknownNode typeName)

/-- The value of a binary node; a fault of the left operand comes before one of the right operand,
and both come before an unknown symbol. -/
def applySymbol (symbol : String) (left right : Except EvaluationFault Binary64) :
    Except EvaluationFault Binary64 := do
  let x ← left
  let y ← right
  match BinaryOp.ofSymbol? symbol with
  | some op => .ok (op.apply x y)
  | none => .error (.unknownOperator symbol)

def computing : Tree.Reading String UntypedLeaf (Except EvaluationFault Binary64) where
  leaf := leafValue
  binary := applySymbol
  negative := Except.map Binary64.neg

def value (e : UntypedExpr) : Except EvaluationFault Binary64 := e.walk computing

theorem value_eq_fold (e : UntypedExpr) : e.value = e.fold computing :=
  Tree.walk_eq_fold computing e

end UntypedExpr

def Expr.untyped : Expr → UntypedExpr
  | .leaf value => .leaf (.number value)
  | .binary op left right => .binary op.symbol (untyped left) (untyped right)
  | .negative operand => .negative (untyped operand)

/-- Every expression has a value as an untyped one, and it is the same. -/
theorem Expr.value_untyped (e : Expr) : (Expr.untyped e).value = .ok e.value := by
  rw [UntypedExpr.value_eq_fold, Expr.value_eq_fold]
  induction e with
  | leaf value => rfl
  | binary op left right ihl ihr =>
    rw [Expr.untyped, Tree.fold, ihl, ihr, Tree.fold]
    simp only [UntypedExpr.computing, UntypedExpr.applySymbol, BinaryOp.ofSymbol?_symbol]
    rfl
  | negative operand ih =>
    rw [Expr.untyped, Tree.fold, ih, Tree.fold]
    rfl

end InfixCalculator
