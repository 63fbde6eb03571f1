import InfixCalculator.Decimal.Text
import InfixCalculator.Expr.Depth
import InfixCalculator.Operator

/-!
# Expressions

An expression is a tree of numbers, binary operators and negations.  It is shown with brackets
around every binary node and has a binary64 number as its value.
-/

namespace InfixCalculator

abbrev Expr := Tree BinaryOp Binary64

namespace Expr

/-- The text of a negation: a minus sign before the text of the operand, which is put in brackets
if it begins with a minus sign itself. -/
def negativeText (operand : String) : String :=
  if operand.startsWith '-' then "-(" ++ operand ++ ")" else "-" ++ operand

/-- Shows an expression: numbers by their text and every binary node in brackets. -/
def showing : Tree.Reading BinaryOp Binary64 String where
  leaf := Binary64.text
  binary op left right := "(" ++ left ++ " " ++ op.symbol ++ " " ++ right ++ ")"
  negative := negativeText

def render (e : Expr) : String := e.walk showing

def computing : Tree.Reading BinaryOp Binary64 Binary64 where
  leaf := id
  binary := BinaryOp.apply
  negative := Binary64.neg

def value (e : Expr) : Binary64 := e.walk computing

theorem render_eq_fold (e : Expr) : e.render = e.fold showing := Tree.walk_eq_fold showing e

theorem value_eq_fold (e : Expr) : e.value = e.fold computing := Tree.walk_eq_fold computing e

/-- Expressions are equal if their operators and shapes agree and their numbers compare equal. -/
def equals (e e' : Expr) : Bool := e.equalsBy Binary64.equals e'

end Expr

end InfixCalculator
