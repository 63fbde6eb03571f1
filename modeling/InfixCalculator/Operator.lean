import InfixCalculator.Binary64.Power

/-!
# Binary operators

The five operators, the symbols they are written with, and the arithmetic they stand for.
-/

namespace InfixCalculator

inductive BinaryOp where
  | add
  | subtract
  | multiply
  | divide
  | power
  deriving DecidableEq, Repr

namespace BinaryOp

def symbol : BinaryOp → String
  | add => "+"
  | subtract => "-"
  | multiply => "*"
  | divide => "/"
  | power => "^"

def ofSymbol? (symbol : String) : Option BinaryOp :=
  [add, subtract, multiply, divide, power].find? (·.symbol == symbol)

@[simp] theorem ofSymbol?_symbol (op : BinaryOp) : ofSymbol? op.symbol = some op := by
  cases op <;> rfl

def apply : BinaryOp → Binary64 → Binary64 → Binary64
  | add, x, y => x.add y
  | subtract, x, y => x.sub y
  | multiply, x, y => x.mul y
  | divide, x, y => x.div y
  | power, x, y => x.pow y

end BinaryOp

end InfixCalculator
