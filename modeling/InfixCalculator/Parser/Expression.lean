import InfixCalculator.Parser.State

/-!
# Parsing expressions

Expressions are read by climbing precedences: an operand is followed by operators that bind tighter
than a threshold, each with the expression that binds tighter than itself as its right operand.
Operators of one precedence, powers included, are folded from left to right.  A minus sign binds
tighter than every operator, and a bracketed expression before an opening bracket is multiplied by
the product that begins there.

The number of expressions that are being read at one time is limited.
-/

namespace InfixCalculator.Parsing

/-- Reads an operand: a number, a bracketed expression with what it is multiplied by, or a minus
sign and its operand.  Expressions inside are read by `nested`, given a threshold. -/
def operand (nested : Int → Parsing Expr) : Parsing Expr := do
  let token ← current
  match token.kind with
  | .subtract =>
    advance
    let inner ← nested Precedence.negation
    return .negative inner
  | .num =>
    advance
    return .leaf token.number
  | .leftParen =>
    advance
    let inner ← nested Precedence.lowest
    expect .rightParen
    let next ← current
    if next.kind = .leftParen then
      let right ← nested Precedence.product
      return .binary .multiply inner right
    else return inner
  | .eof => fail .unexpectedEnd
  | _ => fail (.operandExpected token)

/-- Folds the operators that bind tighter than the threshold into `left`.  Below the threshold zero
every token has to be an operator until the end.  Each operator but the first takes at least one of
the characters that were left at the first one, which are given as `bound`. -/
def operators (nested : Int → Parsing Expr) (threshold : Int) (bound : List Char) (left : Expr) :
    Parsing Expr := do
  let token ← current
  if token.precedence ≤ threshold ∨ token.kind = .eof then return left
  else
    match token.kind.operator? with
    | none => fail (.operatorExpected token)
    | some op =>
      advance
      let right ← nested token.precedence
      match bound with
      | [] => return .binary op left right
      | _ :: bound => operators nested threshold bound (.binary op left right)

def failTooDeep {α : Type} : Parsing α := fun s => .error ⟨.nestedTooDeeply, none⟩ s

/-- Reads an expression of operators that bind tighter than the threshold, where at most `limit`
expressions, this one included, may be read at one time. -/
def expression : Nat → Int → Parsing Expr
  | 0, _ => failTooDeep
  | limit + 1, threshold => do
    let left ← operand (expression limit)
    let s ← get
    operators (expression limit) threshold s.cursor.rest left

def whole (limit : Nat) : Parsing Expr := do
  let e ← expression limit Precedence.lowest
  let token ← current
  if token.kind = .eof then return e else fail (.leftoverToken token)

def result {α : Type} (step : Parsing α) (s : ParserState) : Except Fault α :=
  match step s with
  | .ok a _ => .ok a
  | .error fault _ => .error fault

end InfixCalculator.Parsing

namespace InfixCalculator.Expr

/-- The expression that a source spells, within a limit of nesting. -/
def parseWithin (limit : Nat) (source : String) : Except Fault Expr := do
  let s ← ParserState.ofSource source
  Parsing.result (Parsing.whole limit) s

end InfixCalculator.Expr
