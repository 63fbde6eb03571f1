import InfixCalculator.Token.Basic

/-!
# The layered grammar

Expressions as sums of products of powers.  A sum is a product with further products behind plus and
minus signs, a product consists of powers in the same way, and a power of unary expressions; all
three are folded from left to right.  A group is a sum in brackets, multiplied by the power that
begins behind them if an opening bracket stands there.

`Reads rule tokens e rest` says that the rule reads `e` from the beginning of `tokens` and leaves
`rest`.  Repetitions take all they can get: they stop only where no operator of their layer follows.
-/

namespace InfixCalculator.Grammar

/-- The layers of operators, the loosest first. -/
inductive Layer where
  | sum
  | product
  | power
  deriving DecidableEq, Repr

inductive Rule where
  /-- The operands of a layer with its operators between them. -/
  | chain (layer : Layer)
  /-- What follows `left` in a chain. -/
  | repetition (layer : Layer) (left : Expr)
  | unary
  | group
  deriving DecidableEq, Repr

def Layer.operator? : Layer → TokenKind → Option BinaryOp
  | sum, .add => some .add
  | sum, .subtract => some .subtract
  | product, .multiply => some .multiply
  | product, .divide => some .divide
  | power, .caret => some .power
  | _, _ => none

/-- What stands between the operators of a layer. -/
def Layer.operand : Layer → Rule
  | sum => .chain .product
  | product => .chain .power
  | power => .unary

/-- The first of the tokens, if there is one, is not of the given kind. -/
def NotAhead (kind : TokenKind) (tokens : List Token) : Prop :=
  ∀ token ∈ tokens.head?, token.kind ≠ kind

inductive Reads : Rule → List Token → Expr → List Token → Prop
  | chain {layer : Layer} {tokens mid rest : List Token} {left e : Expr}
      (first : Reads layer.operand tokens left mid)
      (more : Reads (.repetition layer left) mid e rest) : Reads (.chain layer) tokens e rest
  | stop {layer : Layer} {left : Expr} {tokens : List Token}
      (ahead : ∀ token ∈ tokens.head?, layer.operator? token.kind = none) :
      Reads (.repetition layer left) tokens left tokens
  | fold {layer : Layer} {token : Token} {op : BinaryOp} {tokens mid rest : List Token}
      {left right e : Expr} (operator : layer.operator? token.kind = some op)
      (operand : Reads layer.operand tokens right mid)
      (more : Reads (.repetition layer (.binary op left right)) mid e rest) :
      Reads (.repetition layer left) (token :: tokens) e rest
  | negative {sign : Token} {tokens rest : List Token} {e : Expr} (minus : sign.kind = .subtract)
      (operand : Reads .unary tokens e rest) : Reads .unary (sign :: tokens) (.negative e) rest
  | number {token : Token} {rest : List Token} (literal : token.kind = .num) :
      Reads .unary (token :: rest) (.leaf token.number) rest
  | group {tokens rest : List Token} {e : Expr} (brackets : Reads .group tokens e rest) :
      Reads .unary tokens e rest
  | single {opening closing : Token} {tokens rest : List Token} {e : Expr}
      (opens : opening.kind = .leftParen) (inner : Reads (.chain .sum) tokens e (closing :: rest))
      (closes : closing.kind = .rightParen) (ahead : NotAhead .leftParen rest) :
      Reads .group (opening :: tokens) e rest
  | implied {opening closing next : Token} {tokens mid rest : List Token} {left right : Expr}
      (opens : opening.kind = .leftParen)
      (inner : Reads (.chain .sum) tokens left (closing :: next :: mid))
      (closes : closing.kind = .rightParen) (ahead : next.kind = .leftParen)
      (factor : Reads (.chain .power) (next :: mid) right rest) :
      Reads .group (opening :: tokens) (.binary .multiply left right) rest

namespace Layer

def precedence : Layer → Nat
  | sum => Precedence.sum
  | product => Precedence.product
  | power => Precedence.power

theorem precedence_of_operator? {layer : Layer} {kind : TokenKind} {op : BinaryOp}
    (h : layer.operator? kind = some op) :
    kind.operator? = some op ∧ kind.precedence = layer.precedence := by
  cases layer <;> cases kind <;>
    simp_all [operator?, TokenKind.operator?, TokenKind.precedence, precedence]

theorem operator?_of_precedence {layer : Layer} {kind : TokenKind} {op : BinaryOp}
    (h : kind.operator? = some op) (hp : kind.precedence = layer.precedence) :
    layer.operator? kind = some op := by
  cases layer <;> cases kind <;>
    simp_all [operator?, TokenKind.operator?, TokenKind.precedence, precedence, Precedence.sum,
      Precedence.product, Precedence.power]

theorem exists_of_operator? {kind : TokenKind} {op : BinaryOp} (h : kind.operator? = some op) :
    ∃ layer : Layer, layer.operator? kind = some op := by
  cases kind <;> simp only [TokenKind.operator?, reduceCtorEq] at h
  case add | subtract => exact ⟨sum, h⟩
  case multiply | divide => exact ⟨product, h⟩
  case caret => exact ⟨power, h⟩

theorem operator?_eq_none {layer : Layer} {kind : TokenKind}
    (hp : kind.precedence ≠ layer.precedence) : layer.operator? kind = none := by
  cases h : layer.operator? kind with
  | none => rfl
  | some op => exact absurd (precedence_of_operator? h).2 hp

end Layer

theorem Reads.tokens_ne_nil {rule : Rule} {tokens rest : List Token} {e : Expr}
    (h : Reads rule tokens e rest) (hrule : ∀ layer left, rule ≠ .repetition layer left) :
    tokens ≠ [] := by
  induction h with
  | @chain layer _ _ _ _ _ _ _ ih _ => exact ih (by cases layer <;> simp [Layer.operand])
  | stop => exact absurd rfl (hrule _ _)
  | group _ ih => exact ih (by simp)
  | fold | negative | number | single | implied => simp

end InfixCalculator.Grammar
