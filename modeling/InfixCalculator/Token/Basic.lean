import InfixCalculator.Expr.Basic

/-!
# Tokens

A token is a kind with the position of its first character in the source.  Tokens of kind `num`
carry the value of a number literal.  Where the source ends stands a token of kind `eof`.
-/

namespace InfixCalculator

inductive TokenKind where
  | add
  | subtract
  | multiply
  | divide
  | caret
  | leftParen
  | rightParen
  | num
  | eof
  deriving DecidableEq, Repr

/-! How tightly operators bind, the weakest first. -/

namespace Precedence

/-- Tokens that are no binary operators. -/
def lowest : Nat := 0

def sum : Nat := 1

/-- Multiplication and division, written or implied. -/
def product : Nat := 2

def power : Nat := 3

def negation : Nat := 4

end Precedence

namespace TokenKind

def ofChar? : Char → Option TokenKind
  | '+' => some add
  | '-' => some subtract
  | '*' => some multiply
  | '/' => some divide
  | '^' => some caret
  | '(' => some leftParen
  | ')' => some rightParen
  | _ => none

def operator? : TokenKind → Option BinaryOp
  | add => some .add
  | subtract => some .subtract
  | multiply => some .multiply
  | divide => some .divide
  | caret => some .power
  | _ => none

def precedence : TokenKind → Nat
  | add | subtract => Precedence.sum
  | multiply | divide => Precedence.product
  | caret => Precedence.power
  | _ => Precedence.lowest

/-- The name of a kind in messages. -/
def display : TokenKind → String
  | add => "Add"
  | subtract => "Subtract"
  | multiply => "Multiply"
  | divide => "Divide"
  | caret => "Caret"
  | leftParen => "LeftParen"
  | rightParen => "RightParen"
  | num => "Num"
  | eof => "EOF"

/-- The name of a kind in listings of tokens. -/
def label : TokenKind → String
  | add => "add"
  | subtract => "subtract"
  | multiply => "multiply"
  | divide => "divide"
  | caret => "caret"
  | leftParen => "left_paren"
  | rightParen => "right_paren"
  | num => "num"
  | eof => "eof"

def all : List TokenKind :=
  [add, subtract, multiply, divide, caret, leftParen, rightParen, num, eof]

def ofLabel? (label : String) : Option TokenKind := all.find? (·.label == label)

@[simp] theorem ofLabel?_label (kind : TokenKind) : ofLabel? kind.label = some kind := by
  cases kind <;> rfl

end TokenKind

structure Token where
  kind : TokenKind
  value : Option Binary64 := none
  position : Nat := 0
  deriving DecidableEq, Repr

namespace Token

/-- The number that a token carries; a token without a value counts as `nan`. -/
def number (t : Token) : Binary64 := t.value.getD .nan

def valueText (t : Token) : String :=
  match t.value with
  | some value => value.text
  | none => "None"

/-- A token in messages: its name, and the value of a number. -/
def display (t : Token) : String :=
  if t.kind = .num then t.kind.display ++ "(" ++ t.valueText ++ ")" else t.kind.display

def listing (t : Token) : String :=
  "Token(" ++ t.kind.label ++ ", " ++ t.valueText ++ ", pos=" ++ toString t.position ++ ")"

def precedence (t : Token) : Nat := t.kind.precedence

/-- Tokens are equal if their kinds agree and their values compare equal, wherever they stand. -/
def equals (t t' : Token) : Bool :=
  t.kind = t'.kind &&
    match t.value, t'.value with
    | some x, some y => x.equals y
    | none, none => true
    | _, _ => false

end Token

end InfixCalculator
