import InfixCalculator.Report
import InfixCalculator.Text.Quoted
import InfixCalculator.Token.Basic

/-!
# Faults of expressions

The reasons why a text is not an expression, each with the column at which it was found.
-/

namespace InfixCalculator

/-- A reason why a text is not an expression. -/
inductive FaultCause where
  | emptyExpression
  | unexpectedCharacter (c : Char)
  | malformedNumber (literal : List Char)
  /-- A token was asked for behind the end. -/
  | noMoreTokens
  | expected (kind : TokenKind) (found : Token)
  | operandExpected (found : Token)
  /-- The text ends where an operand is due. -/
  | unexpectedEnd
  | operatorExpected (found : Token)
  | leftoverToken (found : Token)
  | nestedTooDeeply
  deriving DecidableEq, Repr

namespace FaultCause

def kind : FaultCause → ReportKind
  | malformedNumber _ | unexpectedEnd | nestedTooDeeply => .unableToParse
  | _ => .invalidOperator

def detail : FaultCause → String
  | emptyExpression => "Empty expression"
  | unexpectedCharacter c => "Unexpected character: " ++ String.ofList (Text.quoteChars [c])
  | malformedNumber literal =>
    "Invalid number literal: " ++ String.ofList (Text.quoteChars literal)
  | noMoreTokens => "No more tokens"
  | expected kind found =>
    "Expected " ++ Token.display ⟨kind, none, 0⟩ ++ ", got " ++ found.display
  | operandExpected found => "Unexpected " ++ found.display ++ " where an operand was expected"
  | unexpectedEnd => "Unexpected end of input"
  | operatorExpected found => "Please enter valid operator " ++ found.display
  | leftoverToken found => "Unexpected token after expression: " ++ found.display
  | nestedTooDeeply => "Expression is nested too deeply"

end FaultCause

/-- A fault: its cause, and its column in the source if it has a place there. -/
structure Fault where
  cause : FaultCause
  column : Option Nat := none
  deriving DecidableEq, Repr

namespace Fault

def kind (f : Fault) : ReportKind := f.cause.kind

def detail (f : Fault) : String := f.cause.detail

def report (f : Fault) (source : String) : Report :=
  .at? f.kind f.detail (some source) (f.column.map Int.ofNat)

end Fault

end InfixCalculator
