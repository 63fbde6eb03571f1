import InfixCalculator.Console
import InfixCalculator.Parser.Expression
import InfixCalculator.Text.Blank

/-!
# The calculator

A line is freed of all its blanks, read as an expression and computed.  What happens on the way is
logged at the level for debugging.
-/

namespace InfixCalculator

structure Evaluation where
  expression : Expr
  value : Binary64
  deriving DecidableEq, Repr

namespace Calculator

variable {m : Type → Type} [Monad m] [MonadLog m]

def expressionText (line : String) : String := Text.removeBlanks line

def debug (source : LogSource) (message : String) : m Unit :=
  MonadLog.log ⟨.debug, source, message⟩

/-- Logs how deep an expression is.  The depth is computed for a log that is kept for debugging
only. -/
def logDepth (e : Expr) : m Unit := do
  if ← MonadLog.isEnabledFor .debug then
    debug .calculator ("Generated AST of depth " ++ toString e.depth)

def logEvaluation (text : String) (evaluation : Evaluation) : m Unit := do
  debug .parser
    ("Parsed " ++ Text.quote text ++ " into " ++ Expr.render evaluation.expression)
  logDepth evaluation.expression
  debug .calculator (Text.quote text ++ " evaluated to " ++ evaluation.value.text)

def logFault (text : String) (fault : Fault) : m Unit :=
  if fault.cause = .nestedTooDeeply then
    debug .calculator ("Expression " ++ Text.quote text ++ " is nested too deeply")
  else debug .calculator ("Rejected " ++ Text.quote text ++ ": " ++ fault.detail)

def compute (limit : Nat) (line : String) : m (Except Fault Evaluation) := do
  let text := expressionText line
  match Expr.parseWithin limit text with
  | .ok e =>
    let evaluation : Evaluation := ⟨e, Expr.value e⟩
    logEvaluation text evaluation
    return .ok evaluation
  | .error fault =>
    logFault text fault
    return .error fault

/-- The outcome for a line, with all that is logged on the way. -/
def evaluateWithin (limit : Nat) (line : String) : Logged (Except Fault Evaluation) :=
  compute limit line

def report (line : String) (fault : Fault) : Report := fault.report (expressionText line)

end Calculator

end InfixCalculator
