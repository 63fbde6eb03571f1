import InfixCalculator.Calculator
import InfixCalculator.CommandLine.Platform
import InfixCalculator.Text.Case

/-!
# Interactive sessions

A session greets, and then prompts for lines until one asks to leave or the input ends.  Every line
gets a reply that depends on nothing but the line and on whether expressions are displayed.
-/

namespace InfixCalculator.Session

def banner : String :=
  "Hello. Welcome to Arithmetic expression evaluator.\n" ++
  "You can calculate value for expressions such as 2*3+(4-5)+2^3/4.\n" ++
  "Allowed numbers: positive, negative and decimals.\n" ++
  "Supported operations: Add, Subtract, Multiply, Divide, PowerOf(^).\n" ++
  "Enter your arithmetic expression below:"

def prompt : String := "calc> "

/-- Divides a text into lines, each ended by a line feed, a carriage return or both in this order.
`line` holds the beginning of the first line, the last character first.  What follows the last end
of a line is a line if it is not empty. -/
def linesAfter (line : List Char) : List Char → List String
  | [] => if line.isEmpty then [] else [String.ofList line.reverse]
  | '\r' :: '\n' :: rest => String.ofList line.reverse :: linesAfter [] rest
  | c :: rest =>
    if c = '\r' ∨ c = '\n' then String.ofList line.reverse :: linesAfter [] rest
    else linesAfter (c :: line) rest

def lines (text : String) : List String := linesAfter [] text.toList

def isBlankLine (line : String) : Bool := line.toList.all Text.isBlank

def isExit (line : String) : Bool :=
  ["exit", "quit"].contains (Text.lower (Text.trim line))

/-! What precedes an expression that is displayed, the text of an error, and a value. -/

def astLabel : String := "The generated AST is: "

def errorLabel : String := "Error: "

def resultLabel : String := "Result: "

section Turns

variable {m : Type → Type} [Monad m] [MonadConsole m]

open MonadConsole

/-- Replies to a line: nothing to a blank one, else the outcome of evaluating it. -/
def reply (platform : Platform) (showAst : Bool) (line : String) : m Unit := do
  if isBlankLine line then return
  else
    match ← Calculator.compute platform.sessionLimit line with
    | .error fault =>
      writeOutput (platform.print (errorLabel ++ (Calculator.report line fault).text))
    | .ok evaluation =>
      if showAst then
        writeOutput (platform.print (astLabel ++ Expr.render evaluation.expression))
      writeOutput (platform.print (resultLabel ++ evaluation.value.text))

/-- Answers lines, for the first of which the prompt has been written, until one asks to leave.  The
result is whether one did. -/
def converse (platform : Platform) (showAst : Bool) : List String → m Bool
  | [] => return false
  | line :: rest =>
    if isExit line then return true
    else do
      reply platform showAst line
      writeOutput prompt
      converse platform showAst rest

/-- Where lines come from: all of them are passed on, in one or several portions, to what answers
them until one asks to leave. -/
abbrev LineSource (m : Type → Type) := (List String → m Bool) → m Bool

def LineSource.ofText (text : String) : LineSource m := fun answer => answer (lines text)

/-- Holds a session.  At the end of the input the last prompt is ended by a new line. -/
def hold (platform : Platform) (showAst : Bool) (source : LineSource m) : m Unit := do
  writeOutput (platform.print banner)
  writeOutput prompt
  unless ← source (converse platform showAst) do writeOutput "\n"

end Turns

end InfixCalculator.Session
