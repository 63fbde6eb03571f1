import InfixCalculator.CommandLine.Arguments
import InfixCalculator.Text.ControlSequence

/-!
# Running the program

The commands on one platform: there is room for a hundred nested levels, and lines are written where
no terminal listens.  Of the platform's own texts this one has summaries only, and nothing is proved
about them.
-/

namespace InfixCalculator

/-- How many expressions may be read at one time.  Every open level, a bracket, a sign or an implied
product, takes four of them at most. -/
def Parsing.defaultLimit : Nat := 480

def Expr.parse (source : String) : Except Fault Expr := parseWithin Parsing.defaultLimit source

def Calculator.evaluate (line : String) : Logged (Except Fault Evaluation) :=
  evaluateWithin Parsing.defaultLimit line

namespace CommandLine

/-- The program and its version.  The line on the interpreter that a platform adds is left out. -/
def versionText : String := "parsemath 0.1.0"

/-- A summary of the arguments, in place of the pages that a library of arguments lays out. -/
def helpText : String :=
  "parsemath: arithmetic expression evaluator\n\n" ++
  "parsemath eval [OPTIONS] [--] EXPRESSION   evaluate one expression\n" ++
  "parsemath repl [OPTIONS]                   evaluate expressions line by line\n" ++
  "parsemath --version                        show the version and the settings\n\n" ++
  "Options: --show-ast, --no-show-ast, --log-level LEVEL, --help\n"

/-- A platform without a terminal.  A session reads expressions a call deeper. -/
def plainPlatform : Platform where
  evaluationLimit := Parsing.defaultLimit
  sessionLimit := Parsing.defaultLimit - 1
  echo text := Text.removeControlSequences text ++ "\n"
  print text := Text.without Text.cursorCodes text ++ "\n"
  about := [versionText]
  help := helpText

def usageErrorCode : Nat := 2

def run (arguments : List String) (env : Environment) (input : String) : Outcome :=
  match Request.ofArguments? arguments with
  | some request => .ofTerminal (request.perform plainPlatform env (.ofText input))
  | none => { exitCode := usageErrorCode }

end CommandLine

end InfixCalculator
