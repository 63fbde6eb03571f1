import InfixCalculator.CommandLine.Run

/-!
# The program

Runs requests on the standard streams.  Lines are answered as soon as they come in.
-/

namespace InfixCalculator.CommandLine

/-- Computations on the standard streams, with the level of the log. -/
abbrev Streams := StateT LogLevel IO

def Streams.log (r : LogRecord) : Streams Unit := do
  if (← get).severity ≤ r.level.severity then IO.eprintln r.line

instance : MonadConsole Streams where
  log := Streams.log
  isEnabledFor level := return decide ((← get).severity ≤ level.severity)
  writeOutput text := IO.print text
  writeError text := IO.eprint text
  proceedAt level program := do
    set level
    program

/-- The lines on a stream, one portion after the other. -/
partial def linesFrom (input output : IO.FS.Stream) : Session.LineSource Streams := fun answer => do
  output.flush
  let received ← input.getLine
  if received.isEmpty then return false
  else if ← answer (Session.lines received) then return true
  else linesFrom input output answer

def readEnvironment : IO Environment := do
  let mode ← IO.getEnv Environment.modeVariable
  let showAst ← IO.getEnv Environment.showAstVariable
  let logLevel ← IO.getEnv Environment.logLevelVariable
  return ⟨mode, showAst, logLevel⟩

end InfixCalculator.CommandLine

open InfixCalculator CommandLine in
def main (arguments : List String) : IO UInt32 := do
  let env ← readEnvironment
  match Request.ofArguments? arguments with
  | some request =>
    let lines := linesFrom (← IO.getStdin) (← IO.getStdout)
    let (exitCode, _) ← (request.perform plainPlatform env lines).run .warning
    return exitCode.toUInt32
  | none =>
    IO.eprint helpText
    return usageErrorCode.toUInt32
