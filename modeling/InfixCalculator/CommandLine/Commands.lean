import InfixCalculator.CommandLine.Session
import InfixCalculator.Settings

/-!
# Commands

The program evaluates one expression, or holds a session, with the log at the level that the
settings give.  On request it shows its version and settings, or help.
-/

namespace InfixCalculator.CommandLine

open MonadConsole

structure Options where
  showAst : Option Bool := none
  logLevel : Option String := none
  deriving DecidableEq, Repr

inductive Command where
  | evaluate (options : Options) (expression : String)
  | interact (options : Options)
  deriving DecidableEq, Repr

inductive Request where
  | version
  | help
  | command (asked : Command)
  deriving DecidableEq, Repr

structure Outcome where
  exitCode : Nat
  effects : List Effect := []
  deriving DecidableEq, Repr

namespace Outcome

def output (outcome : Outcome) : String := Effect.outputText outcome.effects

def errors (outcome : Outcome) : String := Effect.errorText outcome.effects

def records (outcome : Outcome) : List LogRecord := outcome.effects.filterMap Effect.record?

/-- All that goes to the standard error, the lines of the log included. -/
def standardError (outcome : Outcome) : List Effect :=
  outcome.effects.filter fun effect => effect.output?.isNone

/-- The outcome of a program whose result is its exit code.  At first the log is kept from warnings
on. -/
def ofTerminal (program : Terminal Nat) : Outcome :=
  let (exitCode, console) := program.run {}
  { exitCode, effects := console.effects }

end Outcome

variable {m : Type → Type} [Monad m] [MonadConsole m]

/-- Goes on at the level that the settings give.  What is logged in finding the level is shown from
warnings on. -/
def Options.proceed {α : Type} (options : Options) (env : Environment) (program : m α) : m α := do
  let level ← proceedAt .warning (env.resolveLogLevel options.logLevel)
  proceedAt level program

/-- Evaluates one expression; the result is the exit code.  Whether to display the expression is
resolved only if it has a value. -/
def evaluateOnce (platform : Platform) (env : Environment) (options : Options)
    (expression : String) : m Nat := do
  match ← Calculator.compute platform.evaluationLimit expression with
  | .error fault =>
    writeError (platform.echo (Session.errorLabel ++ (Calculator.report expression fault).text))
    return 1
  | .ok evaluation =>
    if ← env.resolveShowAst options.showAst then
      writeOutput (platform.echo (Session.astLabel ++ Expr.render evaluation.expression))
    writeOutput (platform.echo evaluation.value.text)
    return 0

def interact (platform : Platform) (env : Environment) (options : Options)
    (source : Session.LineSource m) : m Nat := do
  Session.hold platform (← env.resolveShowAst options.showAst) source
  return 0

def showVersion (platform : Platform) (env : Environment) : m Nat := do
  platform.about.forM fun line => writeOutput (platform.echo line)
  let settings ← env.summary
  writeOutput (platform.echo ("Environment: " ++ settings.mode.name))
  writeOutput (platform.echo ("Show AST:    " ++ if settings.showAst then "on" else "off"))
  writeOutput (platform.echo ("Log level:   " ++ settings.logLevel.name))
  return 0

def Command.perform (platform : Platform) (env : Environment) (source : Session.LineSource m) :
    Command → m Nat
  | evaluate options expression =>
    options.proceed env (evaluateOnce platform env options expression)
  | interact options =>
    options.proceed env (CommandLine.interact platform env options source)

def Request.perform (platform : Platform) (env : Environment) (source : Session.LineSource m) :
    Request → m Nat
  | version => showVersion platform env
  | help => do
    writeOutput platform.help
    return 0
  | command asked => asked.perform platform env source

def Command.run (command : Command) (platform : Platform) (env : Environment) (input : String) :
    Outcome :=
  .ofTerminal (command.perform platform env (.ofText input))

end InfixCalculator.CommandLine
