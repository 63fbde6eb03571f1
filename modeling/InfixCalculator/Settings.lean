import InfixCalculator.Log
import InfixCalculator.Text.Blank
import InfixCalculator.Text.Case

/-!
# Settings

Settings come from the command line and from environment variables, and where neither decides from
the mode the program runs in.  Values are compared without regard to case and to blanks at their
ends; a value that is not understood is logged and then ignored.
-/

namespace InfixCalculator

inductive Mode where
  | development
  | test
  | production
  deriving DecidableEq, Repr

namespace Mode

def name : Mode → String
  | development => "development"
  | test => "test"
  | production => "production"

/-- The mode of a name or of a short form; the empty text means development. -/
def ofText? (text : String) : Option Mode :=
  if ["production", "prod"].contains text then some production
  else if ["test", "testing"].contains text then some test
  else if ["development", "dev", ""].contains text then some development
  else none

end Mode

structure Environment where
  mode : Option String := none
  showAst : Option String := none
  logLevel : Option String := none
  deriving DecidableEq, Repr

structure SettingsSummary where
  mode : Mode
  showAst : Bool
  logLevel : LogLevel
  deriving DecidableEq, Repr

namespace Environment

def modeVariable : String := "PARSEMATH_ENV"

def showAstVariable : String := "PARSEMATH_SHOW_AST"

def logLevelVariable : String := "PARSEMATH_LOG_LEVEL"

variable {m : Type → Type} [Monad m] [MonadLog m]

def warn (message : String) : m Unit := MonadLog.log ⟨.warning, .environment, message⟩

def lowered (value : Option String) : String := Text.trim (Text.lower (value.getD ""))

def resolveMode (env : Environment) : m Mode := do
  let text := lowered env.mode
  match Mode.ofText? text with
  | some mode => return mode
  | none =>
    warn ("Unknown " ++ modeVariable ++ " value '" ++ text
      ++ "'. Valid values: development, test, production. Defaulting to development.")
    return .development

def truth? (text : String) : Option Bool :=
  if ["1", "true", "yes", "on"].contains text then some true
  else if ["0", "false", "no", "off"].contains text then some false
  else none

def showAst? (env : Environment) : m (Option Bool) := do
  let text := lowered env.showAst
  match truth? text with
  | some value => return some value
  | none =>
    if text.isEmpty then return none
    else
      warn ("Ignoring unrecognized " ++ showAstVariable ++ " value '" ++ text ++ "'")
      return none

/-- Whether expressions are displayed: as the command line says, else as the variable says, else in
development mode only. -/
def resolveShowAst (env : Environment) (override : Option Bool) : m Bool := do
  match override with
  | some value => return value
  | none =>
    match ← env.showAst? with
    | some value => return value
    | none => return (← env.resolveMode) = .development

/-- The level of the log: as the command line says unless that is empty, else as the variable says,
and warnings where neither names a level. -/
def resolveLogLevel (env : Environment) (override : Option String) : m LogLevel := do
  let given :=
    match override with
    | some level => if level.isEmpty then env.logLevel.getD "" else level
    | none => env.logLevel.getD ""
  let text := Text.trim (Text.upper given)
  if text.isEmpty then return .warning
  else
    match LogLevel.ofName? text with
    | some level => return level
    | none =>
      warn ("Unknown log level '" ++ text ++ "'. Defaulting to " ++ LogLevel.warning.name ++ ".")
      return .warning

def summary (env : Environment) : m SettingsSummary := do
  let mode ← env.resolveMode
  let showAst ← env.resolveShowAst none
  let logLevel ← env.resolveLogLevel none
  return ⟨mode, showAst, logLevel⟩

end Environment

end InfixCalculator
