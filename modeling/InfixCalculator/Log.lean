/-!
# Log records

Programs log records.  A record has a level, and a log that is kept from some level on has no room
for the records below it; a program may ask for the level before it takes pains over a record.
-/

namespace InfixCalculator

/-- The levels of log records, the least severe first. -/
inductive LogLevel where
  | debug
  | info
  | warning
  | error
  | critical
  deriving DecidableEq, Repr

namespace LogLevel

def name : LogLevel → String
  | debug => "DEBUG"
  | info => "INFO"
  | warning => "WARNING"
  | error => "ERROR"
  | critical => "CRITICAL"

def severity : LogLevel → Nat
  | debug => 0
  | info => 1
  | warning => 2
  | error => 3
  | critical => 4

def ofName? (name : String) : Option LogLevel :=
  [debug, info, warning, error, critical].find? (·.name == name)

@[simp] theorem ofName?_name (level : LogLevel) : ofName? level.name = some level := by
  cases level <;> rfl

end LogLevel

inductive LogSource where
  | parser
  | calculator
  | environment
  deriving DecidableEq, Repr

def LogSource.name : LogSource → String
  | parser => "parsemath.core.expression_lang.parser"
  | calculator => "parsemath.core.calculator"
  | environment => "parsemath.core.environment"

structure LogRecord where
  level : LogLevel
  source : LogSource
  message : String
  deriving DecidableEq, Repr

/-- A record as a line of the log, without the time. -/
def LogRecord.line (r : LogRecord) : String :=
  "[" ++ r.level.name ++ "] " ++ r.source.name ++ ": " ++ r.message

class MonadLog (m : Type → Type) where
  log : LogRecord → m Unit
  isEnabledFor : LogLevel → m Bool

end InfixCalculator
