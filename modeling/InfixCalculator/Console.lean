import InfixCalculator.Log

/-!
# Consoles

A program writes results to the standard output and errors to the standard error, where its log goes
as well.  Programs are written for any monad with these effects.  Here are two: on a console a
record below the level of the log is dropped when it is logged, and a computation in `Logged` notes
everything down and drops what is below a level once it has reached the end.
-/

namespace InfixCalculator

/-- What a program does to the standard streams: a record is a line of the log on the standard
error. -/
inductive Effect where
  | record (r : LogRecord)
  | output (text : String)
  | error (text : String)
  deriving DecidableEq, Repr

namespace Effect

def isShownFrom (level : LogLevel) : Effect → Bool
  | record r => level.severity ≤ r.level.severity
  | output _ | error _ => true

/-- All effects but the records below a level. -/
def atLeast (level : LogLevel) (effects : List Effect) : List Effect :=
  effects.filter (isShownFrom level)

def record? : Effect → Option LogRecord
  | record r => some r
  | output _ | error _ => none

def output? : Effect → Option String
  | output text => some text
  | record _ | error _ => none

def error? : Effect → Option String
  | error text => some text
  | record _ | output _ => none

def outputText (effects : List Effect) : String := String.join (effects.filterMap output?)

def errorText (effects : List Effect) : String := String.join (effects.filterMap error?)

end Effect

/-- Monads in which one can log and write, and set the level of the log for all that follows. -/
class MonadConsole (m : Type → Type) extends MonadLog m where
  writeOutput : String → m Unit
  writeError : String → m Unit
  proceedAt {α : Type} : LogLevel → m α → m α

structure Logged (α : Type) where
  result : α
  effects : List Effect := []

namespace Logged

instance : Monad Logged where
  pure a := ⟨a, []⟩
  bind x f := ⟨(f x.result).result, x.effects ++ (f x.result).effects⟩

instance : MonadConsole Logged where
  log r := ⟨(), [.record r]⟩
  isEnabledFor _ := ⟨true, []⟩
  writeOutput text := ⟨(), [.output text]⟩
  writeError text := ⟨(), [.error text]⟩
  proceedAt level x := ⟨x.result, Effect.atLeast level x.effects⟩

def records {α : Type} (x : Logged α) : List LogRecord := x.effects.filterMap Effect.record?

end Logged

/-- A console with the level of its log, and all that was done to it. -/
structure Console where
  level : LogLevel := .warning
  effects : List Effect := []

def Console.receive (console : Console) (effect : Effect) : Console :=
  if effect.isShownFrom console.level then
    { console with effects := console.effects ++ [effect] }
  else console

abbrev Terminal := StateM Console

instance : MonadConsole Terminal where
  log r := modify fun console => console.receive (.record r)
  isEnabledFor level := return decide ((← get).level.severity ≤ level.severity)
  writeOutput text := modify fun console => console.receive (.output text)
  writeError text := modify fun console => console.receive (.error text)
  proceedAt level x := do
    modify fun console => { console with level := level }
    x

end InfixCalculator
