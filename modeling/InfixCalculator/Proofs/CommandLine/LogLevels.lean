import InfixCalculator.CommandLine.Run
import InfixCalculator.Proofs.CommandLine.Consoles

/-!
# The level of the log

However the log level is set, a run gives the same answers.  What is logged at some level is what is
logged for debugging, without the records below the level.
-/

namespace InfixCalculator

namespace LogRecord

variable {level : LogLevel}

def atLeast (level : LogLevel) (records : List LogRecord) : List LogRecord :=
  records.filter fun r => level.severity ≤ r.level.severity

theorem atLeast_debug (records : List LogRecord) : atLeast .debug records = records := by
  simp [atLeast, LogLevel.severity]

theorem filterMap_atLeast (effects : List Effect) :
    (Effect.atLeast level effects).filterMap Effect.record? =
      atLeast level (effects.filterMap Effect.record?) := by
  rw [Effect.atLeast, atLeast, List.filterMap_filter, List.filter_filterMap]
  congr 1
  funext effect
  cases effect with
  | output text | error text => rfl
  | record r => simp [Effect.isShownFrom, Effect.record?, Option.filter]

end LogRecord

namespace Environment

variable (env : Environment) (override given : Option String)

def unknownLevel (text : String) : LogRecord :=
  ⟨.warning, .environment,
    "Unknown log level '" ++ text ++ "'. Defaulting to " ++ LogLevel.warning.name ++ "."⟩

/-- The level is resolved with one warning at most, and then warnings are logged. -/
theorem records_resolveLogLevel :
    (env.resolveLogLevel override : Logged LogLevel).records = [] ∨
      (env.resolveLogLevel override : Logged LogLevel).result = .warning ∧
        ∃ text, (env.resolveLogLevel override : Logged LogLevel).records =
          [unknownLevel text] := by
  unfold resolveLogLevel
  dsimp only
  generalize Text.trim _ = text
  by_cases hempty : text.isEmpty = true
  · left
    rw [if_pos hempty]
    rfl
  · rw [if_neg hempty]
    cases LogLevel.ofName? text with
    | some level =>
      left
      rfl
    | none =>
      right
      exact ⟨rfl, text, rfl⟩

theorem resolveShowAst_logLevel (showAst : Option Bool) :
    (resolveShowAst { env with logLevel := given } showAst : Logged Bool) =
      env.resolveShowAst showAst := by
  unfold resolveShowAst showAst? resolveMode
  dsimp only

end Environment

namespace CommandLine

namespace Command

def options : Command → Options
  | evaluate options _ | interact options => options

def withLevel (level : Option String) : Command → Command
  | evaluate options expression => evaluate { options with logLevel := level } expression
  | interact options => interact { options with logLevel := level }

def level (command : Command) (env : Environment) : Logged LogLevel := command.options.level env

end Command

variable {platform : Platform} {env : Environment} {options : Options}

theorem records_level (options : Options) (env : Environment) : (options.level env).records = [] ∨
    (options.level env).result = .warning ∧
      ∃ text, (options.level env).records = [Environment.unknownLevel text] :=
  env.records_resolveLogLevel options.logLevel

theorem atLeast_records_level (options : Options) (env : Environment) :
    LogRecord.atLeast .warning (options.level env).records = (options.level env).records := by
  rcases records_level options env with hnone | ⟨-, text, hone⟩
  · rw [hnone]
    rfl
  · rw [hone]
    rfl

theorem evaluateOnce_logLevel (env : Environment) (options : Options)
    (given override : Option String) (text : String) :
    (evaluateOnce platform { env with logLevel := given } { options with logLevel := override }
      text : Logged Nat) = evaluateOnce platform env options text := by
  unfold evaluateOnce
  simp only [Environment.resolveShowAst_logLevel]

theorem interact_logLevel (env : Environment) (options : Options)
    (given override : Option String) (source : Session.LineSource Logged) :
    interact platform { env with logLevel := given } { options with logLevel := override } source =
      interact platform env options source := by
  unfold interact
  simp only [Environment.resolveShowAst_logLevel]

/-- Of what a command does nothing but the level at which it goes on depends on the log level. -/
theorem Command.exists_perform_eq (command : Command) (platform : Platform)
    (override : Option String) (env : Environment) (given : Option String) (input : String) :
    ∃ x : Logged Nat,
      command.perform platform env (.ofText input) = command.options.proceed env x ∧
      (command.withLevel override).perform platform { env with logLevel := given }
        (.ofText input) =
        (command.withLevel override).options.proceed { env with logLevel := given } x := by
  cases command with
  | evaluate options text =>
    refine ⟨evaluateOnce platform env options text, rfl, ?_⟩
    rw [withLevel, perform, evaluateOnce_logLevel, Command.options]
  | interact options =>
    refine ⟨CommandLine.interact platform env options (.ofText input), rfl, ?_⟩
    rw [withLevel, perform, interact_logLevel, Command.options]

theorem records_proceed (x : Logged Nat) : (Outcome.ofLogged (options.proceed env x)).records =
    (options.level env).records ++ LogRecord.atLeast (options.level env).result x.records := by
  rw [Outcome.records, Outcome.ofLogged, effects_proceed, List.filterMap_append,
    LogRecord.filterMap_atLeast, LogRecord.filterMap_atLeast, ← Logged.records, ← Logged.records,
    atLeast_records_level]

theorem proceed_agree (env env' : Environment) (options options' : Options) (x : Logged Nat) :
    (Outcome.ofLogged (options'.proceed env' x)).output =
        (Outcome.ofLogged (options.proceed env x)).output ∧
      (Outcome.ofLogged (options'.proceed env' x)).errors =
        (Outcome.ofLogged (options.proceed env x)).errors ∧
      (Outcome.ofLogged (options'.proceed env' x)).exitCode =
        (Outcome.ofLogged (options.proceed env x)).exitCode ∧
      ((options'.level env').result = .debug →
        (Outcome.ofLogged (options.proceed env x)).records =
          (options.level env).records ++ LogRecord.atLeast (options.level env).result
            (Outcome.ofLogged (options'.proceed env' x)).records) := by
  refine ⟨?_, ?_, ?_, fun hdebug => ?records⟩
  · rw [Outcome.output_proceed, Outcome.output_proceed]
  · rw [Outcome.errors_proceed, Outcome.errors_proceed]
  · rw [Outcome.exitCode_proceed, Outcome.exitCode_proceed]
  case records =>
    have hnone : (options'.level env').records = [] := by
      rcases records_level options' env' with hnone | ⟨hwarning, -⟩
      · exact hnone
      · rw [hwarning] at hdebug
        cases hdebug
    rw [records_proceed, records_proceed, hdebug, hnone, LogRecord.atLeast_debug, List.nil_append]

/-- Two runs that differ in the log level, on the command line or in the environment, give the same
answers.  Behind the warning about an unknown level, if there is one, a run logs the records that a
run for debugging logs, without those below its level.  To note all records down and choose among
them in the end makes no difference. -/
theorem log_level_only_filters (platform : Platform) (command : Command) (override : Option String)
    (env : Environment) (given : Option String) (input : String) :
    command.run platform env input =
        Outcome.ofLogged (command.perform platform env (.ofText input)) ∧
      ((command.withLevel override).run platform { env with logLevel := given } input).output =
        (command.run platform env input).output ∧
      ((command.withLevel override).run platform { env with logLevel := given } input).errors =
        (command.run platform env input).errors ∧
      ((command.withLevel override).run platform { env with logLevel := given } input).exitCode =
        (command.run platform env input).exitCode ∧
      ((command.level env).records = [] ∨ (command.level env).result = .warning ∧
        ∃ text, (command.level env).records = [Environment.unknownLevel text]) ∧
      (((command.withLevel override).level { env with logLevel := given }).result = .debug →
        (command.run platform env input).records = (command.level env).records ++
          LogRecord.atLeast (command.level env).result
            ((command.withLevel override).run platform { env with logLevel := given }
              input).records) := by
  obtain ⟨x, hperform, hperform'⟩ := command.exists_perform_eq platform override env given input
  obtain ⟨houtput, herrors, hcode, hrecords⟩ := proceed_agree env { env with logLevel := given }
    command.options (command.withLevel override).options x
  refine ⟨command.run_eq platform env input, ?_⟩
  rw [Command.run_eq, Command.run_eq, hperform, hperform']
  exact ⟨houtput, herrors, hcode, records_level command.options env, hrecords⟩

/-- The level `loud` is unknown.  Behind the warning about it the log holds the warnings among the
records for debugging. -/
theorem log_level_only_filters_loud :
    ((Command.evaluate {} "2*)").run plainPlatform { logLevel := some "loud" } "").records =
      [Environment.unknownLevel "LOUD"] ++ LogRecord.atLeast .warning
        ((Command.evaluate { logLevel := some "debug" } "2*)").run plainPlatform {}
          "").records := by
  have hlevel : ((Command.evaluate {} "2*)").level { logLevel := some "loud" }).records =
        [Environment.unknownLevel "LOUD"] ∧
      ((Command.evaluate {} "2*)").level { logLevel := some "loud" }).result = .warning := by
    decide +kernel
  obtain ⟨-, -, -, -, -, hrecords⟩ := log_level_only_filters plainPlatform
    (.evaluate {} "2*)") (some "debug") { logLevel := some "loud" } none ""
  have hfiltered := hrecords (by decide +kernel)
  rw [hlevel.1, hlevel.2] at hfiltered
  exact hfiltered

end CommandLine

end InfixCalculator
