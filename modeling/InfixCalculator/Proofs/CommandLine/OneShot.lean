import InfixCalculator.Proofs.CommandLine.Printing
import InfixCalculator.Proofs.CommandLine.Sessions
import InfixCalculator.Proofs.Parser.Nesting

/-!
# One expression and a session of one line

An expression is evaluated on its own or as a line of a session, and both ways the same is said of
it, unless it is nested too deeply for one of them only.  What is written differs where the terminal
comes in: an error on its own may be freed of control sequences, and a session drops characters that
would ring or move back.
-/

namespace InfixCalculator

open Text

namespace Calculator

variable {limit limit' : Nat} {line : String}

theorem result_eq_tooDeep_iff : (evaluateWithin limit line).result = .error .tooDeep ↔
    Expr.parseWithin limit (expressionText line) = .error .tooDeep := by
  constructor
  · exact parseWithin_of_error
  · intro h
    rw [result_evaluateWithin, h]
    rfl

/-- Two limits make a difference only if one of them is reached. -/
theorem result_congr (h : (evaluateWithin limit line).result = .error .tooDeep ↔
      (evaluateWithin limit' line).result = .error .tooDeep) :
    (evaluateWithin limit line).result = (evaluateWithin limit' line).result := by
  by_cases hdeep : (evaluateWithin limit line).result = .error .tooDeep
  · rw [hdeep, h.1 hdeep]
  · have hdeep' := mt h.2 hdeep
    rw [result_eq_tooDeep_iff] at hdeep hdeep'
    rw [result_evaluateWithin, result_evaluateWithin]
    -- Whichever limit is the lower one, it is not reached.
    rcases Nat.le_total limit limit' with hle | hle
    · rw [Expr.parseWithin_of_le hdeep hle]
    · rw [Expr.parseWithin_of_le hdeep' hle]

end Calculator

namespace Session

variable {platform : Platform} {showAst : Bool}

/-- The line that displays an expression, if it is displayed. -/
def displayed (showAst : Bool) (e : Expr) : String :=
  if showAst then astLabel ++ e.render ++ "\n" else ""

theorem outcomeText_ok (hplatform : platform.Documented) (showAst : Bool) (line : String)
    (evaluation : Evaluation) : outcomeText platform showAst line (.ok evaluation) =
      displayed showAst evaluation.expression ++
        (resultLabel ++ evaluation.value.text ++ "\n") := by
  rw [outcomeText, displayed, print_of_legible hplatform (legible_ast _) (endsVisibly_ast _),
    print_of_legible hplatform (legible_result _) (endsVisibly_result _)]

/-! ## The standard error of a session -/

theorem errors_reply (platform : Platform) (showAst : Bool) (line : String) :
    (reply platform showAst line : Logged Unit).errors = [] := by
  unfold reply
  split
  · rfl
  · rw [Logged.errors_bind, (Calculator.logs_compute _ _).errors_eq, List.nil_append]
    cases (Calculator.compute platform.sessionLimit line : Logged _).result with
    | error fault => rfl
    | ok evaluation => cases showAst <;> rfl

theorem errors_converse (platform : Platform) (showAst : Bool) (ls : List String) :
    (converse platform showAst ls : Logged Bool).errors = [] := by
  induction ls with
  | nil => rfl
  | cons line ls ih =>
    unfold converse
    split
    · rfl
    · simp [errors_reply, ih]

theorem errors_hold (platform : Platform) (showAst : Bool) (input : String) :
    (hold platform showAst (.ofText input) : Logged Unit).errors = [] := by
  have hend (left : Bool) :
      (if left then pure () else MonadConsole.writeOutput "\n" : Logged Unit).errors = [] := by
    cases left <;> rfl
  simp only [hold, LineSource.ofText, Logged.errors_bind, Logged.errors_writeOutput,
    errors_converse, hend, List.nil_append]

end Session

namespace CommandLine

open Session

variable {platform : Platform} {env : Environment} {options options' : Options}
  {text input ignored : String}

namespace Outcome

variable {outcome : Outcome}

theorem records_standardError (outcome : Outcome) :
    outcome.standardError.filterMap Effect.record? = outcome.records := by
  rw [standardError, records, List.filterMap_filter]
  congr 1
  funext effect
  cases effect <;> rfl

theorem standardError_of_errors_nil (h : outcome.effects.filterMap Effect.error? = []) :
    outcome.standardError = outcome.records.map .record := by
  have honly : Effect.OnlyRecords outcome.standardError := by
    intro effect heffect
    obtain ⟨hmem, houtput⟩ := List.mem_filter.1 heffect
    cases effect with
    | record r => exact ⟨r, rfl⟩
    | output text => cases houtput
    | error text => cases List.filterMap_eq_nil_iff.1 h _ hmem
  rw [honly.eq_map, records_standardError]

/-- An error behind the log stands behind it on the standard error. -/
theorem standardError_of_error {log : List Effect} (hlog : Effect.OnlyRecords log)
    (h : outcome.effects = log ++ [.error text]) :
    outcome.standardError = outcome.records.map .record ++ [.error text] := by
  have hkept : log.filter (fun effect => effect.output?.isNone) = log := by
    rw [List.filter_eq_self]
    intro effect heffect
    obtain ⟨r, rfl⟩ := hlog effect heffect
    rfl
  have hrecords : outcome.records = log.filterMap Effect.record? := by
    rw [records, h, List.filterMap_append]
    exact List.append_nil _
  rw [standardError, h, List.filter_append, hkept, hrecords, ← hlog.eq_map]
  rfl

end Outcome

theorem evaluateOnce_ok {evaluation : Evaluation}
    (h : (Calculator.evaluateWithin platform.evaluationLimit text).result = .ok evaluation)
    (env : Environment) (options : Options) :
    (evaluateOnce platform env options text : Logged Nat).result = 0 ∧
      (evaluateOnce platform env options text : Logged Nat).errors = [] ∧
      (evaluateOnce platform env options text : Logged Nat).output =
        (if env.showsAst options.showAst then
          platform.echo (astLabel ++ evaluation.expression.render) else "") ++
        platform.echo evaluation.value.text := by
  have hcompute : (Calculator.compute platform.evaluationLimit text : Logged _).result =
    .ok evaluation := h
  have hlogs := env.logs_resolveShowAst options.showAst
  have hshown : (env.resolveShowAst options.showAst : Logged Bool).result =
    env.showsAst options.showAst := rfl
  rw [evaluateOnce, Logged.result_bind, Logged.errors_bind, Logged.output_bind, hcompute,
    (Calculator.logs_compute _ _).errors_eq, (Calculator.logs_compute _ _).output_eq]
  simp only [Logged.result_bind, Logged.errors_bind, Logged.output_bind, hlogs.errors_eq,
    hlogs.output_eq, hshown]
  cases env.showsAst options.showAst <;> simp [-bind_pure_comp]

theorem evaluateOnce_error {fault : Fault}
    (h : (Calculator.evaluateWithin platform.evaluationLimit text).result = .error fault)
    (env : Environment) (options : Options) :
    (evaluateOnce platform env options text : Logged Nat).result = 1 ∧
      (evaluateOnce platform env options text : Logged Nat).effects =
        (Calculator.evaluateWithin platform.evaluationLimit text).effects ++
          [.error (platform.echo (errorLabel ++ (Calculator.report text fault).text))] := by
  have hcompute : (Calculator.compute platform.evaluationLimit text : Logged _).result =
    .error fault := h
  rw [evaluateOnce, Logged.result_bind, Logged.effects_bind, hcompute]
  exact ⟨rfl, rfl⟩

theorem run_evaluate_ok {evaluation : Evaluation}
    (h : (Calculator.evaluateWithin platform.evaluationLimit text).result = .ok evaluation)
    (env : Environment) (options : Options) (input : String) :
    ((Command.evaluate options text).run platform env input).exitCode = 0 ∧
      ((Command.evaluate options text).run platform env input).standardError =
        ((Command.evaluate options text).run platform env input).records.map .record ∧
      ((Command.evaluate options text).run platform env input).output =
        (if env.showsAst options.showAst then
          platform.echo (astLabel ++ evaluation.expression.render) else "") ++
        platform.echo evaluation.value.text := by
  obtain ⟨hcode, herrors, houtput⟩ := evaluateOnce_ok h env options
  rw [Command.run_eq, Command.perform]
  refine ⟨?_, ?_, ?_⟩
  · rw [Outcome.exitCode_proceed, hcode]
  · apply Outcome.standardError_of_errors_nil
    rw [Outcome.filterMap_proceed env options _ fun _ => rfl]
    exact herrors
  · rw [Outcome.output_proceed, houtput]

theorem run_evaluate_error {fault : Fault}
    (h : (Calculator.evaluateWithin platform.evaluationLimit text).result = .error fault)
    (env : Environment) (options : Options) (input : String) :
    ((Command.evaluate options text).run platform env input).exitCode = 1 ∧
      ((Command.evaluate options text).run platform env input).output = "" ∧
      ((Command.evaluate options text).run platform env input).standardError =
        ((Command.evaluate options text).run platform env input).records.map .record ++
          [.error (platform.echo (errorLabel ++ (Calculator.report text fault).text))] := by
  obtain ⟨hcode, heffects⟩ := evaluateOnce_error h env options
  have hlog : Effect.OnlyRecords
      (Calculator.evaluateWithin platform.evaluationLimit text).effects :=
    (Calculator.logs_compute _ _).onlyRecords
  have hlevel := (env.logs_resolveLogLevel options.logLevel).onlyRecords
  rw [Command.run_eq, Command.perform]
  refine ⟨?_, ?_, ?_⟩
  · rw [Outcome.exitCode_proceed, hcode]
  · rw [Outcome.output_proceed, Logged.output, heffects, Effect.outputText_append,
      Effect.outputText, hlog.filterMap_eq_nil fun r => rfl]
    rfl
  · apply Outcome.standardError_of_error
      ((hlevel.atLeast .warning).append (hlog.atLeast (options.level env).result))
    rw [Outcome.ofLogged, effects_proceed, heffects, Effect.atLeast_append, List.append_assoc]
    rfl

theorem run_interact_single (hinput : Divided input.toList [text])
    (hblank : isBlankLine text = false) (hexit : isExit text = false) (platform : Platform)
    (env : Environment) (options : Options) :
    ((Command.interact options).run platform env input).standardError =
        ((Command.interact options).run platform env input).records.map .record ∧
      ((Command.interact options).run platform env input).output = platform.print banner ++
        (prompt ++ outcomeText platform (env.showsAst options.showAst) text
          (Calculator.evaluateWithin platform.sessionLimit text).result ++ (prompt ++ "\n")) := by
  constructor
  · apply Outcome.standardError_of_errors_nil
    rw [Command.run_eq, Command.perform, Outcome.filterMap_proceed env options _ fun _ => rfl]
    change Logged.errors (interact platform env options (.ofText input)) = []
    rw [interact, Logged.errors_bind, (env.logs_resolveShowAst _).errors_eq, Logged.errors_bind,
      errors_hold]
    rfl
  · rw [output_run_interact hinput]
    simp [exchanges, closing, answer, hblank, hexit, String.join]

/-- A platform with so little room that a minus sign is too deep for a session, and for it only. -/
def shallowPlatform : Platform :=
  { plainPlatform with evaluationLimit := 2, sessionLimit := 1 }

end CommandLine

end InfixCalculator
