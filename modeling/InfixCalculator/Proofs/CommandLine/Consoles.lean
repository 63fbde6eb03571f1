import InfixCalculator.CommandLine.Commands

/-!
# Programs on a console

A program on a console leaves behind what it does if everything is noted down and the records below
a level are dropped in the end.  It is enough to see this for each effect; whether the depth of an
expression is computed makes no difference.
-/

namespace InfixCalculator

variable {α β : Type}

namespace Logged

@[simp] theorem result_pure (a : α) : (pure a : Logged α).result = a := rfl

@[simp] theorem effects_pure (a : α) : (pure a : Logged α).effects = [] := rfl

@[simp] theorem result_bind (x : Logged α) (f : α → Logged β) :
    (x >>= f).result = (f x.result).result := rfl

@[simp] theorem effects_bind (x : Logged α) (f : α → Logged β) :
    (x >>= f).effects = x.effects ++ (f x.result).effects := rfl

instance : LawfulMonad Logged :=
  LawfulMonad.mk' Logged (fun _ => by simp [Functor.map]) (fun _ _ => rfl)
    fun _ _ _ => by simp [bind]

@[simp] theorem result_proceedAt (level : LogLevel) (x : Logged α) :
    (MonadConsole.proceedAt level x).result = x.result := rfl

@[simp] theorem effects_proceedAt (level : LogLevel) (x : Logged α) :
    (MonadConsole.proceedAt level x).effects = Effect.atLeast level x.effects := rfl

end Logged

namespace Effect

variable {level : LogLevel}

@[simp] theorem atLeast_nil : atLeast level [] = [] := rfl

@[simp] theorem atLeast_append (effects more : List Effect) :
    atLeast level (effects ++ more) = atLeast level effects ++ atLeast level more :=
  List.filter_append effects more

@[simp] theorem outputText_append (effects more : List Effect) :
    outputText (effects ++ more) = outputText effects ++ outputText more := by
  rw [outputText, List.filterMap_append, String.join_append, outputText, outputText]

theorem filterMap_atLeast {f : Effect → Option α} (h : ∀ r, f (record r) = none)
    (effects : List Effect) : (atLeast level effects).filterMap f = effects.filterMap f := by
  rw [atLeast, List.filterMap_filter]
  congr 1
  funext effect
  cases effect with
  | record r => simp [h]
  | output text | error text => rfl

def OnlyRecords (effects : List Effect) : Prop := ∀ effect ∈ effects, ∃ r, effect = record r

variable {effects more : List Effect}

theorem OnlyRecords.append (h : OnlyRecords effects) (hmore : OnlyRecords more) :
    OnlyRecords (effects ++ more) :=
  List.forall_mem_append.2 ⟨h, hmore⟩

theorem OnlyRecords.atLeast (h : OnlyRecords effects) (level : LogLevel) :
    OnlyRecords (atLeast level effects) :=
  fun effect heffect => h effect (List.mem_filter.1 heffect).1

theorem OnlyRecords.filterMap_eq_nil (h : OnlyRecords effects) {f : Effect → Option α}
    (hf : ∀ r, f (record r) = none) : effects.filterMap f = [] := by
  rw [List.filterMap_eq_nil_iff]
  intro effect heffect
  obtain ⟨r, rfl⟩ := h effect heffect
  exact hf r

theorem OnlyRecords.eq_map (h : OnlyRecords effects) :
    effects = (effects.filterMap record?).map record := by
  induction effects with
  | nil => rfl
  | cons effect effects ih =>
    obtain ⟨⟨r, rfl⟩, hrest⟩ := List.forall_mem_cons.1 h
    exact congrArg (record r :: ·) (ih hrest)

end Effect

namespace Console

def receiveAll (console : Console) (effects : List Effect) : Console :=
  { console with effects := console.effects ++ Effect.atLeast console.level effects }

variable {console : Console}

@[simp] theorem receiveAll_nil : console.receiveAll [] = console := by simp [receiveAll]

theorem receiveAll_append (effects more : List Effect) :
    console.receiveAll (effects ++ more) = (console.receiveAll effects).receiveAll more := by
  simp [receiveAll]

theorem receive_eq (effect : Effect) : console.receive effect = console.receiveAll [effect] := by
  by_cases hshown : effect.isShownFrom console.level = true <;>
    simp [receive, receiveAll, Effect.atLeast, hshown]

end Console

namespace Logged

def output (x : Logged α) : String := Effect.outputText x.effects

@[simp] theorem output_pure (a : α) : (pure a : Logged α).output = "" := rfl

@[simp] theorem output_bind (x : Logged α) (f : α → Logged β) :
    (x >>= f).output = x.output ++ (f x.result).output :=
  Effect.outputText_append _ _

def errors (x : Logged α) : List String := x.effects.filterMap Effect.error?

@[simp] theorem errors_pure (a : α) : (pure a : Logged α).errors = [] := rfl

@[simp] theorem errors_bind (x : Logged α) (f : α → Logged β) :
    (x >>= f).errors = x.errors ++ (f x.result).errors :=
  List.filterMap_append

@[simp] theorem errors_writeOutput (text : String) :
    (MonadConsole.writeOutput text : Logged Unit).errors = [] := rfl

@[simp] theorem output_writeOutput (text : String) :
    (MonadConsole.writeOutput text : Logged Unit).output = text := by
  simp [output, MonadConsole.writeOutput, Effect.outputText, Effect.output?]

end Logged

/-- The program on a console has the result of `x`, and the effects of `x` that its level lets
through. -/
def Shows (program : Terminal α) (x : Logged α) : Prop :=
  ∀ console : Console, program.run console = (x.result, console.receiveAll x.effects)

variable {program : Terminal α} {x : Logged α}

theorem shows_pure (a : α) : Shows (pure a) (pure a) := by
  intro console
  rw [Logged.effects_pure, Console.receiveAll_nil]
  rfl

theorem Shows.bind {f : α → Terminal β} {g : α → Logged β} (h : Shows program x)
    (hf : Shows (f x.result) (g x.result)) : Shows (program >>= f) (x >>= g) := by
  intro console
  rw [StateT.run_bind, h console]
  change (f x.result).run _ = _
  rw [hf, Logged.effects_bind, Console.receiveAll_append, Logged.result_bind]

section Effects

open MonadConsole

theorem shows_log (r : LogRecord) : Shows (MonadLog.log r) (MonadLog.log r) :=
  fun console => congrArg (Prod.mk ()) (console.receive_eq _)

theorem shows_writeOutput (text : String) : Shows (writeOutput text) (writeOutput text) :=
  fun console => congrArg (Prod.mk ()) (console.receive_eq _)

theorem shows_writeError (text : String) : Shows (writeError text) (writeError text) :=
  fun console => congrArg (Prod.mk ()) (console.receive_eq _)

end Effects

/-! ## Programs that only log -/

/-- A program that does nothing but log, on a console and with everything noted down. -/
structure Logs (program : Terminal α) (x : Logged α) : Prop where
  shows : Shows program x
  onlyRecords : Effect.OnlyRecords x.effects

theorem Logs.output_eq (h : Logs program x) : x.output = "" := by
  rw [Logged.output, Effect.outputText, h.onlyRecords.filterMap_eq_nil fun _ => rfl]
  rfl

theorem Logs.errors_eq (h : Logs program x) : x.errors = [] :=
  h.onlyRecords.filterMap_eq_nil fun _ => rfl

theorem logs_pure (a : α) : Logs (pure a) (pure a) :=
  ⟨shows_pure a, fun _ heffect => absurd heffect List.not_mem_nil⟩

theorem logs_log (r : LogRecord) : Logs (MonadLog.log r) (MonadLog.log r) :=
  ⟨shows_log r, fun _ heffect => ⟨r, List.mem_singleton.1 heffect⟩⟩

theorem Logs.bind {f : α → Terminal β} {g : α → Logged β} (h : Logs program x)
    (hf : Logs (f x.result) (g x.result)) : Logs (program >>= f) (x >>= g) :=
  ⟨h.shows.bind hf.shows, h.onlyRecords.append hf.onlyRecords⟩

namespace Calculator

theorem run_isEnabledFor (level : LogLevel) (console : Console) :
    (MonadLog.isEnabledFor level : Terminal Bool).run console =
      (decide (console.level.severity ≤ level.severity), console) := rfl

theorem logs_logDepth (e : Expr) : Logs (logDepth e) (logDepth e) := by
  refine ⟨fun console => ?_, (logs_log _).onlyRecords⟩
  have hrun : (logDepth e : Terminal Unit).run console =
      (if console.level.severity ≤ LogLevel.debug.severity then
        debug .calculator ("Generated AST of depth " ++ toString e.depth)
      else pure () : Terminal Unit).run console := by
    rw [logDepth, StateT.run_bind, run_isEnabledFor]
    simp only [bind, decide_eq_true_eq]
  rw [hrun]
  split
  case isTrue => exact shows_log _ console
  case isFalse hdebug =>
    -- The record that is noted down in `Logged` is below the level here.
    have hdropped : console.receiveAll (logDepth e : Logged Unit).effects = console := by
      change console.receiveAll [_] = console
      simp [← Console.receive_eq, Console.receive, Effect.isShownFrom, hdebug]
    rw [hdropped]
    rfl

theorem logs_logEvaluation (text : String) (evaluation : Evaluation) :
    Logs (logEvaluation text evaluation) (logEvaluation text evaluation) :=
  .bind (logs_log _) (.bind (logs_logDepth _) (logs_log _))

theorem logs_logFault (text : String) (fault : Fault) :
    Logs (logFault text fault) (logFault text fault) := by
  unfold logFault
  split
  · exact logs_log _
  · exact logs_log _

theorem logs_compute (limit : Nat) (line : String) :
    Logs (compute limit line) (compute limit line) := by
  unfold compute
  dsimp only
  cases Expr.parseWithin limit (expressionText line) with
  | ok e => exact .bind (logs_logEvaluation _ _) (logs_pure _)
  | error fault => exact .bind (logs_logFault _ _) (logs_pure _)

end Calculator

namespace Environment

variable (env : Environment)

theorem logs_resolveMode : Logs env.resolveMode env.resolveMode := by
  unfold resolveMode
  dsimp only
  cases Mode.ofText? (lowered env.mode) with
  | some mode => exact logs_pure _
  | none => exact .bind (logs_log _) (logs_pure _)

theorem logs_showAst? : Logs env.showAst? env.showAst? := by
  unfold showAst?
  dsimp only
  cases truth? (lowered env.showAst) with
  | some value => exact logs_pure _
  | none =>
    dsimp only
    split
    · exact logs_pure _
    · exact .bind (logs_log _) (logs_pure _)

theorem logs_resolveShowAst (override : Option Bool) :
    Logs (env.resolveShowAst override) (env.resolveShowAst override) := by
  cases override with
  | some value => exact logs_pure value
  | none =>
    refine .bind env.logs_showAst? ?_
    cases (env.showAst? : Logged (Option Bool)).result with
    | some value => exact logs_pure value
    | none => exact .bind env.logs_resolveMode (logs_pure _)

def showsAst (override : Option Bool) : Bool := (env.resolveShowAst override : Logged Bool).result

theorem logs_resolveLogLevel (override : Option String) :
    Logs (env.resolveLogLevel override) (env.resolveLogLevel override) := by
  unfold resolveLogLevel
  dsimp only
  generalize Text.trim _ = text
  split
  · exact logs_pure _
  · cases LogLevel.ofName? text with
    | some level => exact logs_pure level
    | none => exact .bind (logs_log _) (logs_pure _)

end Environment

/-! ## Commands -/

section Session

open Session

variable (platform : Platform) (showAst : Bool)

theorem shows_reply (line : String) :
    Shows (reply platform showAst line) (reply platform showAst line) := by
  unfold reply
  split
  · exact shows_pure ()
  · refine .bind (Calculator.logs_compute _ line).shows ?_
    cases (Calculator.compute platform.sessionLimit line : Logged _).result with
    | error fault => exact shows_writeOutput _
    | ok evaluation =>
      cases showAst with
      | false => exact shows_writeOutput _
      | true => exact .bind (shows_writeOutput _) (shows_writeOutput _)

theorem shows_converse (lines : List String) :
    Shows (converse platform showAst lines) (converse platform showAst lines) := by
  induction lines with
  | nil => exact shows_pure false
  | cons line lines ih =>
    unfold converse
    split
    · exact shows_pure true
    · exact .bind (shows_reply platform showAst line) (.bind (shows_writeOutput _) ih)

theorem shows_hold (input : String) :
    Shows (hold platform showAst (.ofText input)) (hold platform showAst (.ofText input)) := by
  refine .bind (shows_writeOutput _) (.bind (shows_writeOutput _)
    (.bind (shows_converse platform showAst (lines input)) ?_))
  split
  · exact shows_pure ()
  · exact shows_writeOutput _

end Session

namespace CommandLine

open MonadConsole

variable (platform : Platform) (env : Environment) (options : Options)

theorem shows_evaluateOnce (text : String) :
    Shows (evaluateOnce platform env options text) (evaluateOnce platform env options text) := by
  refine .bind (Calculator.logs_compute _ text).shows ?_
  cases (Calculator.compute platform.evaluationLimit text : Logged _).result with
  | error fault => exact .bind (shows_writeError _) (shows_pure 1)
  | ok evaluation =>
    refine .bind (env.logs_resolveShowAst _).shows ?_
    split
    · exact .bind (shows_writeOutput _) (.bind (shows_writeOutput _) (shows_pure 0))
    · exact .bind (shows_writeOutput _) (shows_pure 0)

theorem shows_interact (input : String) :
    Shows (interact platform env options (.ofText input))
      (interact platform env options (.ofText input)) :=
  .bind (env.logs_resolveShowAst _).shows (.bind (shows_hold platform _ input) (shows_pure 0))

def Outcome.ofLogged (x : Logged Nat) : Outcome := ⟨x.result, x.effects⟩

theorem run_proceedAt {α : Type} {program : Terminal α} {x : Logged α} (h : Shows program x)
    (level : LogLevel) (console : Console) :
    (proceedAt level program : Terminal α).run console =
      (x.result, { level, effects := console.effects ++ Effect.atLeast level x.effects }) :=
  h { console with level }

/-- A program that is run at the level that another one gives. -/
theorem run_proceedAt_result {resolve : Terminal LogLevel} {level : Logged LogLevel}
    {program : Terminal Nat} {x : Logged Nat} (hresolve : Shows resolve level)
    (h : Shows program x) (console : Console) :
    (proceedAt .warning resolve >>= fun level => proceedAt level program : Terminal Nat).run
        console =
      (x.result, { level := level.result
                   effects := console.effects ++ Effect.atLeast .warning level.effects ++
                    Effect.atLeast level.result x.effects }) := by
  rw [StateT.run_bind, run_proceedAt hresolve]
  exact run_proceedAt h _ _

def Options.level (options : Options) (env : Environment) : Logged LogLevel :=
  env.resolveLogLevel options.logLevel

theorem result_proceed {α : Type} (x : Logged α) :
    (options.proceed env x).result = x.result := by
  rw [Options.proceed, Logged.result_bind, Logged.result_proceedAt]

theorem effects_proceed {α : Type} (x : Logged α) : (options.proceed env x).effects =
    Effect.atLeast .warning (options.level env).effects ++
      Effect.atLeast (options.level env).result x.effects := by
  rw [Options.proceed, Logged.effects_bind, Logged.effects_proceedAt, Logged.effects_proceedAt,
    Logged.result_proceedAt, Options.level]

theorem ofTerminal_proceed {program : Terminal Nat} {x : Logged Nat} (h : Shows program x) :
    Outcome.ofTerminal (options.proceed env program) =
      Outcome.ofLogged (options.proceed env x) := by
  have hlevel := (env.logs_resolveLogLevel options.logLevel).shows
  rw [Outcome.ofTerminal, Options.proceed, run_proceedAt_result hlevel h, Outcome.ofLogged,
    result_proceed, effects_proceed, List.nil_append, Options.level]

/-- A command on a console leaves behind what it does if the records are chosen in the end. -/
theorem Command.run_eq (command : Command) (input : String) :
    command.run platform env input =
      Outcome.ofLogged (command.perform platform env (.ofText input)) := by
  cases command with
  | evaluate options text => exact ofTerminal_proceed env options (shows_evaluateOnce _ _ _ text)
  | interact options => exact ofTerminal_proceed env options (shows_interact _ _ _ input)

/-! ## What a run leaves behind -/

namespace Outcome

variable (x : Logged Nat)

@[simp] theorem exitCode_proceed : (ofLogged (options.proceed env x)).exitCode = x.result :=
  result_proceed env options x

/-- Nothing but records depends on the level. -/
theorem filterMap_proceed {f : Effect → Option α} (h : ∀ r, f (.record r) = none) :
    (ofLogged (options.proceed env x)).effects.filterMap f = x.effects.filterMap f := by
  rw [ofLogged, effects_proceed, Options.level, List.filterMap_append,
    Effect.filterMap_atLeast h, Effect.filterMap_atLeast h,
    (env.logs_resolveLogLevel options.logLevel).onlyRecords.filterMap_eq_nil h, List.nil_append]

theorem output_proceed : (ofLogged (options.proceed env x)).output = x.output := by
  rw [output, Effect.outputText, filterMap_proceed env options x fun _ => rfl]
  rfl

theorem errors_proceed :
    (ofLogged (options.proceed env x)).errors = Effect.errorText x.effects := by
  rw [errors, Effect.errorText, filterMap_proceed env options x fun _ => rfl]
  rfl

end Outcome

end CommandLine

end InfixCalculator
