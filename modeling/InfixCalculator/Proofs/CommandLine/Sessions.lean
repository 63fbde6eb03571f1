import Mathlib.Data.List.Basic
import Mathlib.Data.List.TakeWhile
import InfixCalculator.CommandLine.Run
import InfixCalculator.Proofs.CommandLine.Consoles

/-!
# What a session writes

The input of a session is divided into lines, and its output is one exchange for each of them up to
the first that asks to leave.  As no exchange depends on another one, a session on an input that is
continued behind a line goes on as a session of its own would.
-/

namespace InfixCalculator

namespace Session

/-! ## Lines -/

def Unbroken (text : List Char) : Prop := ∀ c ∈ text, c ≠ '\r' ∧ c ≠ '\n'

/-- What ends a line before `rest`: a line feed, or a carriage return with the line feed behind it,
if there is one. -/
inductive EndsLine : List Char → List Char → Prop
  | lineFeed (rest : List Char) : EndsLine ['\n'] rest
  | both (rest : List Char) : EndsLine ['\r', '\n'] rest
  | carriageReturn {rest : List Char} (single : rest.head? ≠ some '\n') : EndsLine ['\r'] rest

/-- The text consists of the lines; the last one needs no end if it is not empty. -/
inductive Divided : List Char → List String → Prop
  | nil : Divided [] []
  | last {line : List Char} (unbroken : Unbroken line) (nonempty : line ≠ []) :
      Divided line [String.ofList line]
  | cons {line ending rest : List Char} {lines : List String} (unbroken : Unbroken line)
      (ends : EndsLine ending rest) (more : Divided rest lines) :
      Divided (line ++ (ending ++ rest)) (String.ofList line :: lines)

variable {text more line ending rest before : List Char} {ls ls' : List String} {c : Char}

theorem linesAfter_cons (h : c ≠ '\r' ∧ c ≠ '\n') (before rest : List Char) :
    linesAfter before (c :: rest) = linesAfter (c :: before) rest := by
  simp [linesAfter, h]

theorem linesAfter_unbroken (h : Unbroken line) (before rest : List Char) :
    linesAfter before (line ++ rest) = linesAfter (line.reverse ++ before) rest := by
  induction line generalizing before with
  | nil => rfl
  | cons c line ih =>
    have hline : Unbroken line := fun c' hc' => h c' (List.mem_cons_of_mem c hc')
    rw [List.cons_append, linesAfter_cons (h c List.mem_cons_self), ih hline, List.reverse_cons,
      List.append_assoc, List.singleton_append]

theorem linesAfter_ending (h : EndsLine ending rest) (before : List Char) :
    linesAfter before (ending ++ rest) =
      String.ofList before.reverse :: linesAfter [] rest := by
  cases h with
  | lineFeed rest => rfl
  | both rest => rfl
  | carriageReturn single =>
    cases rest with
    | nil => rfl
    | cons c rest =>
      have hc : c ≠ '\n' := fun h => single (by rw [h]; rfl)
      simp [linesAfter, hc]

theorem Divided.linesAfter_eq (h : Divided text ls) : linesAfter [] text = ls := by
  induction h with
  | nil => rfl
  | @last line unbroken nonempty =>
    have hlines := linesAfter_unbroken unbroken [] []
    rw [List.append_nil, List.append_nil] at hlines
    rw [hlines]
    simp [linesAfter, nonempty]
  | cons unbroken ends more ih =>
    rw [linesAfter_unbroken unbroken, linesAfter_ending ends, ih]
    simp

theorem divided_linesAfter (h : Unbroken before.reverse) (text : List Char) :
    Divided (before.reverse ++ text) (linesAfter before text) := by
  fun_induction linesAfter before text with
  | case1 before hempty =>
    obtain rfl := List.isEmpty_iff.1 hempty
    exact .nil
  | case2 before hempty =>
    rw [List.append_nil]
    exact .last h (by simpa using hempty)
  | case3 before rest ih => exact .cons h (.both rest) (ih (by simp [Unbroken]))
  | case4 before c rest hboth hc ih =>
    have hends : EndsLine [c] rest := by
      rcases hc with rfl | rfl
      · exact .carriageReturn fun hhead => by
          obtain ⟨rest', rfl⟩ := List.head?_eq_some_iff.1 hhead
          exact hboth rest' rfl rfl
      · exact .lineFeed rest
    exact .cons h hends (ih (by simp [Unbroken]))
  | case5 before c rest _ hc ih =>
    rw [List.reverse_cons, List.append_assoc] at ih
    refine ih fun c' hc' => ?_
    rcases List.mem_append.1 hc' with hc' | hc'
    · exact h c' hc'
    · rw [List.mem_singleton.1 hc']
      exact not_or.1 hc

theorem lines_eq_iff {text : String} : lines text = ls ↔ Divided text.toList ls := by
  refine ⟨?_, Divided.linesAfter_eq⟩
  rintro rfl
  have hnil : Unbroken ([] : List Char).reverse := by simp [Unbroken]
  exact divided_linesAfter hnil text.toList

theorem EndsLine.append (h : EndsLine ending rest) (hend : (ending ++ rest).getLast? = some '\n')
    (more : List Char) : EndsLine ending (rest ++ more) := by
  cases h with
  | lineFeed rest => exact .lineFeed _
  | both rest => exact .both _
  | carriageReturn single =>
    -- At the end of the text it could be the first half of an end that is continued in `more`.
    cases rest with
    | nil => cases hend
    | cons c rest => exact .carriageReturn single

/-- Behind a line feed a text can be divided. -/
theorem Divided.append (h : Divided text ls) (hend : text.getLast? = some '\n')
    (h' : Divided more ls') : Divided (text ++ more) (ls ++ ls') := by
  induction h with
  | nil => cases hend
  | last unbroken nonempty =>
    exact absurd rfl (unbroken '\n' (List.mem_of_getLast? hend)).2
  | @cons line ending rest lines unbroken ends hrest ih =>
    have hne : ending ++ rest ≠ [] := by cases ends <;> simp
    rw [List.getLast?_append_of_ne_nil _ hne] at hend
    rw [List.append_assoc, List.append_assoc]
    refine .cons unbroken (ends.append hend more) ?_
    cases rest with
    | nil =>
      obtain rfl := hrest.linesAfter_eq
      exact h'
    | cons c rest => exact ih (by rwa [List.getLast?_append_of_ne_nil _ (by simp)] at hend)

theorem lines_append {text more : String} (hend : text.toList.getLast? = some '\n') :
    lines (text ++ more) = lines text ++ lines more := by
  rw [lines_eq_iff, String.toList_append]
  exact (lines_eq_iff.1 rfl).append hend (lines_eq_iff.1 rfl)

/-! ## Portions of lines -/

/-- Lines that come in two portions are answered as if they came at once. -/
theorem converse_append {m : Type → Type} [Monad m] [LawfulMonad m] [MonadConsole m]
    (platform : Platform) (showAst : Bool) (lines lines' : List String) :
    converse platform showAst (lines ++ lines') = (do
      if ← converse platform showAst lines then return true
      else converse platform showAst lines' : m Bool) := by
  induction lines with
  | nil => simp [converse]
  | cons line lines ih =>
    rw [List.cons_append, converse, converse]
    cases hexit : isExit line with
    | true => simp
    | false => simp [ih]

/-! ## Exchanges -/

def outcomeText (platform : Platform) (showAst : Bool) (line : String) :
    Except Fault Evaluation → String
  | .error fault => platform.print (errorLabel ++ (Calculator.report line fault).text)
  | .ok evaluation =>
    (if showAst then platform.print (astLabel ++ Expr.render evaluation.expression) else "")
      ++ platform.print (resultLabel ++ evaluation.value.text)

def answer (platform : Platform) (showAst : Bool) (line : String) : String :=
  if isBlankLine line then ""
  else outcomeText platform showAst line
    (Calculator.evaluateWithin platform.sessionLimit line).result

/-- The prompts and answers for the lines up to the first that asks to leave. -/
def exchanges (platform : Platform) (showAst : Bool) (lines : List String) : String :=
  String.join ((lines.takeWhile fun line => !isExit line).map fun line =>
    prompt ++ answer platform showAst line)

/-- The last prompt, which is ended by a new line unless a line asks to leave. -/
def closing (lines : List String) : String :=
  if lines.any isExit then prompt else prompt ++ "\n"

variable {platform : Platform} {showAst : Bool}

theorem output_reply (platform : Platform) (showAst : Bool) (line : String) :
    (reply platform showAst line : Logged Unit).output = answer platform showAst line := by
  unfold reply answer
  split
  · rfl
  · rw [Logged.output_bind, (Calculator.logs_compute _ _).output_eq, String.empty_append]
    change _ = outcomeText platform showAst line (Calculator.compute _ line : Logged _).result
    cases (Calculator.compute platform.sessionLimit line : Logged _).result with
    | error fault => exact Logged.output_writeOutput _
    | ok evaluation => cases showAst <;> simp [outcomeText]

theorem result_converse (platform : Platform) (showAst : Bool) (lines : List String) :
    (converse platform showAst lines : Logged Bool).result = lines.any isExit := by
  induction lines with
  | nil => rfl
  | cons line lines ih =>
    rw [converse, List.any_cons]
    cases hexit : isExit line with
    | true => rfl
    | false => exact ih

theorem output_converse (platform : Platform) (showAst : Bool) (lines : List String) :
    prompt ++ (converse platform showAst lines : Logged Bool).output =
      exchanges platform showAst lines ++ prompt := by
  induction lines with
  | nil => rfl
  | cons line lines ih =>
    rw [converse]
    cases hexit : isExit line with
    | true => simp [exchanges, hexit]
    | false =>
      have hfirst : exchanges platform showAst (line :: lines) =
          prompt ++ answer platform showAst line ++ exchanges platform showAst lines := by
        simp [exchanges, hexit, String.join_cons]
      rw [hfirst, String.append_assoc, ← ih]
      simp [output_reply, String.append_assoc]

theorem exchanges_append (h : ls.any isExit = false) (ls' : List String) :
    exchanges platform showAst (ls ++ ls') =
      exchanges platform showAst ls ++ exchanges platform showAst ls' := by
  have hnone : ∀ line ∈ ls, (!isExit line) = true := by simpa using h
  rw [exchanges, exchanges, exchanges, List.takeWhile_append_of_pos hnone,
    List.takeWhile_eq_self_iff.2 hnone, List.map_append, String.join_append]

theorem closing_append (h : ls.any isExit = false) (ls' : List String) :
    closing (ls ++ ls') = closing ls' := by
  rw [closing, List.any_append, h, Bool.false_or, closing]

theorem output_hold {input : String} (h : Divided input.toList ls) (platform : Platform)
    (showAst : Bool) : (hold platform showAst (.ofText input) : Logged Unit).output =
      platform.print banner ++ (exchanges platform showAst ls ++ closing ls) := by
  obtain rfl := lines_eq_iff.2 h
  have hend : (if (lines input).any isExit then pure () else MonadConsole.writeOutput "\n" :
      Logged Unit).output = if (lines input).any isExit then "" else "\n" := by
    split <;> simp
  have hclosing : closing (lines input) =
      prompt ++ if (lines input).any isExit then "" else "\n" := by
    rw [closing]
    split <;> simp
  simp only [hold, LineSource.ofText, Logged.output_bind, Logged.output_writeOutput,
    result_converse, hend]
  have hprompt (rest : String) :
      prompt ++ ((converse platform showAst (lines input) : Logged Bool).output ++ rest) =
        exchanges platform showAst (lines input) ++ (prompt ++ rest) := by
    rw [← String.append_assoc, output_converse, String.append_assoc]
  rw [hprompt, hclosing]

theorem converse_append_of_exit (h : ls.any isExit = true) (platform : Platform) (showAst : Bool)
    (ls' : List String) :
    (converse platform showAst (ls ++ ls') : Logged Bool) = converse platform showAst ls := by
  have hleft := result_converse platform showAst ls
  rw [converse_append]
  generalize (converse platform showAst ls : Logged Bool) = x at *
  obtain ⟨left, effects⟩ := x
  obtain rfl : left = true := hleft.trans h
  simp [bind, pure]

theorem hold_append_of_exit {input : String} (hend : input.toList.getLast? = some '\n')
    (hexit : (Session.lines input).any isExit = true) (platform : Platform) (showAst : Bool)
    (more : String) :
    (hold platform showAst (.ofText (input ++ more)) : Logged Unit) =
      hold platform showAst (.ofText input) := by
  simp only [hold, LineSource.ofText, lines_append hend, converse_append_of_exit hexit]

end Session

namespace CommandLine

open Session

variable {platform : Platform} {env : Environment} {options : Options} {input more : String}

theorem exitCode_run_interact (input : String) :
    ((Command.interact options).run platform env input).exitCode = 0 := by
  rw [Command.run_eq]
  exact Outcome.exitCode_proceed env options _

theorem output_run_interact {ls : List String} (h : Divided input.toList ls) :
    ((Command.interact options).run platform env input).output = platform.print banner ++
      (exchanges platform (env.showsAst options.showAst) ls ++ closing ls) := by
  rw [Command.run_eq, Command.perform, Outcome.output_proceed, interact, Logged.output_bind,
    (env.logs_resolveShowAst _).output_eq, Logged.output_bind, output_hold h, Logged.output_pure,
    String.empty_append, String.append_empty]
  rfl

/-- A session greets, and answers each line behind a prompt until one asks to leave, whatever the
lines, the environment, the options and the platform are.  The answer to a line of blanks is empty,
and every other answer depends on the line and on whether expressions are displayed.  The exit code
is zero.  What stands behind a line that asks to leave is not read.  If none does, and the input
ends in a line feed, then with more input the session goes on, in place of its last prompt, with all
that a session on the other input writes behind its greeting. -/
theorem session_answers_lines (platform : Platform) (env : Environment) (options : Options) :
    (∀ input, ((Command.interact options).run platform env input).exitCode = 0) ∧
    (∀ input, ∃ ls, Divided input.toList ls ∧ (∀ ls', Divided input.toList ls' → ls' = ls) ∧
      ((Command.interact options).run platform env input).output = platform.print banner ++
        (exchanges platform (env.showsAst options.showAst) ls ++ closing ls)) ∧
    (∀ input ls, Divided input.toList ls → input.toList.getLast? = some '\n' →
      ls.any isExit = true → ∀ more,
        (Command.interact options).run platform env (input ++ more) =
          (Command.interact options).run platform env input) ∧
    ∀ input ls, Divided input.toList ls → input.toList.getLast? = some '\n' →
      ls.any isExit = false → ∃ front,
        ((Command.interact options).run platform env input).output = front ++ (prompt ++ "\n") ∧
        ∀ more, ∃ rest,
          ((Command.interact options).run platform env more).output =
            platform.print banner ++ rest ∧
          ((Command.interact options).run platform env (input ++ more)).output =
            front ++ rest := by
  refine ⟨exitCode_run_interact, fun input => ?lines, fun input ls hls hend hexit more => ?exit,
    fun input ls hls hend hexit => ?continued⟩
  case lines =>
    have hls : Divided input.toList (Session.lines input) := lines_eq_iff.1 rfl
    exact ⟨_, hls, fun ls' h' => (lines_eq_iff.2 h').symm, output_run_interact hls⟩
  case exit =>
    rw [← lines_eq_iff.2 hls] at hexit
    rw [Command.run_eq, Command.run_eq, Command.perform, Command.perform, interact, interact]
    simp only [hold_append_of_exit hend hexit]
  case continued =>
    refine ⟨platform.print banner ++ exchanges platform (env.showsAst options.showAst) ls, ?_,
      fun more => ?_⟩
    · have hclosing : closing ls = prompt ++ "\n" := if_neg (by simp [hexit])
      rw [output_run_interact hls, hclosing, String.append_assoc]
    · have hmore : Divided more.toList (Session.lines more) := lines_eq_iff.1 rfl
      have hboth := hls.append hend hmore
      rw [← String.toList_append] at hboth
      refine ⟨_, output_run_interact hmore, ?_⟩
      rw [output_run_interact hboth, exchanges_append hexit, closing_append hexit]
      simp only [String.append_assoc]

/-- Neither a rejected line ends a session nor does one behind the line `quit` get an answer. -/
theorem session_answers_lines_until_quit :
    (Command.interact {}).run plainPlatform {} ("2*(\nquit\n" ++ "7") =
        (Command.interact {}).run plainPlatform {} "2*(\nquit\n" ∧
    ∃ front rest,
      ((Command.interact {}).run plainPlatform {} "2*(\n").output = front ++ (prompt ++ "\n") ∧
      ((Command.interact {}).run plainPlatform {} "quit").output =
        plainPlatform.print banner ++ rest ∧
      ((Command.interact {}).run plainPlatform {} ("2*(\n" ++ "quit")).output = front ++ rest := by
  obtain ⟨-, -, hexit, hcontinued⟩ := session_answers_lines plainPlatform {} {}
  have hleave : (Session.lines "2*(\nquit\n").any isExit = true := by decide
  have hstay : (Session.lines "2*(\n").any isExit = false := by decide
  obtain ⟨front, hfront, hmore⟩ := hcontinued _ _ (lines_eq_iff.1 rfl) rfl hstay
  obtain ⟨rest, hrest, hboth⟩ := hmore "quit"
  exact ⟨hexit _ _ (lines_eq_iff.1 rfl) rfl hleave "7", front, rest, hfront, hrest, hboth⟩

end CommandLine

end InfixCalculator
