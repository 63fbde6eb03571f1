import InfixCalculator.CommandLine.Commands

/-!
# Command line arguments

The arguments name a command, with options of the program before the name and options of the
command behind it, mixed with what the command is applied to.  Options end at two dashes; of an
option of a command given several times the last one counts.  An option that asks about the program
is answered in place of the command.

What is proved of the commands does not rest on how their arguments are read.
-/

namespace InfixCalculator.CommandLine

def isOption (argument : String) : Bool := argument.startsWith '-' && argument != "-"

def splitOption (argument : String) : String × Option String :=
  let characters := argument.toList
  let name := String.ofList (characters.takeWhile (· != '='))
  match characters.dropWhile (· != '=') with
  | [] => (name, none)
  | _ :: value => (name, some (String.ofList value))

structure Arguments where
  options : Options := {}
  help : Bool := false
  operands : List String := []
  deriving DecidableEq, Repr

def Arguments.withShowAst (arguments : Arguments) (showAst : Bool) : Arguments :=
  { arguments with options := { arguments.options with showAst := some showAst } }

def Arguments.withLogLevel (arguments : Arguments) (level : String) : Arguments :=
  { arguments with options := { arguments.options with logLevel := some level } }

/-- Reads the arguments of a command behind those that are already told apart.  The option for the
log level takes the next argument, whatever that is, unless a value is attached. -/
def Arguments.read (before : Arguments) : List String → Option Arguments
  | [] => some before
  | argument :: rest =>
    if argument = "--" then some { before with operands := before.operands ++ rest }
    else if isOption argument then
      match splitOption argument with
      | ("--show-ast", none) => (before.withShowAst true).read rest
      | ("--no-show-ast", none) => (before.withShowAst false).read rest
      | ("--help", none) => { before with help := true }.read rest
      | ("--log-level", some level) => (before.withLogLevel level).read rest
      | ("--log-level", none) =>
        match rest with
        | [] => none
        | level :: rest => (before.withLogLevel level).read rest
      | _ => none
    else { before with operands := before.operands ++ [argument] }.read rest

inductive CommandName where
  | eval
  | repl
  deriving DecidableEq, Repr

def CommandName.ofText? : String → Option CommandName
  | "eval" => some eval
  | "repl" => some repl
  | _ => none

/-- What a command and its arguments ask for.  Help is given however many operands there
are; otherwise their number has to be right. -/
def CommandName.request? (name : CommandName) (arguments : List String) : Option Request := do
  let arguments ← Arguments.read {} arguments
  if arguments.help then return .help
  match name, arguments.operands with
  | eval, [expression] => return .command (.evaluate arguments.options expression)
  | repl, [] => return .command (.interact arguments.options)
  | _, _ => none

inductive ProgramOption where
  | version
  | help
  | completion
  deriving DecidableEq, Repr

def ProgramOption.ofArgument? (argument : String) : Option ProgramOption :=
  if argument = "--version" ∨ (argument.toList.drop 1).all (· == 'v') then some version
  else if argument = "--help" then some help
  else if argument = "--install-completion" ∨ argument = "--show-completion" then some completion
  else none

/-- What an option of the program asks to do in place of a command.  Completing what is typed is
left to the shell, so those options ask for nothing. -/
def ProgramOption.request? : ProgramOption → Option Request
  | version => some .version
  | help => some .help
  | completion => none

/-- Reads the options of the program, up to the first argument that is none or past two dashes.
There is no result if one of them is unknown. -/
def readProgramOptions : List String → Option (List ProgramOption × List String)
  | [] => some ([], [])
  | argument :: rest =>
    if argument = "--" then some ([], rest)
    else if isOption argument then do
      let option ← ProgramOption.ofArgument? argument
      let (options, rest) ← readProgramOptions rest
      return (option :: options, rest)
    else some ([], argument :: rest)

/-- What the arguments ask for, if they follow the rules.  The first option of the
program that asks for something takes precedence over any command behind it.  Where two dashes stand
before what names no command, the arguments from there on are read for options of the program once
more. -/
def Request.ofArguments? (arguments : List String) : Option Request := do
  let (options, rest) ← readProgramOptions arguments
  match options.findSome? ProgramOption.request?, options, rest with
  | some request, _, _ => return request
  | none, [], name :: rest =>
    match CommandName.ofText? name with
    | some name => name.request? rest
    | none =>
      let (options, _) ← readProgramOptions (name :: rest)
      options.findSome? ProgramOption.request?
  | none, _, _ => none

end InfixCalculator.CommandLine
