import InfixCalculator.Binary64.Basic
import InfixCalculator.Binary64.Rounding
import InfixCalculator.Binary64.Arithmetic
import InfixCalculator.Binary64.Enclosure
import InfixCalculator.Binary64.Power
import InfixCalculator.Decimal.Basic
import InfixCalculator.Decimal.Shortest
import InfixCalculator.Decimal.Text
import InfixCalculator.Operator
import InfixCalculator.Expr.Tree
import InfixCalculator.Expr.Depth
import InfixCalculator.Expr.Basic
import InfixCalculator.Expr.Untyped
import InfixCalculator.Text.CodeRange
import InfixCalculator.Text.Blank
import InfixCalculator.Text.Printable
import InfixCalculator.Text.CaseTable
import InfixCalculator.Text.Case
import InfixCalculator.Text.Quoted
import InfixCalculator.Text.ControlSequence
import InfixCalculator.Token.Basic
import InfixCalculator.Report
import InfixCalculator.Fault
import InfixCalculator.Token.Cursor
import InfixCalculator.Parser.State
import InfixCalculator.Parser.Expression
import InfixCalculator.Log
import InfixCalculator.Console
import InfixCalculator.Calculator
import InfixCalculator.Settings
import InfixCalculator.CommandLine.Platform
import InfixCalculator.CommandLine.Session
import InfixCalculator.CommandLine.Commands
import InfixCalculator.CommandLine.Arguments
import InfixCalculator.CommandLine.Run
import InfixCalculator.Main
import InfixCalculator.Proofs.Parser.Outcome
import InfixCalculator.Proofs.Parser.Ahead
import InfixCalculator.Proofs.Parser.Climbing
import InfixCalculator.Proofs.Parser.Source
import InfixCalculator.Proofs.Parser.Scan
import InfixCalculator.Proofs.Grammar.Layered
import InfixCalculator.Proofs.Grammar.Climbing
import InfixCalculator.Proofs.Token.Concatenation
import InfixCalculator.Proofs.Expr.Leaves
import InfixCalculator.Proofs.Grammar.Reading
import InfixCalculator.Proofs.Grammar.Substitution
import InfixCalculator.Proofs.Expr.Spelling
import InfixCalculator.Proofs.Expr.Replacement
import InfixCalculator.Proofs.Binary64.Rounding
import InfixCalculator.Proofs.Decimal.ReadBack
import InfixCalculator.Proofs.Decimal.Positional
import InfixCalculator.Proofs.Expr.Rendering
import InfixCalculator.Proofs.Parser.CallStack
import InfixCalculator.Proofs.Parser.Moments
import InfixCalculator.Proofs.Parser.SharedTokens
import InfixCalculator.Proofs.Token.Lexeme
import InfixCalculator.Proofs.Binary64.Guarded
import InfixCalculator.Proofs.Calculator.Safety
import InfixCalculator.Proofs.Parser.Advances
import InfixCalculator.Proofs.Parser.CallSequence
import InfixCalculator.Proofs.Expr.Evaluation
import InfixCalculator.Proofs.Token.Tiling
import InfixCalculator.Proofs.Parser.Relocation
import InfixCalculator.Proofs.Calculator.RemovedBlanks
import InfixCalculator.Proofs.CommandLine.Sessions
import InfixCalculator.Proofs.Expr.InOrder
import InfixCalculator.Proofs.Parser.ConsumedTokens
import InfixCalculator.Proofs.Token.Seams
import InfixCalculator.Proofs.Decimal.Notation
import InfixCalculator.Proofs.Expr.Readability
import InfixCalculator.Proofs.Binary64.Nearest
import InfixCalculator.Proofs.Binary64.Parity
import InfixCalculator.Proofs.Binary64.Total
import InfixCalculator.Proofs.Text.Legible
import InfixCalculator.Proofs.Parser.Culprit
import InfixCalculator.Proofs.Calculator.Marker
import InfixCalculator.Proofs.CommandLine.Consoles
import InfixCalculator.Proofs.CommandLine.Printing
import InfixCalculator.Proofs.CommandLine.OneShot
import InfixCalculator.Proofs.CommandLine.LogLevels
import InfixCalculator.Proofs.Parser.Progress
import InfixCalculator.Proofs.Expr.Showing
import InfixCalculator.Proofs.Expr.Levels
import InfixCalculator.Proofs.Parser.TreeDepth
