/-!
# Reports

A report is what is shown of an error: a heading by its kind, a message and, if the place of the
error is known, the expression with a marker below the offending column.
-/

namespace InfixCalculator

/-- A column of an expression, counted in characters from zero. -/
structure Location where
  expression : String
  column : Int
  deriving DecidableEq, Repr

namespace Location

/-- The column nearest to the given one that lies in the expression or just behind it. -/
def clampedColumn (l : Location) : Nat := min l.column.toNat l.expression.length

/-- The expression, indented by two spaces, and on the next line a marker below the column. -/
def marked (l : Location) : String :=
  "  " ++ l.expression ++ "\n" ++ String.ofList (List.replicate (2 + l.clampedColumn) ' ') ++ "^"

end Location

inductive ReportKind where
  | general
  | expression
  | invalidOperator
  | unableToParse
  deriving DecidableEq, Repr

namespace ReportKind

def heading : ReportKind → String
  | general | expression => ""
  | invalidOperator => "Invalid operator: "
  | unableToParse => "Error in evaluating: "

def isExpressionError : ReportKind → Bool
  | general => false
  | _ => true

end ReportKind

structure Report where
  kind : ReportKind
  message : String
  location : Option Location := none
  deriving DecidableEq, Repr

namespace Report

/-- A report with a location if both the expression and the column are known. -/
def at? (kind : ReportKind) (message : String) (expression : Option String) (column : Option Int) :
    Report :=
  match expression, column with
  | some expression, some column => ⟨kind, message, some ⟨expression, column⟩⟩
  | _, _ => ⟨kind, message, none⟩

def text (r : Report) : String :=
  match r.location with
  | some location => r.kind.heading ++ r.message ++ "\n" ++ location.marked
  | none => r.kind.heading ++ r.message

end Report

end InfixCalculator
