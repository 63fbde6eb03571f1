import InfixCalculator.Proofs.Calculator.Safety
import InfixCalculator.Proofs.Parser.Culprit
import InfixCalculator.Proofs.Text.Legible

/-!
# The marker of a report

A line without its blanks has no line break, and neither has what is said of a fault.  So a report
with a place has three lines: what is said, the text, and the marker.  The column is never clamped,
and the marker stands below the first character of what the fault complains of, or behind the text.
-/

namespace InfixCalculator

open Text

namespace Location

variable (l : Location)

def shownLine : List Char := ' ' :: ' ' :: l.expression.toList

def markerLine : List Char := List.replicate (2 + l.clampedColumn) ' ' ++ ['^']

theorem toList_marked : l.marked.toList = l.shownLine ++ '\n' :: l.markerLine := by
  simp [marked, shownLine, markerLine]

theorem clampedColumn_of_le {expression : String} {column : Nat}
    (h : column ≤ expression.length) : clampedColumn ⟨expression, column⟩ = column :=
  Nat.min_eq_left h

theorem idxOf_markerLine : l.markerLine.idxOf '^' = 2 + l.clampedColumn := by
  have hspaces : '^' ∉ List.replicate (2 + l.clampedColumn) ' ' := by simp
  simp [markerLine, List.idxOf_append_of_notMem hspaces]

theorem length_shownLine : l.shownLine.length = 2 + l.expression.length := by
  rw [shownLine, List.length_cons, List.length_cons, String.length_toList]
  omega

theorem drop_shownLine (column : Nat) :
    l.shownLine.drop (2 + column) = l.expression.toList.drop column := by
  rw [Nat.add_comm]
  rfl

variable {l} {c : Char}

theorem notMem_markerLine (hspace : c ≠ ' ') (hcaret : c ≠ '^') : c ∉ l.markerLine := by
  simp [markerLine, hspace, hcaret]

theorem mem_shownLine (hspace : c ≠ ' ') : c ∈ l.shownLine ↔ c ∈ l.expression.toList := by
  simp [shownLine, hspace]

end Location

namespace Report

variable {r : Report} {l : Location}

def lines (r : Report) : List (List Char) := r.text.toList.splitOn '\n'

theorem toList_text_of_location (hl : r.location = some l) :
    r.text.toList = (r.kind.heading ++ r.message).toList ++
      '\n' :: (l.shownLine ++ '\n' :: l.markerLine) := by
  rw [text, hl]
  simp [l.toList_marked]

/-- A report with a place has three lines if neither its message nor the expression is broken. -/
theorem lines_of_location (hl : r.location = some l)
    (hmessage : '\n' ∉ (r.kind.heading ++ r.message).toList)
    (hexpression : '\n' ∉ l.expression.toList) :
    r.lines = [(r.kind.heading ++ r.message).toList, l.shownLine, l.markerLine] := by
  have htext : r.text.toList = ['\n'].intercalate
      [(r.kind.heading ++ r.message).toList, l.shownLine, l.markerLine] := by
    rw [toList_text_of_location hl]
    simp [List.intercalate]
  have hunbroken : ∀ line ∈ [(r.kind.heading ++ r.message).toList, l.shownLine, l.markerLine],
      '\n' ∉ line := by
    simp only [List.forall_mem_cons]
    exact ⟨hmessage, mt (Location.mem_shownLine (by decide)).1 hexpression,
      Location.notMem_markerLine (by decide) (by decide), by simp⟩
  rw [lines, htext, List.splitOn_intercalate '\n' hunbroken (by simp)]

end Report

theorem ReportKind.legible_heading (kind : ReportKind) : Legible kind.heading.toList := by
  cases kind <;> exact legible_of_ascii rfl

theorem Fault.legible_message (fault : Fault) :
    Legible (fault.kind.heading ++ fault.detail).toList := by
  rw [String.toList_append, legible_append]
  exact ⟨fault.kind.legible_heading, fault.cause.legible_detail⟩

theorem Fault.report_eq (fault : Fault) (source : String) : fault.report source =
    ⟨fault.kind, fault.detail, fault.column.map fun column : Nat => ⟨source, column⟩⟩ := by
  unfold report Report.at?
  cases fault.column <;> rfl

namespace Calculator

variable {limit : Nat} {line : String} {fault : Fault}

theorem newline_notMem_expressionText (line : String) : '\n' ∉ (expressionText line).toList := by
  intro h
  cases isBlank_of_mem_removeBlanks h

theorem pullAll_expressionText_eq_exhausted :
    (Cursor.ofSource (expressionText line)).pullAll = [.exhausted] ↔ expressionText line = "" := by
  constructor
  · intro h
    have hfirst : Cursor.unblanked (expressionText line).toList = (expressionText line).toList := by
      refine List.dropWhile_eq_self_iff.2 fun hpos hskip => ?_
      have hblank := isBlank_of_mem_removeBlanks (List.getElem_mem hpos)
      simp only [Cursor.isSkipped, Bool.or_eq_true, beq_iff_eq] at hskip
      obtain ((hc | hc) | hc) | hc := hskip <;> rw [hc] at hblank <;> cases hblank
    have hend := (Cursor.column_of_pullAll (Nat.zero_le _) hfirst h).2.1 rfl
    exact String.toList_eq_nil_iff.1 (List.length_eq_zero_iff.1 hend.symm)
  · intro h
    rw [h]
    rfl

/-- The only lines that are rejected without a place are those with nothing but blanks and those
that are nested too deeply.  Every other report has three lines, and the marker in the third one
stands below the first character of what the fault complains of, or one past the end of the
text. -/
theorem marker_stands_below_culprit (h : (evaluateWithin limit line).result = .error fault) :
    ((report line fault).location = none ↔
      expressionText line = "" ∨ fault.cause = .nestedTooDeeply) ∧
    ∀ location, (report line fault).location = some location →
      ∃ column : Nat, location = ⟨expressionText line, column⟩ ∧
        column ≤ (expressionText line).length ∧ location.clampedColumn = column ∧
        (report line fault).lines = [(fault.kind.heading ++ fault.detail).toList,
          location.shownLine, location.markerLine] ∧
        (fault.cause.isAtEnd = true ∧
            location.markerLine.idxOf '^' = location.shownLine.length ∨
          ∃ first culprit rest, Culprit column fault.cause (first :: culprit) rest ∧
            location.shownLine[location.markerLine.idxOf '^']? = some first ∧
            location.shownLine.drop (location.markerLine.idxOf '^') =
              first :: culprit ++ rest) := by
  have hparse := parseWithin_of_error h
  have hreport := fault.report_eq (expressionText line)
  refine ⟨?unplaced, ?placed⟩
  case unplaced =>
    rw [report, hreport, Option.map_eq_none_iff, Expr.column_eq_none_iff hparse,
      pullAll_expressionText_eq_exhausted]
  case placed =>
    intro location hplaced
    rw [report, hreport] at hplaced
    obtain ⟨column, hcolumn, rfl⟩ := Option.map_eq_some_iff.1 hplaced
    have hlocated := Expr.located_of_column hparse hcolumn
    obtain ⟨hinside, hculprit⟩ := hlocated.exists_culprit
    have hclamped := Location.clampedColumn_of_le hinside
    refine ⟨column, rfl, hinside, hclamped, ?lines, ?marker⟩
    case lines =>
      rw [report, hreport]
      exact Report.lines_of_location hplaced (fault.legible_message.notMem_of_control (by decide))
        (newline_notMem_expressionText line)
    case marker =>
      rw [Location.idxOf_markerLine, hclamped]
      rcases hculprit with ⟨hatEnd, hlength⟩ | ⟨culprit, rest, hculprit, hne, htext⟩
      · left
        refine ⟨hatEnd, ?_⟩
        rw [hlength, Location.length_shownLine]
      · right
        obtain ⟨first, culprit, rfl⟩ := List.exists_cons_of_ne_nil hne
        have hdrop : (Location.shownLine ⟨expressionText line, column⟩).drop (2 + column) =
            first :: culprit ++ rest := by
          rw [Location.drop_shownLine, htext]
        refine ⟨first, culprit, rest, hculprit, ?_, hdrop⟩
        rw [← List.head?_drop, hdrop]
        rfl

/-- In `2 * )` the marker stands below the bracket. -/
theorem marker_stands_below_bracket :
    (evaluateWithin 9 "2 * )").result =
        .error ⟨.operandExpected ⟨.rightParen, none, 2⟩, some 2⟩ ∧
      (report "2 * )" ⟨.operandExpected ⟨.rightParen, none, 2⟩, some 2⟩).lines =
        ["Invalid operator: Unexpected RightParen where an operand was expected".toList,
          "  2*)".toList, "    ^".toList] := by
  have hresult : (evaluateWithin 9 "2 * )").result =
      .error ⟨.operandExpected ⟨.rightParen, none, 2⟩, some 2⟩ := by
    rw [result_evaluateWithin]
    decide +kernel
  obtain ⟨column, -, -, hclamped, hlines, -⟩ :=
    (marker_stands_below_culprit hresult).2 ⟨expressionText "2 * )", 2⟩ rfl
  refine ⟨hresult, ?_⟩
  rw [hlines]
  decide

end Calculator

end InfixCalculator
