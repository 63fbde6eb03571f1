import InfixCalculator.CommandLine.Run
import InfixCalculator.Proofs.Calculator.Marker

/-!
# Printed lines

What is known of the functions of a platform that write a line, and what follows for the lines of
the program: expressions and values are written as they are both ways, and so is the report of a
fault if the text has no control characters.
-/

namespace InfixCalculator

open Text

namespace Text

/-- The text is written as wide as it is: there are no tabs to expand, and no line ends in a space
that may be cut off. -/
def FixedWidth (text : String) : Prop :=
  '\t' ∉ text.toList ∧ ∀ line ∈ text.toList.splitOn '\n', line.getLast? ≠ some ' '

variable {text : String} {dropped : List Char}

theorem without_eq_self (h : ∀ c ∈ dropped, c ∉ text.toList) : without dropped text = text := by
  have hkept : text.toList.filter (fun c => !dropped.contains c) = text.toList := by
    rw [List.filter_eq_self]
    intro c hc
    simpa using fun hdropped => h c hdropped hc
  rw [without, hkept, String.ofList_toList]

theorem without_append {more : List Char} (h : ∀ c ∈ more, c ∉ text.toList) :
    without (dropped ++ more) text = without dropped text := by
  rw [without, without]
  congr 1
  apply List.filter_congr
  intro c hc
  have hmore : c ∉ more := fun hmore => h c hmore hc
  simp [hmore]

theorem fixedWidth_of_lines {lines : List (List Char)} (htab : '\t' ∉ text.toList)
    (htext : text.toList = ['\n'].intercalate lines) (hne : lines ≠ [])
    (hlines : ∀ line ∈ lines, '\n' ∉ line ∧ EndsVisibly line) : FixedWidth text := by
  refine ⟨htab, ?_⟩
  rw [htext, List.splitOn_intercalate '\n' (fun line hline => (hlines line hline).1) hne]
  intro line hline
  obtain ⟨-, c, hlast, hc⟩ := hlines line hline
  rw [hlast]
  simpa using hc

end Text

/-- What is known of the functions that write a line where no terminal listens.  Lines on their own
may be freed of sequences that control a terminal, in which there is an escape character.  A session
drops control codes. -/
structure Platform.Documented (platform : Platform) : Prop where
  echo_eq {text : String} (plain : '\x1b' ∉ text.toList) : platform.echo text = text ++ "\n"
  print_eq {text : String} (fixed : FixedWidth text) :
    platform.print text = without cursorCodes text ++ "\n"

theorem CommandLine.plainPlatform_documented : plainPlatform.Documented where
  echo_eq plain := by
    simp only [plainPlatform, removeControlSequences, outsideControlSequences_of_not_mem plain,
      String.ofList_toList]
  print_eq _ := rfl

namespace Session

variable {platform : Platform} {text : String}

/-! ## Expressions and values -/

theorem legible_ast (e : Expr) : Legible (astLabel ++ e.render).toList := by
  rw [String.toList_append, legible_append]
  exact ⟨legible_of_ascii rfl, e.legible_chars⟩

theorem endsVisibly_ast (e : Expr) : EndsVisibly (astLabel ++ e.render).toList := by
  rw [String.toList_append]
  exact e.endsVisibly_chars.append_left _

theorem legible_result (x : Binary64) : Legible (resultLabel ++ x.text).toList := by
  rw [String.toList_append, legible_append]
  exact ⟨legible_of_ascii rfl, x.legible_text⟩

theorem endsVisibly_result (x : Binary64) : EndsVisibly (resultLabel ++ x.text).toList := by
  rw [String.toList_append, Binary64.text, String.toList_ofList]
  exact x.endsVisibly_textChars.append_left _

theorem echo_of_legible (hplatform : platform.Documented) (h : Legible text.toList) :
    platform.echo text = text ++ "\n" :=
  hplatform.echo_eq (h.notMem_of_control (by decide))

theorem print_of_legible (hplatform : platform.Documented) (h : Legible text.toList)
    (hend : EndsVisibly text.toList) : platform.print text = text ++ "\n" := by
  have hfixed : FixedWidth text :=
    fixedWidth_of_lines (h.notMem_of_control (by decide)) (List.intercalate_singleton).symm
      (List.cons_ne_nil text.toList []) (by simp [h.notMem_of_control, hend])
  have hcodes : ∀ c ∈ cursorCodes, c.toNat < 32 := by simp [cursorCodes]
  rw [hplatform.print_eq hfixed, without_eq_self fun c hc => h.notMem_of_control (hcodes c hc)]

end Session

namespace Calculator

/-! ## Reports -/

variable {line : String} {c : Char}

theorem expressionText_ne_empty (h : Session.isBlankLine line = false) :
    (expressionText line).toList ≠ [] := by
  intro hempty
  rw [expressionText, removeBlanks, String.toList_ofList, List.filter_eq_nil_iff] at hempty
  have hblank : Session.isBlankLine line = true :=
    List.all_eq_true.2 fun c hc => by simpa using hempty c hc
  rw [hblank] at h
  cases h

/-- A control character that is not in the text of an expression is not in the report of a fault in
it, unless it ends the lines of the report. -/
theorem notMem_report (fault : Fault) (hline : c ∉ (expressionText line).toList)
    (hcontrol : c.toNat < 32) (hne : c ≠ '\n') :
    c ∉ (Session.errorLabel ++ (report line fault).text).toList := by
  have hlabel : c ∉ Session.errorLabel.toList :=
    (legible_of_ascii rfl).notMem_of_control hcontrol
  have hmessage := fault.legible_message.notMem_of_control hcontrol
  have hvisible (visible : Char) (hvisible : 32 ≤ visible.toNat) : c ≠ visible := by
    rintro rfl
    omega
  have hspace : c ≠ ' ' := hvisible ' ' (by decide)
  have hcaret : c ≠ '^' := hvisible '^' (by decide)
  rw [String.toList_append, List.mem_append, or_iff_right hlabel, report, fault.report_eq]
  cases fault.column with
  | none => exact hmessage
  | some column =>
    have hshown : c ∉ Location.shownLine ⟨expressionText line, column⟩ := by
      rw [Location.mem_shownLine hspace]
      exact hline
    have hmarker : c ∉ Location.markerLine ⟨expressionText line, column⟩ :=
      Location.notMem_markerLine hspace hcaret
    rw [Option.map_some, Report.toList_text_of_location rfl]
    simp only [List.mem_append, List.mem_cons, not_or]
    exact ⟨hmessage, hne, hshown, hne, hmarker⟩

theorem notMem_expressionText_of_notMem (hc : c ∉ line.toList) :
    c ∉ (expressionText line).toList := by
  rw [expressionText, removeBlanks, String.toList_ofList]
  exact fun h => hc (List.mem_filter.1 h).1

theorem notMem_expressionText (hc : isBlank c = true) : c ∉ (expressionText line).toList := by
  intro h
  rw [isBlank_of_mem_removeBlanks h] at hc
  cases hc

/-- The first line of the report of a fault. -/
def headline (fault : Fault) : List Char :=
  (Session.errorLabel ++ (fault.kind.heading ++ fault.detail)).toList

theorem legible_headline (fault : Fault) : Legible (headline fault) := by
  rw [headline, String.toList_append, legible_append]
  exact ⟨legible_of_ascii rfl, fault.legible_message⟩

theorem endsVisibly_headline (fault : Fault) : EndsVisibly (headline fault) := by
  rw [headline, String.toList_append, String.toList_append]
  exact (fault.cause.endsVisibly_detail.append_left _).append_left _

theorem fixedWidth_report (fault : Fault) (h : Session.isBlankLine line = false) :
    FixedWidth (Session.errorLabel ++ (report line fault).text) := by
  have htab : '\t' ∉ (Session.errorLabel ++ (report line fault).text).toList :=
    notMem_report fault (notMem_expressionText rfl) (by decide) (by decide)
  have hfirst : '\n' ∉ headline fault ∧ EndsVisibly (headline fault) :=
    ⟨(legible_headline fault).notMem_of_control (by decide), endsVisibly_headline fault⟩
  rw [report, fault.report_eq] at htab ⊢
  generalize fault.column = column at htab ⊢
  cases column with
  | none =>
    have htext : (Session.errorLabel ++ Report.text ⟨fault.kind, fault.detail, none⟩).toList =
        ['\n'].intercalate [headline fault] := List.intercalate_singleton.symm
    apply fixedWidth_of_lines htab htext (by simp)
    simpa using hfirst
  | some column =>
    have hshown : '\n' ∉ Location.shownLine ⟨expressionText line, column⟩ ∧
        EndsVisibly (Location.shownLine ⟨expressionText line, column⟩) := by
      have hvisible := endsVisibly_of_notMem (expressionText_ne_empty h)
        (notMem_expressionText rfl)
      exact ⟨mt (Location.mem_shownLine (by decide)).1 (newline_notMem_expressionText line),
        hvisible.append_left [' ', ' ']⟩
    have hmarker : '\n' ∉ Location.markerLine ⟨expressionText line, column⟩ ∧
        EndsVisibly (Location.markerLine ⟨expressionText line, column⟩) :=
      ⟨Location.notMem_markerLine (by decide) (by decide),
        endsVisibly_append_singleton _ (by decide)⟩
    have htext : (Session.errorLabel ++ Report.text ⟨fault.kind, fault.detail,
        some ⟨expressionText line, column⟩⟩).toList = ['\n'].intercalate [headline fault,
          Location.shownLine ⟨expressionText line, column⟩,
          Location.markerLine ⟨expressionText line, column⟩] := by
      rw [String.toList_append, Report.toList_text_of_location rfl]
      simp [List.intercalate, headline]
    apply fixedWidth_of_lines htab htext (by simp)
    simpa using ⟨hfirst, hshown, hmarker⟩

/-- A session drops two control characters from the report of a fault; the others are blanks. -/
theorem print_report {platform : Platform} (hplatform : platform.Documented) (fault : Fault)
    (h : Session.isBlankLine line = false) :
    platform.print (Session.errorLabel ++ (report line fault).text) =
      without ['\x07', '\x08'] (Session.errorLabel ++ (report line fault).text) ++ "\n" := by
  have hblanks : ∀ c ∈ ['\x0b', '\x0c', '\r'],
      isBlank c = true ∧ c.toNat < 32 ∧ c ≠ '\n' := by
    intro c hc
    simp only [List.mem_cons, List.not_mem_nil, or_false] at hc
    rcases hc with rfl | rfl | rfl <;> decide
  have hcodes : cursorCodes = ['\x07', '\x08'] ++ ['\x0b', '\x0c', '\r'] := rfl
  rw [hplatform.print_eq (fixedWidth_report fault h), hcodes]
  congr 1
  apply without_append
  intro c hc
  obtain ⟨hblank, hcontrol, hne⟩ := hblanks c hc
  exact notMem_report fault (notMem_expressionText hblank) hcontrol hne

end Calculator

end InfixCalculator
