/-!
# Control sequences and codes

An escape character and a bracket, parameters, and a letter at the end are together a command to a
terminal, and not text.  Output that need not reach a terminal is freed of such commands.  What
begins like one and is not ended by a letter stays.  Single characters that are commands to a
terminal are dropped from a text by `without`.
-/

namespace InfixCalculator.Text

def isControlParameter (c : Char) : Bool := c.isDigit || c == ';' || c == '?'

/-- What follows the control sequence at the beginning of a text, if there is one. -/
def afterControlSequence? : List Char → Option (List Char)
  | '\x1b' :: '[' :: text =>
    match text.dropWhile isControlParameter with
    | final :: rest => if final.isAlpha then some rest else none
    | [] => none
  | _ => none

theorem length_lt_of_afterControlSequence? {text rest : List Char}
    (h : afterControlSequence? text = some rest) : rest.length < text.length := by
  unfold afterControlSequence? at h
  split at h
  · next text =>
    have shorter := (List.dropWhile_sublist (l := text) isControlParameter).length_le
    split at h
    · next final tail found =>
      rw [found] at shorter
      split at h
      · cases h
        simp only [List.length_cons] at shorter ⊢
        omega
      · cases h
    · cases h
  · cases h

theorem afterControlSequence?_cons_of_ne {c : Char} (text : List Char) (h : c ≠ '\x1b') :
    afterControlSequence? (c :: text) = none := by
  unfold afterControlSequence?
  split
  · simp_all
  · rfl

/-- The characters of a text that are in no control sequence.  The sequences are found from the left
on, and those that their removal would bring about are not looked for. -/
def outsideControlSequences : List Char → List Char
  | [] => []
  | c :: text =>
    match _found : afterControlSequence? (c :: text) with
    | some rest => outsideControlSequences rest
    | none => c :: outsideControlSequences text
termination_by text => text.length
decreasing_by
  · exact length_lt_of_afterControlSequence? ‹_›
  · simp

def removeControlSequences (text : String) : String :=
  String.ofList (outsideControlSequences text.toList)

theorem outsideControlSequences_of_not_mem {text : List Char} (h : '\x1b' ∉ text) :
    outsideControlSequences text = text := by
  induction text with
  | nil => simp [outsideControlSequences]
  | cons c text ih =>
    simp only [List.mem_cons, not_or] at h
    rw [outsideControlSequences]
    split
    · next found =>
      rw [afterControlSequence?_cons_of_ne text (Ne.symm h.1)] at found
      cases found
    · rw [ih h.2]

/-- The control codes that ring or move the cursor, but the line feed. -/
def cursorCodes : List Char := ['\x07', '\x08', '\x0b', '\x0c', '\r']

def without (dropped : List Char) (text : String) : String :=
  String.ofList (text.toList.filter fun c => !dropped.contains c)

end InfixCalculator.Text
