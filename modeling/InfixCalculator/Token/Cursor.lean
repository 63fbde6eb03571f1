import InfixCalculator.Fault

/-!
# Cursors

A cursor is the part of a source that is yet to be divided into tokens, with its position.  Pulling
at a cursor skips blanks and takes the next token: an operator, a bracket, or a number literal,
which is a digit with all the digits and points behind it.  A cursor that has met a fault is
finished: nothing is left of it.
-/

namespace InfixCalculator

/-- The rest of a source and the position of its first character. -/
structure Cursor where
  rest : List Char
  position : Nat
  deriving DecidableEq, Repr

inductive Pull where
  | token (token : Token)
  | exhausted
  | failed (fault : Fault)
  deriving DecidableEq, Repr

namespace Cursor

/-- The blanks that may stand between tokens. -/
def isSkipped (c : Char) : Bool := c == ' ' || c == '\t' || c == '\n' || c == '\r'

/-- The characters of which number literals consist behind their first digit. -/
def continuesNumber (c : Char) : Bool := c.isDigit || c == '.'

def ofSource (source : String) : Cursor := ⟨source.toList, 0⟩

/-- Takes the number literal that begins with the digit `first`. -/
def pullNumber (first : Char) (rest : List Char) (position : Nat) : Pull × Cursor :=
  let literal := first :: rest.takeWhile continuesNumber
  if 1 < literal.count '.' then
    (.failed ⟨.malformedNumber literal, some position⟩, ⟨[], position⟩)
  else
    (.token ⟨.num, some (.ofLiteral literal), position⟩,
      ⟨rest.dropWhile continuesNumber, position + literal.length⟩)

def pullFrom : List Char → Nat → Pull × Cursor
  | [], position => (.exhausted, ⟨[], position⟩)
  | c :: rest, position =>
    if isSkipped c then pullFrom rest (position + 1)
    else
      match TokenKind.ofChar? c with
      | some kind => (.token ⟨kind, none, position⟩, ⟨rest, position + 1⟩)
      | none =>
        if c.isDigit then pullNumber c rest position
        else (.failed ⟨.unexpectedCharacter c, some position⟩, ⟨[], position⟩)

def pull (cursor : Cursor) : Pull × Cursor := pullFrom cursor.rest cursor.position

def pulls (cursor : Cursor) : Nat → List Pull
  | 0 => []
  | n + 1 =>
    let (result, next) := cursor.pull
    result :: next.pulls n

/-- The results of pulling until there is no token. -/
def pullAll (cursor : Cursor) : List Pull :=
  throughEnd (cursor.pulls (cursor.rest.length + 1))
where
  throughEnd : List Pull → List Pull
    | [] => []
    | .token t :: results => .token t :: throughEnd results
    | result :: _ => [result]

theorem length_lt_of_pullFrom {text : List Char} {position : Nat} {token : Token} {next : Cursor}
    (h : pullFrom text position = (.token token, next)) : next.rest.length < text.length := by
  fun_induction pullFrom text position with
  | case1 => simp at h
  | case2 c rest position _ ih => simpa using Nat.lt_succ_of_lt (ih h)
  | case3 c rest position _ kind _ =>
    obtain ⟨_, rfl⟩ := by simpa using h
    simp
  | case4 c rest position _ _ _ =>
    simp only [pullNumber] at h
    split at h
    · simp at h
    · obtain ⟨_, rfl⟩ := by simpa using h
      have := (List.dropWhile_sublist (l := rest) continuesNumber).length_le
      simpa using Nat.lt_succ_of_le this
  | case5 => simp at h

end Cursor

end InfixCalculator
