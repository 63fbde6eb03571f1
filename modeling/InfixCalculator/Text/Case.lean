import InfixCalculator.Text.CaseTable

/-!
# Upper and lower case

Full case mapping of texts: a character may map to several, and a capital sigma at the end of a
word has a lower case of its own.
-/

namespace InfixCalculator.Text

/-- The case mapping given by runs of single mappings and a list of mappings to several
characters; a character in neither stays as it is. -/
def mapCase (runs : List CaseRun) (expansions : List (Nat × List Nat)) (c : Char) : List Char :=
  match expansions.lookup c.toNat with
  | some codes => codes.map Char.ofNat
  | none =>
    match runs.find? (·.contains c.toNat) with
    | some run => [Char.ofNat (c.toNat + run.shift).toNat]
    | none => [c]

/-- Whether the first character that is not to be skipped is one with a case. -/
def nextIsCased (text : List Char) : Bool :=
  match text.dropWhile (CodeRange.anyContains caseIgnorableRanges ·.toNat) with
  | [] => false
  | c :: _ => CodeRange.anyContains casedRanges c.toNat

/-- The lower case of a text; `before` holds the characters that precede it, the last one first.  A
capital sigma ends a word if a letter precedes it and none follows. -/
def lowerAfter (before : List Char) : List Char → List Char
  | [] => []
  | c :: rest =>
    let mapped :=
      if c = 'Σ' then [if nextIsCased before && !nextIsCased rest then 'ς' else 'σ']
      else mapCase lowerRuns lowerExpansions c
    mapped ++ lowerAfter (c :: before) rest

def lower (text : String) : String := String.ofList (lowerAfter [] text.toList)

def upper (text : String) : String :=
  String.ofList (text.toList.flatMap (mapCase upperRuns upperExpansions))

end InfixCalculator.Text
