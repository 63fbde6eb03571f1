import InfixCalculator.Text.CodeRange

/-!
# Blank characters

The characters that count as white space in a line of input: the Unicode characters of white space
together with the four information separators.
-/

namespace InfixCalculator.Text

/-- The code points of blank characters. -/
def blankRanges : List CodeRange := [
  (0x0009, 0x000D), (0x001C, 0x0020), (0x0085, 0x0085), (0x00A0, 0x00A0), (0x1680, 0x1680),
  (0x2000, 0x200A), (0x2028, 0x2029), (0x202F, 0x202F), (0x205F, 0x205F), (0x3000, 0x3000)]

def isBlank (c : Char) : Bool := CodeRange.anyContains blankRanges c.toNat

def removeBlanks (text : String) : String :=
  String.ofList (text.toList.filter fun c => !isBlank c)

theorem isBlank_of_mem_removeBlanks {text : String} {c : Char}
    (h : c ∈ (removeBlanks text).toList) : isBlank c = false := by
  simp only [removeBlanks, String.toList_ofList, List.mem_filter] at h
  simpa using h.2

/-- The characters of a text from the first to the last one that is not blank. -/
def trimChars (text : List Char) : List Char :=
  ((text.dropWhile isBlank).reverse.dropWhile isBlank).reverse

def trim (text : String) : String := String.ofList (trimChars text.toList)

end InfixCalculator.Text
