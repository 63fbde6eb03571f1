import InfixCalculator.Decimal.Shortest

/-!
# The text of binary64 numbers

A number is written with the digits of its shortest decimal.  `DecimalLayout` says where the point
and the exponent go; `Binary64.text` uses the layout `DecimalLayout.plain`, and `Binary64.ofText?`
reads every text of that form.
-/

namespace InfixCalculator

/-- The decisions of how the digits of a number are laid out. -/
structure DecimalLayout where
  /-- The least exponent of the leading digit that is written without an exponent. -/
  positionalFrom : Int
  /-- The least exponent of the leading digit, from one on, that is written with an exponent. -/
  scientificFrom : Int
  exponentWidth : Nat
  infinity : String
  nan : String

namespace DecimalLayout

/-- Numbers from 0.0001 up to 10 ^ 16 are written in full, with at least one digit behind the
point; all others as a leading digit, the other digits behind a point if there are any, and an
exponent with its sign and at least two digits. -/
def plain : DecimalLayout where
  positionalFrom := -4
  scientificFrom := 16
  exponentWidth := 2
  infinity := "inf"
  nan := "nan"

/-- Digits written in full, where `lead` is the exponent of the first one. -/
def positional (digits : List Char) (lead : Int) : List Char :=
  if lead < 0 then '0' :: '.' :: (List.replicate (-lead - 1).toNat '0' ++ digits)
  else
    let count := lead.toNat + 1
    let whole := digits.take count ++ List.replicate (count - digits.length) '0'
    let fraction := digits.drop count
    whole ++ '.' :: (if fraction.isEmpty then ['0'] else fraction)

def exponentDigits (layout : DecimalLayout) (exponent : Nat) : List Char :=
  let digits := Nat.toDigits 10 exponent
  List.replicate (layout.exponentWidth - digits.length) '0' ++ digits

def scientific (layout : DecimalLayout) (digits : List Char) (lead : Int) : List Char :=
  let fraction := digits.drop 1
  digits.take 1 ++ (if fraction.isEmpty then [] else '.' :: fraction)
    ++ 'e' :: (if lead < 0 then '-' else '+') :: layout.exponentDigits lead.natAbs

def write (layout : DecimalLayout) (d : Decimal) : List Char :=
  let digits := Nat.toDigits 10 d.coefficient
  let lead := d.exponent + digits.length - 1
  if layout.positionalFrom ≤ lead ∧ lead < layout.scientificFrom then positional digits lead
  else layout.scientific digits lead

def writeMagnitude (layout : DecimalLayout) (m : Magnitude) : List Char :=
  if m.isInfinite then layout.infinity.toList else layout.write m.shortest

end DecimalLayout

namespace Decimal

def exponentOfText? (text : List Char) : Option Int :=
  match text with
  | '-' :: digits => if digitsOnly digits then some (-(wholeOfDigits digits : Int)) else none
  | '+' :: digits => if digitsOnly digits then some (wholeOfDigits digits) else none
  | digits => if digitsOnly digits then some (wholeOfDigits digits) else none
where
  digitsOnly (text : List Char) : Bool := !text.isEmpty && text.all Char.isDigit

/-- Reads digits with at most one point, and behind them an exponent if there is an `e`. -/
def ofText? (text : List Char) : Option Decimal :=
  let mantissa := text.takeWhile (· != 'e')
  let marked := text.dropWhile (· != 'e')
  if mantissa.any Char.isDigit && mantissa.all (fun c => c.isDigit || c == '.')
      && mantissa.count '.' ≤ 1 then
    let d := ofLiteral mantissa
    if marked.isEmpty then some d
    else (exponentOfText? (marked.drop 1)).map fun e => ⟨d.coefficient, d.exponent + e⟩
  else none

end Decimal

namespace Magnitude

def ofText? (text : List Char) : Option Magnitude :=
  if text = DecimalLayout.plain.infinity.toList then some infinity
  else (Decimal.ofText? text).map Decimal.toMagnitude

end Magnitude

namespace Binary64

def textChars : Binary64 → List Char
  | nan => DecimalLayout.plain.nan.toList
  | signed negative m =>
    let magnitude := DecimalLayout.plain.writeMagnitude m
    if negative then '-' :: magnitude else magnitude

/-- The text of a number: its sign if it is negative, then its magnitude. -/
def text (x : Binary64) : String := String.ofList x.textChars

def ofText? (text : String) : Option Binary64 :=
  if text = DecimalLayout.plain.nan then some nan
  else
    match text.toList with
    | '-' :: magnitude => (Magnitude.ofText? magnitude).map (signed true)
    | magnitude => (Magnitude.ofText? magnitude).map (signed false)

def ofLiteral (literal : List Char) : Binary64 :=
  signed false (Decimal.ofLiteral literal).toMagnitude

end Binary64

end InfixCalculator
