import GeneticProgram.Double.Decimal

/-!
# Written doubles

A number is written with its shortest digits.  From `10 ^ (-4)` up to below `10 ^ 16` the point
stands at its place and at least one digit follows it; outside of that range one digit stands before
the point, and an exponent with a sign and at least two digits follows.
-/

namespace GeneticProgram.Double

/-- How what is not a finite number is spelled. -/
structure Spelling where
  /-- What is not a number. -/
  nan : String
  /-- Infinity without its sign. -/
  infinity : String

/-- The spelling of numeric literals in programs. -/
def literalSpelling : Spelling := ⟨"NaN", "Infinity"⟩

/-- The spelling of values in reports. -/
def valueSpelling : Spelling := ⟨"nan", "inf"⟩

/-- An exponent with its sign and at least two digits. -/
def exponentText (exponent : Int) : List Char :=
  (if exponent < 0 then '-' else '+') :: (Nat.toDigits 10 exponent.natAbs).leftpad 2 '0'

/-- Digits with the point at its place. -/
def positionalText (digits : List Char) (point : Int) : List Char :=
  if point ≤ 0 then '0' :: '.' :: List.replicate point.natAbs '0' ++ digits
  else if (digits.length : Int) ≤ point then
    digits ++ List.replicate (point.toNat - digits.length) '0' ++ ['.', '0']
  else digits.take point.toNat ++ '.' :: digits.drop point.toNat

/-- Digits with the point behind the first one, and an exponent. -/
def scientificText (digits : List Char) (exponent : Int) : List Char :=
  digits.take 1 ++ (if digits.length ≤ 1 then [] else '.' :: digits.drop 1) ++
    'e' :: exponentText exponent

/-- The text of a decimal. -/
def decimalText (decimal : Decimal) : List Char :=
  let digits := decimal.significantDigits
  let point := decimal.pointPosition
  if -4 < point && point ≤ 16 then positionalText digits point
  else scientificText digits (point - 1)

/-- The text of a nonnegative number. -/
def magnitudeText (spelling : Spelling) (magnitude : Magnitude) : List Char :=
  if magnitude.isInfinite then spelling.infinity.toList
  else if magnitude.isZero then ['0', '.', '0']
  else decimalText magnitude.shortestDecimal

/-- The text of a number. -/
def text (spelling : Spelling) : Double → List Char
  | .nan => spelling.nan.toList
  | .signed negative magnitude =>
    (if negative then ['-'] else []) ++ magnitudeText spelling magnitude

/-- The text of a number as a literal of a program. -/
def literalText (double : Double) : String := String.ofList (double.text literalSpelling)

/-- The text of a number as a value in a report. -/
def valueText (double : Double) : String := String.ofList (double.text valueSpelling)

/-- The text of a finite number with an exponent and a fixed number of decimal places, rounded to
the nearest such text, a half going to the even digit. -/
def scientific (places : Nat) (magnitude : Magnitude) : List Char :=
  if magnitude.isZero then
    '0' :: '.' :: List.replicate places '0' ++ 'e' :: exponentText 0
  else
    let leading := magnitude.leadingExponent
    let (numerator, denominator) := magnitude.stepsOf (leading - places)
    let steps := roundDiv numerator denominator
    if steps = Nat.pow 10 (places + 1) then
      scientificText (Nat.toDigits 10 (Nat.pow 10 places)) (leading + 1)
    else scientificText (Nat.toDigits 10 steps) leading

/-- A finite number rounded to a number of significant digits. -/
def roundedText (places : Nat) : Double → String
  | .nan => literalSpelling.nan
  | .signed negative magnitude =>
    String.ofList ((if negative then ['-'] else []) ++ scientific places magnitude)

end GeneticProgram.Double
