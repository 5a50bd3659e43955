import GeneticProgram.Double.Decimal

/-!
# Numerals

An unsigned numeral is a decimal one, `12`, `1.5`, `.5` or `2.e-3`, or a hexadecimal one with a
binary exponent, `0x1.8p3`.  A numeral denotes an exact rational number, from which the double that
it stands for is obtained by one rounding.
-/

namespace GeneticProgram

/-- What an unsigned numeral denotes. -/
inductive Numeral
  | nan
  | infinity
  | decimal (value : Decimal)
  | binary (coefficient : Nat) (exponent : Int)
deriving DecidableEq

namespace Numeral

/-- The double that a numeral with a sign stands for. -/
def toDouble (negative : Bool) : Numeral → Double
  | .nan => .nan
  | .infinity => .signed negative .infinity
  | .decimal value => .signed negative value.nearest
  | .binary coefficient exponent => .signed negative (.ofBinary coefficient exponent)

/-- The value of a digit in any base up to sixteen. -/
def digitValue (digit : Char) : Nat :=
  if digit.isDigit then digit.toNat - 48
  else if 'a' ≤ digit then digit.toNat - 87
  else digit.toNat - 55

/-- A digit in base sixteen. -/
def isHexDigit (character : Char) : Bool :=
  character.isDigit || ('a' ≤ character && character ≤ 'f') ||
    ('A' ≤ character && character ≤ 'F')

/-- The number that a row of digits denotes. -/
def valueOfDigits (base : Nat) (digits : List Char) : Nat :=
  digits.foldl (fun value digit => value * base + digitValue digit) 0

/-- Separate an optional sign from the text behind it; the flag is set by a minus sign. -/
def splitSign : List Char → Bool × List Char
  | '+' :: rest => (false, rest)
  | '-' :: rest => (true, rest)
  | text => (false, text)

/-- A row of digits with an optional sign. -/
def exponent? (text : List Char) : Option Int :=
  let (negative, digits) := splitSign text
  if digits.isEmpty || !digits.all Char.isDigit then none
  else if negative then some (-(valueOfDigits 10 digits : Int))
  else some (valueOfDigits 10 digits)

/-- The parts of a coefficient: the digits before the point, those behind it, and the text that
follows. -/
def splitCoefficient (isDigit : Char → Bool) (text : List Char) :
    List Char × List Char × List Char :=
  let whole := text.takeWhile isDigit
  match text.dropWhile isDigit with
  | '.' :: rest => (whole, rest.takeWhile isDigit, rest.dropWhile isDigit)
  | rest => (whole, [], rest)

/-- A decimal numeral: digits with an optional point, at least one digit in all, and an optional
exponent. -/
def decimal? (text : List Char) : Option Numeral :=
  let (whole, fraction, tail) := splitCoefficient Char.isDigit text
  if (whole ++ fraction).isEmpty then none
  else
    let coefficient := valueOfDigits 10 (whole ++ fraction)
    match tail with
    | [] => some (.decimal ⟨coefficient, -fraction.length⟩)
    | mark :: rest =>
      if mark == 'e' || mark == 'E' then
        (exponent? rest).map fun exponent => .decimal ⟨coefficient, exponent - fraction.length⟩
      else none

/-- What follows the mark `0x` of a hexadecimal numeral: digits with an optional point, at least
one digit in all, and a binary exponent. -/
def hexadecimalBody? (text : List Char) : Option Numeral :=
  let (whole, fraction, tail) := splitCoefficient isHexDigit text
  if (whole ++ fraction).isEmpty then none
  else
    match tail with
    | [] => none
    | mark :: rest =>
      if mark == 'p' || mark == 'P' then
        (exponent? rest).map fun exponent =>
          .binary (valueOfDigits 16 (whole ++ fraction)) (exponent - 4 * fraction.length)
      else none

/-- A decimal or hexadecimal numeral. -/
def unsigned? : List Char → Option Numeral
  | '0' :: 'x' :: rest => hexadecimalBody? rest
  | '0' :: 'X' :: rest => hexadecimalBody? rest
  | text => decimal? text

end Numeral
end GeneticProgram
