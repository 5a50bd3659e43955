import GeneticProgram.Double.Basic

/-!
# Decimal numbers

A decimal is a natural number of steps of a power of ten.  Reading one gives the nearest double.
Writing a double takes the decimal with the fewest digits that reads back as the same double, and of
those the nearest one; should no decimal of up to seventeen digits read back, the exact value is
written.  A written number therefore always reads back.
-/

namespace GeneticProgram

/-- A nonnegative decimal number: `digits * 10 ^ exponent`. -/
structure Decimal where
  /-- The digits, read as a natural number. -/
  digits : Nat
  /-- The power of ten that the digits count. -/
  exponent : Int
deriving DecidableEq

namespace Decimal

/-- The double nearest to a decimal.  An exponent so large or so small that the result can only be
infinity or zero is recognised without computing the power. -/
def nearest (decimal : Decimal) : Magnitude :=
  if decimal.digits = 0 then .zero
  else match decimal.exponent with
    | .ofNat exponent =>
      if 310 < exponent then .infinity else .ofRatio (decimal.digits * Nat.pow 10 exponent) 1
    | .negSucc predecessor =>
      let exponent := predecessor + 1
      if Nat.log2 decimal.digits + 1081 ≤ 3 * exponent then .zero
      else .ofRatio decimal.digits (Nat.pow 10 exponent)

/-- The decimal digits of the coefficient without the zeros at the end. -/
def significantDigits (decimal : Decimal) : List Char :=
  ((Nat.toDigits 10 decimal.digits).reverse.dropWhile (· == '0')).reverse

/-- The place of the decimal point, counted from before the first digit. -/
def pointPosition (decimal : Decimal) : Int :=
  (Nat.toDigits 10 decimal.digits).length + decimal.exponent

end Decimal

/-- The double nearest to `coefficient * 2 ^ exponent`, extreme exponents being recognised without
computing the power. -/
def Magnitude.ofBinary (coefficient : Nat) (exponent : Int) : Magnitude :=
  if coefficient = 0 then .zero
  else match exponent with
    | .ofNat exponent =>
      if 1100 < exponent then .infinity else .ofRatio (coefficient * Nat.pow 2 exponent) 1
    | .negSucc predecessor =>
      let exponent := predecessor + 1
      if Nat.log2 coefficient + 1081 ≤ exponent then .zero
      else .ofRatio coefficient (Nat.pow 2 exponent)

namespace Magnitude

/-- The power of ten of the first significant digit of a positive finite number. -/
def leadingExponent (magnitude : Magnitude) : Int :=
  let whole := magnitude.units / unitsPerOne
  if 0 < whole then (Nat.toDigits 10 whole).length - 1
  else
    let reciprocal := (unitsPerOne + magnitude.units - 1) / magnitude.units
    Int.negOfNat (Nat.toDigits 10 (reciprocal - 1)).length

/-- The value as a number of steps of a power of ten: a quotient of natural numbers. -/
def stepsOf (magnitude : Magnitude) : Int → Nat × Nat
  | .ofNat exponent => (magnitude.units, unitsPerOne * Nat.pow 10 exponent)
  | .negSucc predecessor => (magnitude.units * Nat.pow 10 (predecessor + 1), unitsPerOne)

/-- Of the two decimals of a given number of digits around a number, the one that reads back, or
the nearer one if both do. -/
def decimalOf? (magnitude : Magnitude) (digitCount : Nat) : Option Decimal :=
  let exponent := magnitude.leadingExponent - digitCount + 1
  let (numerator, denominator) := magnitude.stepsOf exponent
  let lower : Decimal := ⟨numerator / denominator, exponent⟩
  let upper : Decimal := ⟨numerator / denominator + 1, exponent⟩
  match lower.nearest == magnitude, upper.nearest == magnitude with
  | true, true => some ⟨roundDiv numerator denominator, exponent⟩
  | true, false => some lower
  | false, true => some upper
  | false, false => none

/-- The exact value of a finite number. -/
def exactDecimal (magnitude : Magnitude) : Decimal := ⟨magnitude.units * Nat.pow 5 1074, -1074⟩

/-- The decimal with the fewest digits that reads back as the number. -/
def shortestDecimal (magnitude : Magnitude) : Decimal :=
  let found := ((List.range 17).findSome? fun count => magnitude.decimalOf? (count + 1)).getD
    magnitude.exactDecimal
  if found.nearest == magnitude then found else magnitude.exactDecimal

end Magnitude
end GeneticProgram
