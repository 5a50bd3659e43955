/-!
# Double-precision numbers

The nonnegative double-precision numbers, infinity included, are the consecutive points of one
grid.  Counting them from zero gives each of them a *rank*, and the whole format is that count: the
ranks of one binade run through its `2 ^ 52` significands, and the next rank after the last one of a
binade is the first of the following binade.  Every finite number is a whole number of *units*, the
unit being the least positive number `2 ^ (-1074)`, so that sums, differences and comparisons are
exact integer arithmetic.

A real number given as a quotient is rounded to the nearest rank, a half going to the even one.
-/

namespace GeneticProgram

/-- The quotient rounded to the nearest natural number, a half going to the even neighbour. -/
def roundDiv (numerator denominator : Nat) : Nat :=
  let quotient := numerator / denominator
  let remainder := numerator % denominator
  if 2 * remainder < denominator then quotient
  else if denominator < 2 * remainder then quotient + 1
  else quotient + quotient % 2

/-- A nonnegative double-precision number or infinity, known by its rank. -/
structure Magnitude where
  /-- How many nonnegative numbers of the format lie below this one. -/
  rank : Nat
  /-- Infinity stands behind the last of `2047` binades. -/
  bounded : rank ≤ 2047 * Nat.pow 2 52
deriving DecidableEq

namespace Magnitude

/-- The rank of infinity. -/
def infiniteRank : Nat := 2047 * Nat.pow 2 52

/-- The number of a rank; every rank past the last one is infinity's. -/
def ofRank (rank : Nat) : Magnitude := ⟨min rank (2047 * Nat.pow 2 52), Nat.min_le_right _ _⟩

/-- Zero. -/
def zero : Magnitude := ofRank 0

/-- Infinity. -/
def infinity : Magnitude := ofRank infiniteRank

/-- The number is infinity. -/
def isInfinite (magnitude : Magnitude) : Bool := magnitude.rank == infiniteRank

/-- The number is zero. -/
def isZero (magnitude : Magnitude) : Bool := magnitude.rank == 0

/-- How many units a number is worth.  The first `2 ^ 52` ranks are single units; from there on
each binade doubles the step of the one before. -/
def units (magnitude : Magnitude) : Nat :=
  if magnitude.rank < Nat.pow 2 52 then magnitude.rank
  else
    (Nat.pow 2 52 + magnitude.rank % Nat.pow 2 52) *
      Nat.pow 2 (magnitude.rank / Nat.pow 2 52 - 1)

/-- One, in units. -/
def unitsPerOne : Nat := Nat.pow 2 1074

/-- The exponent of the step between neighbours around a number of units: the least one for which
fifty-three binary digits reach up to the number. -/
def stepExponent (units : Nat) : Nat := Nat.log2 units + 1 - 53

/-- The number nearest to a quotient of units, a half going to the even rank. -/
def round (numerator denominator : Nat) : Magnitude :=
  let step := stepExponent (numerator / denominator)
  ofRank (step * Nat.pow 2 52 + roundDiv numerator (denominator * Nat.pow 2 step))

/-- The number nearest to a quotient. -/
def ofRatio (numerator denominator : Nat) : Magnitude :=
  round (numerator * unitsPerOne) denominator

end Magnitude

/-- A double-precision number: not a number, or a magnitude with a sign, zero having both. -/
inductive Double
  | nan
  | signed (negative : Bool) (magnitude : Magnitude)
deriving DecidableEq

namespace Double

/-- The positive zero. -/
def zero : Double := .signed false .zero

/-- The positive infinity. -/
def infinity : Double := .signed false .infinity

/-- The number of a whole number of units; the flag is the sign of a zero. -/
def ofUnits (units : Int) (negativeZero : Bool) : Double :=
  .signed (units < 0 || units == 0 && negativeZero) (.round units.natAbs 1)

/-- The number nearest to an integer. -/
def ofInt (integer : Int) : Double :=
  .signed (integer < 0) (.ofRatio integer.natAbs 1)

/-- One. -/
def one : Double := ofInt 1

/-- Not a number. -/
def isNaN : Double → Bool
  | .nan => true
  | .signed _ _ => false

/-- One of the two infinities. -/
def isInfinite : Double → Bool
  | .nan => false
  | .signed _ magnitude => magnitude.isInfinite

/-- One of the two zeros. -/
def isZero : Double → Bool
  | .nan => false
  | .signed _ magnitude => magnitude.isZero

/-- Place in the order of the numbers: the rank with the sign, so that both zeros share one. -/
def position? : Double → Option Int
  | .nan => none
  | .signed true magnitude => some (-magnitude.rank)
  | .signed false magnitude => some magnitude.rank

/-- Smaller than; nothing is smaller or greater than what is not a number. -/
def lt (left right : Double) : Bool :=
  match left.position?, right.position? with
  | some first, some second => first < second
  | _, _ => false

/-- Smaller than or equal to. -/
def le (left right : Double) : Bool :=
  match left.position?, right.position? with
  | some first, some second => first ≤ second
  | _, _ => false

/-- The number nearest to an integer, unless it rounds to infinity. -/
def ofInt? (integer : Int) : Option Double :=
  let double := ofInt integer
  if double.isInfinite then none else some double

end Double
end GeneticProgram
