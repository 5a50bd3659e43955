import GeneticProgram.Double.Basic

/-!
# Arithmetic on doubles

The four operations, the remainder and the factorial are exact results rounded once.  Invalid
operations give `nan`, and overflow gives an infinity; nothing fails.  The square root and the
elementary functions are those of the machine, reached through the bit pattern of a number.
-/

namespace GeneticProgram.Double

/-- The number with the opposite sign. -/
def neg : Double → Double
  | .nan => .nan
  | .signed negative magnitude => .signed (!negative) magnitude

/-- The number without its sign. -/
def abs : Double → Double
  | .nan => .nan
  | .signed _ magnitude => .signed false magnitude

/-- The units of a finite magnitude with a sign. -/
def signedUnits (negative : Bool) (magnitude : Magnitude) : Int :=
  if negative then -(magnitude.units : Int) else magnitude.units

/-- The rounded sum.  A sum of zero is negative only if both summands are. -/
def add : Double → Double → Double
  | .signed first left, .signed second right =>
    match left.isInfinite, right.isInfinite with
    | true, true => if first == second then .signed first left else .nan
    | true, false => .signed first left
    | false, true => .signed second right
    | false, false =>
      ofUnits (signedUnits first left + signedUnits second right) (first && second)
  | _, _ => .nan

/-- The rounded difference. -/
def sub (left right : Double) : Double := left.add right.neg

/-- The rounded product. -/
def mul : Double → Double → Double
  | .signed first left, .signed second right =>
    if left.isInfinite && right.isZero || left.isZero && right.isInfinite then .nan
    else if left.isInfinite || right.isInfinite then .signed (first != second) .infinity
    else .signed (first != second) (.round (left.units * right.units) Magnitude.unitsPerOne)
  | _, _ => .nan

/-- The rounded quotient.  A number divided by zero is an infinity. -/
def div : Double → Double → Double
  | .signed first left, .signed second right =>
    if left.isInfinite && right.isInfinite || left.isZero && right.isZero then .nan
    else if left.isInfinite || right.isZero then .signed (first != second) .infinity
    else if right.isInfinite then .signed (first != second) .zero
    else .signed (first != second) (.round (left.units * Magnitude.unitsPerOne) right.units)
  | _, _ => .nan

/-- The remainder of a division that is rounded toward zero; it has the sign of the dividend. -/
def fmod : Double → Double → Double
  | .signed negative left, .signed _ right =>
    if left.isInfinite || right.isZero then .nan
    else if right.isInfinite then .signed negative left
    else .signed negative (.round (left.units % right.units) 1)
  | _, _ => .nan

/-- The sign as a number; the sign of either zero is the positive zero. -/
def sign : Double → Double
  | .nan => .nan
  | .signed negative magnitude =>
    if magnitude.isZero then zero else if negative then one.neg else one

/-- The greater number, or `nan` if one of the two is. -/
def max (left right : Double) : Double :=
  if left.isNaN || right.isNaN then .nan else if right.le left then left else right

/-- The smaller number, or `nan` if one of the two is. -/
def min (left right : Double) : Double :=
  if left.isNaN || right.isNaN then .nan else if left.le right then left else right

/-- The quotient, a zero divisor giving zero. -/
def protectedDiv (left right : Double) : Double :=
  if right.isZero then zero else left.div right

/-- The remainder, a zero divisor giving the dividend. -/
def protectedMod (left right : Double) : Double :=
  if right.isZero then left else left.fmod right

/-- The product of the first natural numbers. -/
def naturalFactorial : Nat → Nat
  | 0 => 1
  | number + 1 => (number + 1) * naturalFactorial number

/-- The factorial of a number rounded to an integer, a half going to the even one.  Negative
numbers count as zero, and from `171` on the factorial is beyond the format. -/
def factorial : Double → Double
  | .nan => .nan
  | .signed negative magnitude =>
    if magnitude.isInfinite then if negative then one else infinity
    else if negative then one
    else
      let number := roundDiv magnitude.units Magnitude.unitsPerOne
      if 170 < number then infinity else ofInt (naturalFactorial number)

/-- The bit pattern: the rank below the sign. -/
def toBits : Double → UInt64
  | .nan => 0x7FF8000000000000
  | .signed negative magnitude =>
    UInt64.ofNat ((if negative then Nat.pow 2 63 else 0) + magnitude.rank)

/-- The number of a bit pattern; the patterns past infinity are not numbers. -/
def ofBits (bits : UInt64) : Double :=
  let rank := bits.toNat % Nat.pow 2 63
  if bounded : rank ≤ 2047 * Nat.pow 2 52 then
    .signed (Nat.pow 2 63 ≤ bits.toNat) ⟨rank, bounded⟩
  else .nan

/-- A machine function as a function of doubles. -/
def machine (function : Float → Float) (double : Double) : Double :=
  ofBits (function (Float.ofBits double.toBits)).toBits

/-- The square root. -/
def sqrt : Double → Double := machine Float.sqrt

/-- The sine of an angle in radians. -/
def sin : Double → Double := machine Float.sin

/-- The cosine of an angle in radians. -/
def cos : Double → Double := machine Float.cos

/-- The tangent of an angle in radians. -/
def tan : Double → Double := machine Float.tan

/-- The angle of a sine. -/
def asin : Double → Double := machine Float.asin

/-- The angle of a cosine. -/
def acos : Double → Double := machine Float.acos

/-- The angle of a tangent. -/
def atan : Double → Double := machine Float.atan

/-- The exponential function. -/
def exp : Double → Double := machine Float.exp

/-- The natural logarithm. -/
def log : Double → Double := machine Float.log

/-- The logarithm to base ten. -/
def log10 : Double → Double := machine Float.log10

/-- The hyperbolic sine. -/
def sinh : Double → Double := machine Float.sinh

/-- The hyperbolic cosine. -/
def cosh : Double → Double := machine Float.cosh

/-- The hyperbolic tangent. -/
def tanh : Double → Double := machine Float.tanh

/-- The power of a base to an exponent. -/
def pow (base exponent : Double) : Double :=
  ofBits (Float.pow (Float.ofBits base.toBits) (Float.ofBits exponent.toBits)).toBits

end GeneticProgram.Double
