import GeneticProgram.Double.Arithmetic
import GeneticProgram.Value

/-!
# Operators

The built-in functions that compute a value from the values of all their arguments.  The
connectives work on truth and always give a truth value.  The numeric functions work on doubles:
they read nothing as `nan`, whereas the comparisons and the factorial refuse it.
-/

namespace GeneticProgram

/-- A connective of two truth values. -/
inductive Connective
  | and
  | iff
  | implies
  | nand
  | nor
  | or
  | xor
deriving DecidableEq

namespace Connective

/-- Every connective once. -/
def all : List Connective := [.and, .iff, .implies, .nand, .nor, .or, .xor]

/-- The name of a connective in programs. -/
def identifier : Connective → String
  | .and => "AND"
  | .iff => "IFF"
  | .implies => "IMPLIES"
  | .nand => "NAND"
  | .nor => "NOR"
  | .or => "OR"
  | .xor => "XOR"

/-- The truth table. -/
def holds : Connective → Bool → Bool → Bool
  | .and, left, right => left && right
  | .iff, left, right => left == right
  | .implies, left, right => !left || right
  | .nand, left, right => !(left && right)
  | .nor, left, right => !(left || right)
  | .or, left, right => left || right
  | .xor, left, right => left != right

end Connective

/-- A numeric function of one argument. -/
inductive UnaryFunction
  | abs
  | acos
  | asin
  | atan
  | cosec
  | cos
  | cot
  | cube
  | exp
  | cosh
  | sinh
  | tanh
  | inv
  | log10
  | ln
  | sec
  | sgn
  | sin
  | square
  | sqrt
  | tan
deriving DecidableEq

namespace UnaryFunction

/-- Every numeric function of one argument once. -/
def all : List UnaryFunction :=
  [.abs, .acos, .asin, .atan, .cosec, .cos, .cot, .cube, .exp, .cosh, .sinh, .tanh, .inv, .log10,
    .ln, .sec, .sgn, .sin, .square, .sqrt, .tan]

/-- The name of a function in programs. -/
def identifier : UnaryFunction → String
  | .abs => "ABS"
  | .acos => "ACOS"
  | .asin => "ASIN"
  | .atan => "ATAN"
  | .cosec => "COSEC"
  | .cos => "COS"
  | .cot => "COT"
  | .cube => "CUBE"
  | .exp => "EXP"
  | .cosh => "COSH"
  | .sinh => "SINH"
  | .tanh => "TANH"
  | .inv => "INV"
  | .log10 => "LOG-10"
  | .ln => "LN"
  | .sec => "SEC"
  | .sgn => "SGN"
  | .sin => "SIN"
  | .square => "SQUARE"
  | .sqrt => "SQRT"
  | .tan => "TAN"

/-- The value of a function. -/
def apply : UnaryFunction → Double → Double
  | .abs, x => x.abs
  | .acos, x => x.acos
  | .asin, x => x.asin
  | .atan, x => x.atan
  | .cosec, x => Double.one.div x.sin
  | .cos, x => x.cos
  | .cot, x => Double.one.div x.tan
  | .cube, x => (x.mul x).mul x
  | .exp, x => x.exp
  | .cosh, x => x.cosh
  | .sinh, x => x.sinh
  | .tanh, x => x.tanh
  | .inv, x => Double.one.div x
  | .log10, x => x.log10
  | .ln, x => x.log
  | .sec, x => Double.one.div x.cos
  | .sgn, x => x.sign
  | .sin, x => x.sin
  | .square, x => x.mul x
  | .sqrt, x => x.sqrt
  | .tan, x => x.tan

/-- The last digits of the function are those of the machine. -/
def isTranscendental : UnaryFunction → Bool
  | .abs | .cube | .inv | .sgn | .square | .sqrt => false
  | _ => true

end UnaryFunction

/-- A numeric function of two arguments. -/
inductive BinaryFunction
  | add
  | max
  | min
  | mod
  | mul
  | pow
  | pdiv
  | sub
deriving DecidableEq

namespace BinaryFunction

/-- Every numeric function of two arguments once. -/
def all : List BinaryFunction := [.add, .max, .min, .mod, .mul, .pow, .pdiv, .sub]

/-- The name of a function in programs. -/
def identifier : BinaryFunction → String
  | .add => "ADD"
  | .max => "MAX"
  | .min => "MIN"
  | .mod => "MOD"
  | .mul => "MUL"
  | .pow => "POW"
  | .pdiv => "PDIV"
  | .sub => "SUB"

/-- The value of a function. -/
def apply : BinaryFunction → Double → Double → Double
  | .add, x, y => x.add y
  | .max, x, y => x.max y
  | .min, x, y => x.min y
  | .mod, x, y => x.protectedMod y
  | .mul, x, y => x.mul y
  | .pow, x, y => x.pow y
  | .pdiv, x, y => x.protectedDiv y
  | .sub, x, y => x.sub y

end BinaryFunction

/-- A comparison of two numbers. -/
inductive Comparison
  | greater
  | less
deriving DecidableEq

namespace Comparison

/-- Every comparison once. -/
def all : List Comparison := [.greater, .less]

/-- The name of a comparison in programs. -/
def identifier : Comparison → String
  | .greater => "GT"
  | .less => "LT"

/-- The outcome of a comparison. -/
def holds : Comparison → Double → Double → Bool
  | .greater, x, y => y.lt x
  | .less, x, y => x.lt y

end Comparison

/-- A built-in function that first evaluates all of its arguments. -/
inductive Operator
  | negation
  | connective (kind : Connective)
  | unary (kind : UnaryFunction)
  | binary (kind : BinaryFunction)
  | comparison (kind : Comparison)
  | factorial
  | scaledPower
deriving DecidableEq

namespace Operator

/-- Every operator once. -/
def all : List Operator :=
  [.negation] ++ Connective.all.map .connective ++ UnaryFunction.all.map .unary ++
    BinaryFunction.all.map .binary ++ Comparison.all.map .comparison ++ [.factorial, .scaledPower]

/-- The name of an operator in programs. -/
def identifier : Operator → String
  | .negation => "NOT"
  | .connective kind => kind.identifier
  | .unary kind => kind.identifier
  | .binary kind => kind.identifier
  | .comparison kind => kind.identifier
  | .factorial => "FACTORIAL"
  | .scaledPower => "CVP"

/-- The number of arguments of an operator. -/
def arity : Operator → Nat
  | .negation => 1
  | .connective _ => 2
  | .unary _ => 1
  | .binary _ => 2
  | .comparison _ => 2
  | .factorial => 1
  | .scaledPower => 3

/-- The value of an operator.  Arguments are converted from left to right, and the first failure
is the failure of the whole.  Of a wrong number of arguments nothing is made. -/
def apply : Operator → List Value → Except ConversionError Value
  | .negation, [x] => .ok (.boolean (!x.truth))
  | .connective kind, [x, y] => .ok (.boolean (kind.holds x.truth y.truth))
  | .unary kind, [x] => do
    let first ← x.toDoubleOrNaN
    pure (.double (kind.apply first))
  | .binary kind, [x, y] => do
    let first ← x.toDoubleOrNaN
    let second ← y.toDoubleOrNaN
    pure (.double (kind.apply first second))
  | .comparison kind, [x, y] => do
    let first ← x.toDouble
    let second ← y.toDouble
    pure (.boolean (kind.holds first second))
  | .factorial, [x] => do
    let first ← x.toDouble
    pure (.double first.factorial)
  | .scaledPower, [scale, base, exponent] => do
    let first ← scale.toDoubleOrNaN
    let second ← base.toDoubleOrNaN
    let third ← exponent.toDoubleOrNaN
    pure (.double (first.mul (second.pow third)))
  | _, _ => .ok .nothing

/-- The last digits of the operator are those of the machine. -/
def isTranscendental : Operator → Bool
  | .unary kind => kind.isTranscendental
  | .binary .pow => true
  | .scaledPower => true
  | _ => false

end Operator
end GeneticProgram
