import GeneticProgram.Double.Printer
import GeneticProgram.Numeral.Reading

/-!
# Values

What variables hold and programs evaluate to.  Every value has a truth, and most can stand for a
number; a conversion that fails says why.
-/

namespace GeneticProgram

/-- A value of a program. -/
inductive Value
  | nothing
  | boolean (truth : Bool)
  | text (content : String)
  | double (number : Double)
  | integer (number : Int)
deriving DecidableEq

/-- Why a value does not stand for a double. -/
inductive ConversionError
  | notNumeric (content : String)
  | nothing
  | tooLarge
deriving DecidableEq

/-- The wording of a failed conversion. -/
def ConversionError.message : ConversionError → String
  | .notNumeric content => "could not convert string to float: " ++ Text.quoted content
  | .nothing => "float() argument must be a string or a real number, not 'NoneType'"
  | .tooLarge => "int too large to convert to float"

namespace Value

/-- Nothing, false, zero and the empty text are false; all else is true. -/
def truth : Value → Bool
  | .nothing => false
  | .boolean truth => truth
  | .text content => !content.isEmpty
  | .double number => !number.isZero
  | .integer number => number != 0

/-- The double that a value stands for. -/
def toDouble : Value → Except ConversionError Double
  | .nothing => .error .nothing
  | .boolean truth => .ok (if truth then .one else .zero)
  | .text content => (Reading.double? content.toList).elim (.error (.notNumeric content)) .ok
  | .double number => .ok number
  | .integer number => (Double.ofInt? number).elim (.error .tooLarge) .ok

/-- The double that a value stands for, nothing standing for what is not a number. -/
def toDoubleOrNaN : Value → Except ConversionError Double
  | .nothing => .ok .nan
  | value => value.toDouble

end Value
end GeneticProgram
