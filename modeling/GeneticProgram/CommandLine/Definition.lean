import GeneticProgram.Numeral.Literal
import GeneticProgram.Value

/-!
# Values on the command line

A variable is defined by its name, an equals sign and a boolean or numeric literal.  A limit is a
positive integer.
-/

namespace GeneticProgram.CommandLine

/-- A variable with its value. -/
structure Definition where
  /-- The name of the variable. -/
  name : String
  /-- The value of the variable. -/
  value : Value
deriving DecidableEq

/-- Why a text defines no variable. -/
inductive DefinitionError
  | malformed (text : List Char)
  | invalidValue (name text : List Char)
deriving DecidableEq

/-- The wording of a refusal. -/
def DefinitionError.message : DefinitionError → String
  | .malformed text => "Expected NAME=VALUE, got " ++ String.ofList (Text.quote text)
  | .invalidValue name text =>
    "Invalid value for variable " ++ String.ofList name ++ ": " ++ String.ofList (Text.quote text)

namespace Definition

/-- The value that a literal stands for. -/
def value? (text : List Char) : Option Value :=
  match Literal.boolean? text with
  | some truth => some (.boolean truth)
  | none => (Literal.double? text).map .double

/-- Read the definition of a variable; the first equals sign ends its name. -/
def read (text : List Char) : Except DefinitionError Definition :=
  match text.takeWhile (· != '='), text.dropWhile (· != '=') with
  | _, [] | [], _ => .error (.malformed text)
  | name, _ :: literal =>
    match value? literal with
    | some value => .ok ⟨String.ofList name, value⟩
    | none => .error (.invalidValue name literal)

end Definition

/-- Why a text is no positive integer. -/
inductive PositiveError
  | notInteger (error : Reading.IntegerError)
  | notPositive (text : List Char)
deriving DecidableEq

/-- The wording of a refusal. -/
def PositiveError.message : PositiveError → String
  | .notInteger error => error.message
  | .notPositive text => "Expected a positive integer, got " ++ String.ofList (Text.quote text)

/-- Read a positive integer. -/
def positive (text : List Char) : Except PositiveError Int :=
  match Reading.integer text with
  | .error error => .error (.notInteger error)
  | .ok value => if value < 1 then .error (.notPositive text) else .ok value

end GeneticProgram.CommandLine
