import GeneticProgram.Numeral.Basic
import GeneticProgram.Text.Blank
import GeneticProgram.Text.Digit
import GeneticProgram.Text.Quoted

/-!
# Numbers in texts

A text given as a value can stand for a number.  It may be surrounded by white space, use the
decimal digits of any script, and group digits by single underscores.
-/

namespace GeneticProgram.Reading

/-- Remove the underscores, each of which has to stand between two digits. -/
def dropUnderscores? (afterDigit : Bool) : List Char → Option (List Char)
  | [] => some []
  | '_' :: next :: rest =>
    if afterDigit && next.isDigit then (dropUnderscores? true rest).map (next :: ·) else none
  | ['_'] => none
  | character :: rest => (dropUnderscores? character.isDigit rest).map (character :: ·)

/-- A text without surrounding white space and with plain digits. -/
def normalize (text : List Char) : List Char :=
  (Text.trimWhere Text.isNumberBlank text).map Text.plainDigit

/-- An unsigned number: a decimal numeral or, in any case, one of the words for infinity and for
what is not a number. -/
def unsigned? (text : List Char) : Option Numeral :=
  let lowered := text.map Char.toLower
  if lowered = "inf".toList || lowered = "infinity".toList then some .infinity
  else if lowered = "nan".toList then some .nan
  else Numeral.decimal? text

/-- The double that a text stands for. -/
def double? (text : List Char) : Option Double := do
  let plain ← dropUnderscores? false (normalize text)
  let (negative, body) := Numeral.splitSign plain
  (unsigned? body).map (Numeral.toDouble negative)

/-- Why a text is not read as an integer. -/
inductive IntegerError
  | invalid (text : List Char)
  | tooLong (digits : Nat)
deriving DecidableEq

/-- The most digits that an integer may have. -/
def digitLimit : Nat := 4300

/-- The wording of a refusal. -/
def IntegerError.message : IntegerError → String
  | .invalid text =>
    "invalid literal for int() with base 10: " ++ String.ofList ((Text.quote text).take 200)
  | .tooLong digits =>
    s!"Exceeds the limit ({digitLimit} digits) for integer string conversion: value has " ++
      s!"{digits} digits; use sys.set_int_max_str_digits() to increase the limit"

/-- The integer that a text stands for. -/
def integer (text : List Char) : Except IntegerError Int :=
  let (negative, body) := Numeral.splitSign (normalize text)
  let leading := (body.takeWhile fun character => character.isDigit || character == '_').countP
    Char.isDigit
  if digitLimit < leading then .error (.tooLong leading)
  else match dropUnderscores? false body with
    | none => .error (.invalid text)
    | some digits =>
      if digits.isEmpty || !digits.all Char.isDigit then .error (.invalid text)
      else
        let value : Int := Numeral.valueOfDigits 10 digits
        .ok (if negative then -value else value)

end GeneticProgram.Reading
