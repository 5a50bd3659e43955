import GeneticProgram.Numeral.Basic
import GeneticProgram.Text.Blank

/-!
# Literals

The constants that can be written in a program.  A numeric literal is an optional sign, followed by
`NaN`, `Infinity` or a numeral with an optional type letter, all between control characters and
spaces that do not count.  A boolean literal is `true` or `false` in any case.
-/

namespace GeneticProgram.Literal

/-- A letter that may follow a numeral to name its type. -/
def isTypeLetter (character : Char) : Bool :=
  character == 'f' || character == 'F' || character == 'd' || character == 'D'

/-- Remove one type letter from the end. -/
def dropTypeLetter (text : List Char) : List Char :=
  match text.getLast? with
  | some last => if isTypeLetter last then text.dropLast else text
  | none => text

/-- A numeric literal without its sign. -/
def unsigned? (text : List Char) : Option Numeral :=
  if text = ['N', 'a', 'N'] then some .nan
  else if text = ['I', 'n', 'f', 'i', 'n', 'i', 't', 'y'] then some .infinity
  else Numeral.unsigned? (dropTypeLetter text)

/-- The double that a numeric literal stands for, if the text is one. -/
def double? (text : List Char) : Option Double :=
  let (negative, body) := Numeral.splitSign (Text.trimWhere Text.isControlOrSpace text)
  (unsigned? body).map (Numeral.toDouble negative)

/-- The text is a numeric literal. -/
def isNumeric (text : List Char) : Bool := (double? text).isSome

/-- The truth value that a boolean literal stands for, if the text is one. -/
def boolean? (text : List Char) : Option Bool :=
  let lowered := text.map Char.toLower
  if lowered = ['t', 'r', 'u', 'e'] then some true
  else if lowered = ['f', 'a', 'l', 's', 'e'] then some false
  else none

end GeneticProgram.Literal
