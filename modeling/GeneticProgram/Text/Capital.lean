/-!
# Capital letters

The letters that have a plain Latin capital: the plain small letters, the dotless `i` and the long
`s`.  This is enough to compare a text with a word of plain capitals.
-/

namespace GeneticProgram.Text

/-- The plain Latin capital of a letter that has one; other characters stay as they are. -/
def plainCapital (character : Char) : Char :=
  if character.toNat = 0x131 then 'I'
  else if character.toNat = 0x17F then 'S'
  else character.toUpper

/-- A text in plain capitals. -/
def capitals (text : String) : String := String.ofList (text.toList.map plainCapital)

end GeneticProgram.Text
