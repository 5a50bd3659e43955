import GeneticProgram.Text.Printable

/-!
# Quoted texts

Messages quote the text that they are about.  The quotation mark is a single one unless the text
holds single marks and no double ones; whatever a reader could not see or would misread is escaped.
-/

namespace GeneticProgram.Text

/-- A number in base sixteen, filled up with zeros to a least width. -/
def hexadecimal (width number : Nat) : List Char :=
  (Nat.toDigits 16 number).leftpad width '0'

/-- The mark that encloses a text: a double one only where that saves escaping single ones. -/
def quotationMark (text : List Char) : Char :=
  if text.contains '\x27' && !text.contains '\x22' then '\x22' else '\x27'

/-- One character as it stands between the given marks. -/
def escape (mark character : Char) : List Char :=
  if character = mark || character = '\x5c' then ['\x5c', character]
  else if character = '\n' then ['\x5c', 'n']
  else if character = '\r' then ['\x5c', 'r']
  else if character = '\t' then ['\x5c', 't']
  else if isPrintable character then [character]
  else if character.toNat < 0x100 then '\x5c' :: 'x' :: hexadecimal 2 character.toNat
  else if character.toNat < 0x10000 then '\x5c' :: 'u' :: hexadecimal 4 character.toNat
  else '\x5c' :: 'U' :: hexadecimal 8 character.toNat

/-- A text between quotation marks. -/
def quote (text : List Char) : List Char :=
  let mark := quotationMark text
  mark :: text.flatMap (escape mark) ++ [mark]

/-- A string between quotation marks. -/
def quoted (text : String) : String := String.ofList (quote text.toList)

end GeneticProgram.Text
