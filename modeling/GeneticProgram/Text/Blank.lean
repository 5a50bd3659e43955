import GeneticProgram.Text.Range

/-!
# White space

The characters that may surround a program or an argument list without being part of it.
-/

namespace GeneticProgram.Text

/-- The code points that count as white space: the separators and the control characters that
move the print position or separate records. -/
def blankRanges : List (Nat × Nat) :=
  [(0x09, 0x0D), (0x1C, 0x20), (0x85, 0x85), (0xA0, 0xA0), (0x1680, 0x1680), (0x2000, 0x200A),
    (0x2028, 0x2029), (0x202F, 0x202F), (0x205F, 0x205F), (0x3000, 0x3000)]

/-- White space. -/
def isBlank (character : Char) : Bool := inRanges blankRanges character

/-- Remove white space from both ends. -/
def trim (text : List Char) : List Char := trimWhere isBlank text

/-- The characters up to the space, the ones that may surround a numeric literal. -/
def isControlOrSpace (character : Char) : Bool := character.toNat ≤ 0x20

/-- White space around a number that is given as a text value: unlike `isBlank` it leaves out the
four information separators. -/
def isNumberBlank (character : Char) : Bool :=
  isBlank character && !inRanges [(0x1C, 0x1F)] character

end GeneticProgram.Text
