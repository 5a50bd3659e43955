/-!
# Character ranges

A property of characters is given as a list of inclusive ranges of code points.
-/

namespace GeneticProgram.Text

/-- The character's code point lies in one of the inclusive ranges. -/
def inRanges (ranges : List (Nat × Nat)) (character : Char) : Bool :=
  ranges.any fun range => range.1 ≤ character.toNat && character.toNat ≤ range.2

/-- Remove the characters with a property from both ends of a text. -/
def trimWhere (drops : Char → Bool) (text : List Char) : List Char :=
  ((text.dropWhile drops).reverse.dropWhile drops).reverse

end GeneticProgram.Text
