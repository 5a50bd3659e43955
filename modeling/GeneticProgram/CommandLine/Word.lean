import GeneticProgram.CommandLine.Switch
import GeneticProgram.Text.Digit

/-!
# Words of a command line

A word of a command line is a plain argument, a switch, a dashed word that is no switch, or the
divider `--`, behind which there are only plain arguments.  A long spelling may be cut short as long
as one spelling fits, and a value may be attached to it by an equals sign.  What follows a short
spelling is attached to it.  Negative numbers and dashed words with a space in them are plain
arguments.
-/

namespace GeneticProgram.CommandLine

/-- A word of a command line. -/
inductive Word
  | argument (text : List Char)
  | divider
  | switch (kind : Switch) (short : Bool) (attached : Option (List Char))
  | unknown (text : List Char)
deriving DecidableEq

/-- A cut spelling that fits several spellings. -/
structure AmbiguousWord where
  /-- The word as given. -/
  text : List Char
  /-- The spellings that fit. -/
  candidates : List String
deriving DecidableEq

/-- The text of the divider. -/
def dividerText : List Char := ['-', '-']

/-- Cut a text at the first equals sign. -/
def cutAtEquals (text : List Char) : List Char × Option (List Char) :=
  match text.dropWhile (· != '=') with
  | [] => (text, none)
  | _ :: value => (text.takeWhile (· != '='), some value)

/-- One digit or more, and nothing else. -/
def isDigits (text : List Char) : Bool :=
  !text.isEmpty && text.all fun character => (Text.decimalDigit? character).isSome

/-- The digits of a negative number, with or without a fraction. -/
def isUnsignedNumber (text : List Char) : Bool :=
  match text.dropWhile fun character => (Text.decimalDigit? character).isSome with
  | [] => !text.isEmpty
  | '.' :: fraction => isDigits fraction
  | _ => false

/-- A dashed word is a negative number; one line break at its end does not count. -/
def isNegativeNumber (text : List Char) : Bool :=
  match (if text.getLast? = some '\n' then text.dropLast else text) with
  | '-' :: number => isUnsignedNumber number
  | _ => false

namespace Word

/-- A word that begins with one dash and is no spelling: a short spelling with something attached,
or no switch at all. -/
def ofShort? : List Char → Option Word
  | dash :: letter :: attached =>
    (Switch.ofSpelling? [dash, letter]).map fun kind => .switch kind true (some attached)
  | _ => none

/-- A word that begins with two dashes and is no spelling: a spelling cut short, or no switch at
all. -/
def ofLong? (text : List Char) : Except AmbiguousWord (Option Word) :=
  let (beginning, attached) := cutAtEquals text
  match Switch.completions beginning with
  | [] => .ok none
  | [(_, kind)] => .ok (some (.switch kind false attached))
  | several => .error ⟨text, several.map Prod.fst⟩

/-- A dashed word that is no spelling. -/
def ofDashed (text : List Char) : Except AmbiguousWord Word := do
  let found ← if dividerText.isPrefixOf text then ofLong? text else pure (ofShort? text)
  match found with
  | some word => pure word
  | none =>
    if isNegativeNumber text || text.contains ' ' then pure (.argument text)
    else pure (.unknown text)

/-- The spelling has one dash only. -/
def isShort (spelling : List Char) : Bool := !dividerText.isPrefixOf spelling

/-- The switch that a text spells out, with a value behind an equals sign if there is one. -/
def ofSpelling? (text : List Char) : Option Word :=
  match Switch.ofSpelling? text with
  | some kind => some (.switch kind (isShort text) none)
  | none =>
    match cutAtEquals text with
    | (_, none) => none
    | (spelling, some value) =>
      (Switch.ofSpelling? spelling).map fun kind => .switch kind (isShort spelling) (some value)

/-- A word before the divider. -/
def classify (text : List Char) : Except AmbiguousWord Word :=
  match text with
  | '-' :: _ :: _ =>
    match ofSpelling? text with
    | some word => .ok word
    | none => ofDashed text
  | _ => .ok (.argument text)

/-- The words of a command line. -/
def classifyAll : List (List Char) → Except AmbiguousWord (List Word)
  | [] => .ok []
  | text :: rest =>
    if text = dividerText then .ok (.divider :: rest.map .argument)
    else do
      let word ← classify text
      let words ← classifyAll rest
      pure (word :: words)

end Word
end GeneticProgram.CommandLine
