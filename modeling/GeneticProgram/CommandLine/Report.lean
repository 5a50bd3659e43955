import GeneticProgram.Tree.Printer
import GeneticProgram.Value

/-!
# Reports

What is known of a program, as lines of text or as an object of names and values.
-/

namespace GeneticProgram

/-- The spelling of numbers in objects. -/
def Double.objectSpelling : Double.Spelling := ⟨"NaN", "Infinity"⟩

namespace CommandLine

/-- A character as two halves of sixteen bits if it does not fit into one. -/
def halves (number : Nat) : List Nat :=
  if number < 0x10000 then [number]
  else
    let offset := number - 0x10000
    [0xD800 + offset / 0x400, 0xDC00 + offset % 0x400]

/-- A character between the quotation marks of an object; only visible plain characters stand for
themselves. -/
def objectEscape (character : Char) : List Char :=
  if character = '\x22' || character = '\x5c' then ['\x5c', character]
  else if character = '\n' then ['\x5c', 'n']
  else if character = '\r' then ['\x5c', 'r']
  else if character = '\t' then ['\x5c', 't']
  else if character = '\x08' then ['\x5c', 'b']
  else if character = '\x0c' then ['\x5c', 'f']
  else if 0x20 ≤ character.toNat && character.toNat < 0x7F then [character]
  else (halves character.toNat).flatMap fun half => '\x5c' :: 'u' :: Text.hexadecimal 4 half

/-- A text in an object. -/
def objectText (text : String) : String :=
  String.ofList ('\x22' :: text.toList.flatMap objectEscape ++ ['\x22'])

/-- A value in an object. -/
def objectValue : Value → String
  | .nothing => "null"
  | .boolean truth => if truth then "true" else "false"
  | .text content => objectText content
  | .double number => String.ofList (number.text Double.objectSpelling)
  | .integer number => toString number

/-- A value in a line of text. -/
def plainValue : Value → String
  | .nothing => "None"
  | .boolean truth => if truth then "True" else "False"
  | .text content => content
  | .double number => number.valueText
  | .integer number => toString number

/-- What is known of a program. -/
structure Report where
  /-- The source of its tree. -/
  program : String
  /-- Its depth. -/
  depth : Nat
  /-- The number of its nodes. -/
  nodes : Nat
  /-- Its value, if it was evaluated. -/
  value : Option Value

namespace Report

/-- The report of a tree. -/
def ofTree (tree : Tree) (value : Option Value) : Report :=
  ⟨tree.source, tree.depth, tree.nodeCount, value⟩

/-- The fields of an object. -/
def fields (report : Report) : List (String × String) :=
  [("program", objectText report.program), ("depth", toString report.depth),
    ("nodes", toString report.nodes)] ++
    (report.value.map fun value => ("value", objectValue value)).toList

/-- A report as an object, one field a line. -/
def object (report : Report) : String :=
  let lines := report.fields.map fun field => "  " ++ objectText field.1 ++ ": " ++ field.2
  "\x7b\n" ++ ",\n".intercalate lines ++ "\n\x7d\n"

/-- A report as lines of text. -/
def plain (report : Report) : String :=
  s!"Program: {report.program}\nDepth: {report.depth}\nNodes: {report.nodes}\n" ++
    (match report.value with
      | some value => s!"Value: {plainValue value}\n"
      | none => "")

end Report
end CommandLine
end GeneticProgram
