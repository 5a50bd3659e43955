/-!
# Switches

The switches of the command line, in the order in which they are documented, with their spellings.
Some of them take a value.
-/

namespace GeneticProgram.CommandLine

/-- What can be asked for. -/
inductive Switch
  | help
  | define
  | ant
  | antSize
  | strict
  | maxDepth
  | evaluate
  | json
  | verbose
deriving DecidableEq

namespace Switch

/-- Every switch once. -/
def all : List Switch :=
  [.help, .define, .ant, .antSize, .strict, .maxDepth, .evaluate, .json, .verbose]

/-- How a switch is spelled; a short spelling is one dash and one letter. -/
def spellings : Switch → List String
  | .help => ["-h", "--help"]
  | .define => ["--var"]
  | .ant => ["--ant"]
  | .antSize => ["--ant-size"]
  | .strict => ["--strict"]
  | .maxDepth => ["--max-depth"]
  | .evaluate => ["--evaluate"]
  | .json => ["--json"]
  | .verbose => ["--verbose", "-v"]

/-- A switch in a message. -/
def title (switch : Switch) : String := "/".intercalate switch.spellings

/-- The switch needs a value. -/
def takesValue : Switch → Bool
  | .define | .antSize | .maxDepth => true
  | _ => false

/-- Every spelling with its switch. -/
def table : List (String × Switch) :=
  all.flatMap fun switch => switch.spellings.map fun spelling => (spelling, switch)

/-- The switch of a spelling. -/
def ofSpelling? (spelling : List Char) : Option Switch :=
  (table.find? fun entry => entry.1.toList == spelling).map Prod.snd

/-- The spellings that begin with a text. -/
def completions (beginning : List Char) : List (String × Switch) :=
  table.filter fun entry => beginning.isPrefixOf entry.1.toList

end Switch
end GeneticProgram.CommandLine
