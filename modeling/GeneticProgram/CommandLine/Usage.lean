/-!
# Usage of the command line

The texts that say how the program is called.
-/

namespace GeneticProgram.CommandLine

/-- The name of the program. -/
def programName : String := "epox-parse"

/-- How the program is called. -/
def usageText : String :=
  "usage: epox-parse [-h] [--var NAME=VALUE] [--ant] [--ant-size ANT_SIZE]\n" ++
  "                  [--strict] [--max-depth MAX_DEPTH] [--evaluate] [--json]\n" ++
  "                  [--verbose]\n" ++
  "                  expression\n"

/-- How the program is called, and what its arguments mean. -/
def helpText : String :=
  usageText ++
  "\n" ++
  "Parse an Epox program into a node tree\n" ++
  "\n" ++
  "positional arguments:\n" ++
  "  expression            Program source, e.g. 'AND(x, NOT(y))'\n" ++
  "\n" ++
  "options:\n" ++
  "  -h, --help            show this help message and exit\n" ++
  "  --var NAME=VALUE      Make a variable available (repeatable)\n" ++
  "  --ant                 Bind an ant on an empty landscape for ant functions\n" ++
  "  --ant-size ANT_SIZE   Ant landscape width and height\n" ++
  "  --strict              Reject text after the matching closing parenthesis\n" ++
  "  --max-depth MAX_DEPTH\n" ++
  "                        Maximum nesting depth\n" ++
  "  --evaluate            Evaluate the parsed tree\n" ++
  "  --json                Output as JSON\n" ++
  "  --verbose, -v         Verbose output\n"

end GeneticProgram.CommandLine
