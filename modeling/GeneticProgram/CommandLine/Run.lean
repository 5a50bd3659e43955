import GeneticProgram.CommandLine.BlankVariable
import GeneticProgram.CommandLine.Report
import GeneticProgram.CommandLine.Request
import GeneticProgram.CommandLine.Usage
import GeneticProgram.Workspace

/-!
# Running the command line

A run ends with a status, an output and diagnostics: status 0 if all went well or help was asked
for, 1 if the program cannot be read or evaluated, 2 if the command line is refused.  Some faults
are not handled; then the run has no status.
-/

namespace GeneticProgram.CommandLine

/-- What a run does not handle. -/
inductive Fault
  /-- The landscape has no cells. -/
  | landscape (error : LandscapeError)
  /-- The size of the landscape was set without a number. -/
  | blankSize
  /-- The greatest depth was set without a number. -/
  | blankDepth
  /-- The greatest depth is not positive. -/
  | limit (error : LimitError)
  /-- A name was searched for behind a variable that was set without a definition. -/
  | blankVariable
  /-- A function cannot be made. -/
  | function (error : BuildError)
  /-- A number is too large. -/
  | overflow
deriving DecidableEq

/-- The wording of a fault. -/
def Fault.message : Fault → String
  | .landscape error => error.message
  | .blankSize => "'<=' not supported between instances of 'list' and 'int'"
  | .blankDepth => "'<' not supported between instances of 'list' and 'int'"
  | .limit error => error.message
  | .blankVariable => "'list' object has no attribute 'identifier'"
  | .function error => error.message
  | .overflow => ConversionError.tooLarge.message

/-- How a run ends. -/
inductive Outcome
  | finished (status : Nat) (output diagnostics : String)
  | faulted (fault : Fault) (diagnostics : String)
deriving DecidableEq

namespace Options

/-- The width and height of a landscape whose size is not set. -/
def defaultSize : Int := 32

/-- The threshold of the log. -/
def threshold (options : Options) : Int :=
  if options.verbose then Level.debug.number else Level.warning.number

/-- An empty landscape of equal width and height. -/
def emptyLandscape (size : Int) : Except Fault Landscape :=
  (Landscape.create size size []).mapError .landscape

/-- The landscape of the ant, if there is an ant. -/
def landscape (options : Options) : Except Fault (Option Landscape) :=
  if options.ant then
    match options.antSize with
    | .blank => .error .blankSize
    | .absent => (emptyLandscape defaultSize).map some
    | .given size => (emptyLandscape size).map some
  else .ok none

/-- How programs are read. -/
def settings (options : Options) : Except Fault ParserSettings :=
  match options.maxDepth with
  | .blank => .error .blankDepth
  | .absent => (ParserSettings.create options.strict none).mapError .limit
  | .given limit => (ParserSettings.create options.strict (some limit)).mapError .limit

/-- A variable was set without a definition. -/
def hasBlankVariable (options : Options) : Bool := options.definitions.any Option.isNone

/-- The variables that a search can come to: those in front of the first blank one. -/
def reachable (options : Options) : List Definition :=
  (options.definitions.takeWhile Option.isSome).filterMap id

/-- Put an ant on a new landscape. -/
def settle (workspace : Workspace) (landscape : Landscape) : Workspace × Nat :=
  let (workspace, home) := workspace.newLandscape landscape
  workspace.newAnt (.start home landscape Ant.defaultBudget Ant.defaultLocation
    Ant.defaultOrientation)

/-- A workspace with the ant and the variables, and a reader that is bound to them. -/
def prepare (options : Options) : Except Fault (Workspace × Reader) := do
  let landscape ← options.landscape
  let settings ← options.settings
  let workspace := { Workspace.initial with journal := { threshold := options.threshold } }
  let (workspace, ant) := match landscape with
    | none => (workspace, none)
    | some land => (settle workspace land).map id some
  let (workspace, environment) := workspace.newVariables
    (options.reachable.map fun definition => (definition.name, definition.value))
  let (workspace, registry) := workspace.newRegistry true
  let (workspace, number) := workspace.newSettings settings
  pure (workspace, ⟨registry, environment, ant, number⟩)

end Options

/-- The log as lines of text. -/
def logText (time : String) (workspace : Workspace) : String :=
  String.join (workspace.journal.records.map fun record => record.line time)

/-- The end of a run that reports an error. -/
def failed (log message : String) : Outcome := .finished 1 "" (log ++ s!"Error: {message}\n")

/-- The end of a run that reports on a program. -/
def reported (options : Options) (log : String) (tree : Tree) (value : Option Value) : Outcome :=
  let report := Report.ofTree tree value
  .finished 0 (if options.json then report.object else report.plain) log

/-- Report on a program that has been read, and evaluate it if that is asked for. -/
def conclude (options : Options) (log : String) (workspace : Workspace) (tree : Tree) : Outcome :=
  if options.evaluate then
    match (workspace.evaluateTree tree).1 with
    | .ok value => reported options log tree (some value)
    | .error (.conversion .tooLarge) => .faulted .overflow log
    | .error error => failed log s!"evaluation failed: {error.message}"
  else reported options log tree none

/-- Do what is asked for; the time stands in the log. -/
def Request.run (request : Request) (time : String) : Outcome :=
  match request.options.prepare with
  | .error fault => .faulted fault ""
  | .ok (workspace, reader) =>
    let source := String.ofList request.expression
    let language := workspace.language reader
    let context := reader.ant.map workspace.contextOf
    if request.options.hasBlankVariable && language.searchesAll context source then
      .faulted .blankVariable ""
    else
      match language.parse context source with
      | .error (.resolve (.build error)) => .faulted (.function error) ""
      | .error error => failed "" error.message
      | .ok tree =>
        let workspace := workspace.log (.parsed source)
        conclude request.options (logText time workspace) workspace tree

/-- Run a command line; the time stands in the log. -/
def run (time : String) (arguments : List String) : Outcome :=
  match Request.read arguments with
  | .error .help => .finished 0 helpText ""
  | .error (.usage error) =>
    .finished 2 "" (usageText ++ s!"{programName}: error: {error.message}\n")
  | .ok request => request.run time

end GeneticProgram.CommandLine
