import GeneticProgram.Configuration
import GeneticProgram.Heap
import GeneticProgram.Registry.Builtin
import GeneticProgram.Tree.Evaluation

/-!
# Workspaces

A workspace holds everything that programs are assembled from and run on: a world, a heap of nodes,
the values of variables, registries, readers of programs, configurations and the journal of the log.
Things that can be shared are known by their numbers, so that a change made through one of their
users is seen by all of them.  Every operation gives a new workspace.
-/

namespace GeneticProgram

/-- A configuration.  Its parser settings are shared with the readers made under it. -/
structure Configuration where
  /-- The number of the parser settings. -/
  settings : Nat
  /-- The limits of verification. -/
  limits : Limits
  /-- The threshold of the log. -/
  threshold : LevelSetting

/-- A reader of programs. -/
structure Reader where
  /-- The number of its registry. -/
  registry : Nat
  /-- Its variables. -/
  environment : Environment
  /-- The number of the ant to which programs are bound. -/
  ant : Option Nat
  /-- The number of its settings. -/
  settings : Nat

/-- Why a configuration is refused. -/
inductive ConfigurationError
  | limit (error : LimitError)
  | level (error : LevelError)
deriving DecidableEq

/-- The wording of a refusal. -/
def ConfigurationError.message : ConfigurationError → String
  | .limit error => error.message
  | .level error => error.message

/-- Everything that programs are assembled from and run on. -/
structure Workspace where
  /-- Landscapes and ants. -/
  world : World
  /-- Nodes. -/
  heap : Heap
  /-- The values of the variables, by their keys. -/
  values : List Value
  /-- Registries. -/
  registries : List Registry
  /-- Parser settings. -/
  settings : List ParserSettings
  /-- Readers of programs. -/
  readers : List Reader
  /-- Configurations. -/
  configurations : List Configuration
  /-- The number of the active configuration. -/
  active : Nat
  /-- The log. -/
  journal : Journal

namespace Workspace

/-- A workspace with nothing but a configuration of defaults, which is active. -/
def initial : Workspace where
  world := .empty
  heap := .empty
  values := []
  registries := []
  settings := [{}]
  readers := []
  configurations := [⟨0, {}, .named "INFO"⟩]
  active := 0
  journal := {}

/-- Keep a record in the log. -/
def log (workspace : Workspace) (record : LogRecord) : Workspace :=
  { workspace with journal := workspace.journal.add record }

/-! ## World -/

/-- A new landscape. -/
def newLandscape (workspace : Workspace) (landscape : Landscape) : Workspace × Nat :=
  ({ workspace with world := workspace.world.addLandscape landscape },
    workspace.world.landscapes.length)

/-- A new ant. -/
def newAnt (workspace : Workspace) (ant : Ant) : Workspace × Nat :=
  ({ workspace with world := workspace.world.addAnt ant }, workspace.world.ants.length)

/-! ## Variables -/

/-- A new variable. -/
def newVariable (workspace : Workspace) (name : String) (value : Value) : Workspace × Variable :=
  ({ workspace with values := workspace.values ++ [value] }, ⟨workspace.values.length, name⟩)

/-- New variables in the given order. -/
def newVariables (workspace : Workspace) : List (String × Value) → Workspace × Environment
  | [] => (workspace, [])
  | (name, value) :: rest =>
    let (first, place) := workspace.newVariable name value
    let (last, places) := first.newVariables rest
    (last, place :: places)

/-- Give a variable a value. -/
def assign (workspace : Workspace) (place : Variable) (value : Value) : Workspace :=
  { workspace with values := workspace.values.set place.key value }

/-- The value of a variable. -/
def valueOf (workspace : Workspace) (place : Variable) : Value :=
  workspace.values.getD place.key .nothing

/-! ## Nodes -/

/-- A new node with unfilled slots. -/
def newNode (workspace : Workspace) (symbol : Symbol) : Workspace × Reference :=
  let (heap, reference) := workspace.heap.allocate ⟨symbol, List.replicate symbol.arity none⟩
  ({ workspace with heap }, reference)

/-- Put a tree on the heap. -/
def plant (workspace : Workspace) (tree : Tree) : Workspace × Option Reference :=
  let (heap, reference) := workspace.heap.plant tree
  ({ workspace with heap }, reference)

/-- Copy a node with everything below it. -/
def clone (workspace : Workspace) (reference : Reference) : Workspace × Option Reference :=
  workspace.plant (workspace.heap.tree reference)

/-- Evaluate a tree in the world of the workspace. -/
def evaluateTree (workspace : Workspace) (tree : Tree) :
    Except EvaluationError Value × Workspace :=
  let (outcome, world) := (tree.evaluate workspace.valueOf).on workspace.world
  (outcome, { workspace with world })

/-- Evaluate a tree a number of times, each time in the world that the time before has left. -/
def evaluateRepeatedly (workspace : Workspace) (tree : Tree) :
    Nat → List (Except EvaluationError Value) × Workspace
  | 0 => ([], workspace)
  | times + 1 =>
    let (outcome, next) := workspace.evaluateTree tree
    let (outcomes, last) := next.evaluateRepeatedly tree times
    (outcome :: outcomes, last)

/-- Evaluate a node. -/
def evaluate (workspace : Workspace) (reference : Reference) :
    Except EvaluationError Value × Workspace :=
  workspace.evaluateTree (workspace.heap.tree reference)

/-! ## Registries -/

/-- A new registry, with or without the built-in functions. -/
def newRegistry (workspace : Workspace) (builtin : Bool) : Workspace × Nat :=
  let registry := if builtin then Registry.builtin else .empty
  ({ workspace with registries := workspace.registries ++ [registry] },
    workspace.registries.length)

/-- A registry. -/
def registry (workspace : Workspace) (number : Nat) : Registry :=
  workspace.registries.getD number .empty

/-- Register a function. -/
def register (workspace : Workspace) (number : Nat) (name : String) (factory : Factory) :
    Workspace :=
  let registry := workspace.registry number
  { workspace with
    registries := workspace.registries.set number (registry.register name factory) }.log
    (.registered name (registry.contains name))

/-- Remove a function. -/
def unregister (workspace : Workspace) (number : Nat) (name : String) : Workspace :=
  { workspace with
    registries := workspace.registries.set number ((workspace.registry number).unregister name) }

/-! ## Contexts -/

/-- The context that binds programs to an ant. -/
def contextOf (workspace : Workspace) (ant : Nat) : Context :=
  ⟨ant, match workspace.world.ants[ant]? with
    | some found => found.maxMoves
    | none => 0⟩

/-- Make the symbol of a call. -/
def resolve (workspace : Workspace) (number : Nat) (ant : Option Nat) (name : String) :
    Except ResolveError (Option Symbol) :=
  (workspace.registry number).resolve (ant.map workspace.contextOf) name

/-! ## Readers -/

/-- The settings of a number. -/
def settingsOf (workspace : Workspace) (number : Nat) : ParserSettings :=
  workspace.settings.getD number {}

/-- New parser settings. -/
def newSettings (workspace : Workspace) (settings : ParserSettings) : Workspace × Nat :=
  ({ workspace with settings := workspace.settings ++ [settings] }, workspace.settings.length)

/-- Replace parser settings, unchecked. -/
def tune (workspace : Workspace) (number : Nat) (settings : ParserSettings) : Workspace :=
  { workspace with settings := workspace.settings.set number settings }

/-- A new reader. -/
def newReader (workspace : Workspace) (reader : Reader) : Workspace × Nat :=
  ({ workspace with readers := workspace.readers ++ [reader] }, workspace.readers.length)

/-- Replace a reader. -/
def setReader (workspace : Workspace) (number : Nat) (reader : Reader) : Workspace :=
  { workspace with readers := workspace.readers.set number reader }

/-- What a reader reads. -/
def language (workspace : Workspace) (reader : Reader) : Language :=
  { registry := workspace.registry reader.registry
    environment := reader.environment
    settings := workspace.settingsOf reader.settings }

/-- Read a program and put its tree on the heap.  An ant that is given takes the place of the
reader's own.  Without a source there is no program. -/
def parse (workspace : Workspace) (reader : Reader) (ant : Option Nat) (source : Option String) :
    Except ParseError (Workspace × Option Reference) :=
  match source with
  | none => .ok (workspace, none)
  | some text =>
    match (workspace.language reader).parse ((ant.or reader.ant).map workspace.contextOf) text with
    | .error error => .error error
    | .ok tree => .ok ((workspace.log (.parsed text)).plant tree)

/-! ## Configurations -/

/-- A configuration of a number. -/
def configuration (workspace : Workspace) (number : Nat) : Configuration :=
  workspace.configurations.getD number ⟨0, {}, .named "INFO"⟩

/-- The active configuration. -/
def activeConfiguration (workspace : Workspace) : Configuration :=
  workspace.configuration workspace.active

/-- A new configuration.  The parser settings are checked first, then the limits of verification,
then the threshold. -/
def newConfiguration (workspace : Workspace) (settings : ParserSettings) (limits : Limits)
    (threshold : LevelSetting) : Except ConfigurationError (Workspace × Nat) := do
  let settings ← (ParserSettings.create settings.strict settings.maxDepth).mapError .limit
  let limits ← (Limits.create limits.maxDepth limits.maxNodes).mapError .limit
  let _ ← threshold.resolve.mapError .level
  let (workspace, number) := workspace.newSettings settings
  pure
    ({ workspace with configurations := workspace.configurations ++ [⟨number, limits, threshold⟩] },
      workspace.configurations.length)

/-- Replace a configuration, unchecked. -/
def setConfiguration (workspace : Workspace) (number : Nat) (configuration : Configuration) :
    Workspace :=
  { workspace with configurations := workspace.configurations.set number configuration }

/-- Make a configuration the active one. -/
def activate (workspace : Workspace) (number : Nat) : Workspace :=
  { workspace with active := number }

/-- Set the threshold of the log; without one it is that of the active configuration. -/
def setThreshold (workspace : Workspace) (setting : LevelSetting) :
    Except LevelError (Workspace × Int) := do
  let chosen := if setting = .unset then workspace.activeConfiguration.threshold else setting
  let threshold ← chosen.resolve
  pure ({ workspace with journal := { workspace.journal with threshold } }, threshold)

/-- Verify a tree against the limits of the active configuration. -/
def verify (workspace : Workspace) (maxDepth maxNodes : Option Int) (tree : Tree) :
    Except MissingLimit (List Violation) :=
  workspace.activeConfiguration.limits.verify maxDepth maxNodes tree

end Workspace
end GeneticProgram
