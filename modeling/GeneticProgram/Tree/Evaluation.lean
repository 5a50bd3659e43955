import GeneticProgram.Ant.World
import GeneticProgram.Tree.Basic

/-!
# Evaluation

Evaluating a tree gives a value or an error and may change the world on the way; what was changed
before an error stays changed.  An operator evaluates all of its arguments from left to right, a
sequence does so for the effects alone, and the two kinds of choice evaluate only the argument they
choose.  A hole is an error once its value is asked for.
-/

namespace GeneticProgram

/-- Why an evaluation fails. -/
inductive EvaluationError
  /-- The slot of the named node is a hole. -/
  | unset (slot : Nat) (name : String)
  /-- A symbol of the named kind has no meaning. -/
  | inert (kind : String)
  /-- An argument does not stand for a number. -/
  | conversion (error : ConversionError)
deriving DecidableEq

/-- The wording of a failure. -/
def EvaluationError.message : EvaluationError → String
  | .unset slot name => s!"Child {slot} of {name} is not set"
  | .inert kind => s!"{kind} does not implement evaluate()"
  | .conversion error => error.message

/-- A computation that acts on the world and may fail; a failure keeps the world as it is then. -/
abbrev Run (Result : Type) := ExceptT EvaluationError (StateM World) Result

namespace Run

/-- Run a computation in a world. -/
def on {Result : Type} (run : Run Result) (world : World) :
    Except EvaluationError Result × World :=
  run world

/-- Fail. -/
def fail {Result : Type} (error : EvaluationError) : Run Result :=
  fun world => (.error error, world)

/-- Take over a conversion, which does not look at the world. -/
def convert {Result : Type} (outcome : Except ConversionError Result) : Run Result :=
  fun world => (outcome.mapError .conversion, world)

/-- Let an ant act. -/
def act (ant : Nat) (action : Action) : Run Value :=
  fun world => (.ok .nothing, world.act ant action)

/-- Look for food in front of an ant. -/
def seesFood (ant : Nat) : Run Bool :=
  fun world => (.ok (world.isFoodAhead ant), world)

end Run

namespace Tree

mutual

/-- The value of a tree under a valuation of the variables. -/
def evaluate (valuation : Variable → Value) : Tree → Run Value
  | .hole => pure .nothing
  | .node symbol children =>
    match symbol with
    | .node _ _ | .function _ _ | .terminal _ => Run.fail (.inert symbol.kindName)
    | .literal value _ => pure value
    | .boolean truth => pure (.boolean truth)
    | .double number => pure (.double number)
    | .variable place => pure (valuation place)
    | .operator kind => do
      let values ← evaluateAll valuation kind.identifier kind.arity 0 children
      Run.convert (kind.apply values)
    | .conditional => do
      let condition ← evaluateChild valuation symbol.identifier 0 0 children
      if condition.truth then evaluateChild valuation symbol.identifier 1 1 children
      else evaluateChild valuation symbol.identifier 2 2 children
    | .sequence arity => do
      let _ ← evaluateAll valuation symbol.identifier arity 0 children
      pure .nothing
    | .foodAhead ant => do
      if ← Run.seesFood ant then evaluateChild valuation symbol.identifier 0 0 children
      else evaluateChild valuation symbol.identifier 1 1 children
    | .action kind ant => Run.act ant kind

/-- The value of the child that stands a number of places further on; its slot and the name of the
parent are for the error message. -/
def evaluateChild (valuation : Variable → Value) (name : String) (slot : Nat) :
    Nat → List Tree → Run Value
  | _, [] => Run.fail (.unset slot name)
  | 0, .hole :: _ => Run.fail (.unset slot name)
  | 0, child :: _ => child.evaluate valuation
  | further + 1, _ :: rest => evaluateChild valuation name slot further rest

/-- The values of the children that fill a number of slots, from a slot on and from left to
right. -/
def evaluateAll (valuation : Variable → Value) (name : String) :
    Nat → Nat → List Tree → Run (List Value)
  | 0, _, _ => pure []
  | _ + 1, slot, [] => Run.fail (.unset slot name)
  | _ + 1, slot, .hole :: _ => Run.fail (.unset slot name)
  | count + 1, slot, child :: rest => do
    let value ← child.evaluate valuation
    let values ← evaluateAll valuation name count (slot + 1) rest
    pure (value :: values)

end

end Tree
end GeneticProgram
