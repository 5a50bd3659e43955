import GeneticProgram.Ant.Basic
import GeneticProgram.Operator

/-!
# Symbols

A symbol is what a node of a program tree is labelled with.  It fixes the name, the number of
arguments and the meaning of the node.  Symbols of an ant carry the number of the ant they act on.
-/

namespace GeneticProgram

/-- A named place for a value.  The key tells places of the same name apart. -/
structure Variable where
  /-- Number of the place in the store of values. -/
  key : Nat
  /-- The name under which programs find the place. -/
  name : String
deriving DecidableEq

namespace Action

/-- Every action once. -/
def all : List Action := [.move, .turnLeft, .turnRight, .skip]

/-- The name of an action in programs. -/
def identifier : Action → String
  | .move => "MOVE"
  | .turnLeft => "TURN-LEFT"
  | .turnRight => "TURN-RIGHT"
  | .skip => "SKIP"

end Action

/-- The label of a node of a program tree. -/
inductive Symbol
  /-- A name with a number of arguments and no meaning. -/
  | node (name : String) (arity : Nat)
  /-- A function name with a number of arguments and no meaning. -/
  | function (name : String) (arity : Nat)
  /-- A name without arguments and without a meaning. -/
  | terminal (name : String)
  /-- A constant under a name of its own. -/
  | literal (value : Value) (name : String)
  /-- A truth value. -/
  | boolean (truth : Bool)
  /-- A number. -/
  | double (number : Double)
  /-- The value of a variable. -/
  | variable (place : Variable)
  /-- A function of the values of all arguments. -/
  | operator (kind : Operator)
  /-- A choice between the second and the third argument by the truth of the first. -/
  | conditional
  /-- All arguments one after another, for their effects. -/
  | sequence (arity : Nat)
  /-- A choice between two arguments by the food in front of an ant. -/
  | foodAhead (ant : Nat)
  /-- An action of an ant. -/
  | action (kind : Action) (ant : Nat)
deriving DecidableEq

namespace Symbol

/-- The name of the symbol. -/
def identifier : Symbol → String
  | .node name _ => name
  | .function name _ => name
  | .terminal name => name
  | .literal _ name => name
  | .boolean truth => if truth then "true" else "false"
  | .double number => number.literalText
  | .variable place => place.name
  | .operator kind => kind.identifier
  | .conditional => "IF"
  | .sequence arity => s!"SEQ{arity}"
  | .foodAhead _ => "IF-FOOD-AHEAD"
  | .action kind _ => kind.identifier

/-- The number of arguments. -/
def arity : Symbol → Nat
  | .node _ arity => arity
  | .function _ arity => arity
  | .operator kind => kind.arity
  | .conditional => 3
  | .sequence arity => arity
  | .foodAhead _ => 2
  | .terminal _ | .literal _ _ | .boolean _ | .double _ | .variable _ | .action _ _ => 0

/-- The symbol has no arguments. -/
def isNullary (symbol : Symbol) : Bool := symbol.arity == 0

/-- The symbol is written without an argument list. -/
def isTerminal : Symbol → Bool
  | .terminal _ | .literal _ _ | .boolean _ | .double _ | .variable _ => true
  | _ => false

/-- The ant on which the symbol acts. -/
def ant? : Symbol → Option Nat
  | .foodAhead ant => some ant
  | .action _ ant => some ant
  | _ => none

/-- The name of the kind of node that the symbol makes. -/
def kindName : Symbol → String
  | .node _ _ => "Node"
  | .function _ _ => "FunctionNode"
  | .terminal _ => "TerminalNode"
  | .literal _ _ => "Literal"
  | .boolean _ => "BooleanLiteral"
  | .double _ => "DoubleLiteral"
  | .variable _ => "Variable"
  | .operator _ => "OperatorFunction"
  | .conditional => "IfFunction"
  | .sequence _ => "SeqFunction"
  | .foodAhead _ => "IfFoodAheadFunction"
  | .action _ _ => "AntAction"

end Symbol
end GeneticProgram
