import GeneticProgram.Tree.Basic

/-!
# Verification

A tree is checked against the arities of its symbols and against limits on its depth and on the
number of its nodes.  The result is the list of violations: first the nodes with holes, in
depth-first order, then the depth, then the number of nodes.
-/

namespace GeneticProgram

/-- What a verified tree must not have. -/
inductive Violation
  | missing (name : String) (arity : Nat) (slots : List Nat)
  | tooDeep (depth : Nat) (limit : Int)
  | tooLarge (count : Nat) (limit : Int)
deriving DecidableEq

namespace Violation

/-- Numbers between brackets, separated by commas. -/
def numbersText (numbers : List Nat) : String :=
  "[" ++ ", ".intercalate (numbers.map toString) ++ "]"

/-- The wording of a violation. -/
def message : Violation → String
  | .missing name arity slots =>
    s!"{name} expects {arity} arguments, missing slots " ++ numbersText slots
  | .tooDeep depth limit => s!"Tree depth {depth} exceeds maximum allowed depth {limit}"
  | .tooLarge count limit => s!"Tree has {count} nodes, exceeds maximum allowed {limit}"

/-- The wording of the refusal of something that is not a tree. -/
def notATree : String := "Tree root must be a Node"

end Violation

namespace Tree

/-- The numbers of the slots that are holes, counted from the given one on. -/
def holesFrom (slot : Nat) : List Tree → List Nat
  | [] => []
  | child :: rest =>
    if child.isHole then slot :: holesFrom (slot + 1) rest else holesFrom (slot + 1) rest

/-- The nodes that have holes. -/
def arityViolations (tree : Tree) : List Violation :=
  tree.visits.filterMap fun visit =>
    let slots := holesFrom 0 visit.children
    if slots.isEmpty then none
    else some (.missing visit.symbol.identifier visit.symbol.arity slots)

/-- The depth is at most a limit. -/
def depthViolations (tree : Tree) (limit : Int) : List Violation :=
  if limit < (tree.depth : Int) then [.tooDeep tree.depth limit] else []

/-- The number of nodes is at most a limit. -/
def countViolations (tree : Tree) (limit : Int) : List Violation :=
  if limit < (tree.nodeCount : Int) then [.tooLarge tree.nodeCount limit] else []

/-- All violations of a tree. -/
def verify (tree : Tree) (maxDepth maxNodes : Int) : List Violation :=
  tree.arityViolations ++ tree.depthViolations maxDepth ++ tree.countViolations maxNodes

end Tree
end GeneticProgram
