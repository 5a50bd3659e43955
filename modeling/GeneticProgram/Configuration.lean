import GeneticProgram.Logging
import GeneticProgram.Parser
import GeneticProgram.Tree.Verification

/-!
# Configuration

The settings of a parser, the limits of verification and the threshold of the log.  Limits are
positive when a section is made; a later change is not checked.
-/

namespace GeneticProgram

/-- A limit that is not positive. -/
structure LimitError where
  /-- The name of the limit. -/
  field : String
  /-- What was given. -/
  value : Int
deriving DecidableEq

/-- The wording of a refusal. -/
def LimitError.message (error : LimitError) : String :=
  s!"{error.field} must be a positive integer, got {error.value}"

/-- A limit is absent or positive. -/
def checkLimit (field : String) : Option Int → Except LimitError Unit
  | none => .ok ()
  | some value => if value < 1 then .error ⟨field, value⟩ else .ok ()

/-- Settings of a parser with a checked limit. -/
def ParserSettings.create (strict : Bool) (maxDepth : Option Int) :
    Except LimitError ParserSettings := do
  checkLimit "max_depth" maxDepth
  pure { strict, maxDepth }

/-- The limits of verification. -/
structure Limits where
  /-- The greatest depth of a tree. -/
  maxDepth : Option Int := some 32
  /-- The greatest number of nodes of a tree. -/
  maxNodes : Option Int := some 1000
deriving DecidableEq

/-- A tree is to be compared with a limit that is absent. -/
structure MissingLimit where
deriving DecidableEq

/-- The wording of a refusal. -/
def MissingLimit.message (_ : MissingLimit) : String :=
  "'>' not supported between instances of 'int' and 'NoneType'"

namespace Limits

/-- Checked limits. -/
def create (maxDepth maxNodes : Option Int) : Except LimitError Limits := do
  checkLimit "max_depth" maxDepth
  checkLimit "max_nodes" maxNodes
  pure { maxDepth, maxNodes }

/-- The violations of a tree, given limits taking the place of the configured ones. -/
def verify (limits : Limits) (maxDepth maxNodes : Option Int) (tree : Tree) :
    Except MissingLimit (List Violation) :=
  match maxDepth.or limits.maxDepth, maxNodes.or limits.maxNodes with
  | some depth, some nodes => .ok (tree.verify depth nodes)
  | _, _ => .error {}

end Limits
end GeneticProgram
