import GeneticProgram.Ant.World
import GeneticProgram.CommandLine.Run
import GeneticProgram.Configuration
import GeneticProgram.Heap
import GeneticProgram.Lifecycle
import GeneticProgram.Main
import GeneticProgram.Parser
import GeneticProgram.Proofs.Announcements
import GeneticProgram.Proofs.Assembly
import GeneticProgram.Proofs.Cloning
import GeneticProgram.Proofs.ClosingModes
import GeneticProgram.Proofs.DepthLimit
import GeneticProgram.Proofs.Derivation
import GeneticProgram.Proofs.EvaluationFailures
import GeneticProgram.Proofs.Foraging
import GeneticProgram.Proofs.MoveBudget
import GeneticProgram.Proofs.NameLocality
import GeneticProgram.Proofs.Rereading
import GeneticProgram.Proofs.WrittenTree
import GeneticProgram.Registry.Builtin
import GeneticProgram.Tree.Evaluation
import GeneticProgram.Tree.Printer
import GeneticProgram.Tree.Verification
import GeneticProgram.Workspace
import GeneticProgram.Proofs.ArgumentDecomposition
import GeneticProgram.Proofs.VisitedPieces
import GeneticProgram.Proofs.ContextBinding
import GeneticProgram.Proofs.SharedVariables
import GeneticProgram.Proofs.AcceptedRequests
import GeneticProgram.Proofs.CommandLineEndings
import GeneticProgram.Proofs.MatchingParenthesis
import GeneticProgram.Proofs.NumeralValue
import GeneticProgram.Proofs.LiteralGrammar
import GeneticProgram.Proofs.NearestDouble
import GeneticProgram.Proofs.LiteralValue
import GeneticProgram.Proofs.PlaneWalk
import GeneticProgram.Proofs.CallComposition
import GeneticProgram.Proofs.NodePlan
import GeneticProgram.Proofs.ReplacedParts
import GeneticProgram.Proofs.UnreachedParts
import GeneticProgram.Proofs.NestedSequences
import GeneticProgram.Proofs.PropositionalPrograms
import GeneticProgram.Proofs.TreePositions
import GeneticProgram.Proofs.NodeEnumeration
import GeneticProgram.Proofs.FoodGrid
import GeneticProgram.Proofs.SourceMeasure
import GeneticProgram.Proofs.VerificationReport
import GeneticProgram.Proofs.FloatingText
import GeneticProgram.Proofs.FactorialRounding
