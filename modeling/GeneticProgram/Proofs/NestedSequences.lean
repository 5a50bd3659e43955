import GeneticProgram.Proofs.ReplacedParts

/-!
# Nested sequences

A nest of sequences has leaves, which are the trees below its sequences that are no sequences
themselves.  Its stages are these leaves from left to right, with a gap for each slot that is empty.
Evaluating a nest is running its stages one after another up to the first failure, so that nothing
of how the nest is built is left but the stages.  Nests with the same stages may therefore stand for
each other in any program.
-/

namespace GeneticProgram

namespace Run

variable {Result Final : Type}

/-- End with nothing unless the run has failed. -/
def dropValue (given : Except EvaluationError Result × World) :
    Except EvaluationError Value × World :=
  proceed (fun _ world => (.ok .nothing, world)) given

/-- What does not look at a value goes on without one alike. -/
theorem proceed_dropValue (next : World → Except EvaluationError Final × World)
    (given : Except EvaluationError Result × World) :
    proceed (fun _ => next) (dropValue given) = proceed (fun _ => next) given :=
  proceed_proceed _ _ given

end Run

/-- One step in the evaluation of a nest of sequences. -/
inductive Stage
  /-- A tree that is no sequence. -/
  | leaf (tree : Tree)
  /-- An empty slot of the named sequence. -/
  | gap (slot : Nat) (name : String)

namespace Tree

/-- The root is a sequence. -/
def isSequence : Tree → Bool
  | .node (.sequence _) _ => true
  | _ => false

theorem exists_of_isSequence {tree : Tree} (nest : tree.isSequence = true) :
    ∃ arity children, tree = .node (.sequence arity) children := by
  cases tree with
  | hole => cases nest
  | node symbol children =>
      cases symbol with
      | sequence arity => exact ⟨arity, children, rfl⟩
      | _ => cases nest

mutual

/-- The stages of a nest of sequences; a tree that is no sequence is a stage by itself. -/
def stages : Tree → List Stage
  | .hole => []
  | .node symbol children =>
    match symbol with
    | .sequence arity => stagesAll symbol.identifier arity 0 children
    | _ => [.leaf (.node symbol children)]

/-- The stages of the children that fill a number of slots, from a slot on. -/
def stagesAll (name : String) : Nat → Nat → List Tree → List Stage
  | 0, _, _ => []
  | _ + 1, slot, [] => [.gap slot name]
  -- No stage behind a gap is run, but it belongs to the nest.
  | count + 1, slot, .hole :: rest => .gap slot name :: stagesAll name count (slot + 1) rest
  | count + 1, slot, child :: rest => child.stages ++ stagesAll name count (slot + 1) rest

end

theorem stagesAll_cons {child : Tree} (present : child.isHole = false) (name : String)
    (count slot : Nat) (rest : List Tree) :
    stagesAll name (count + 1) slot (child :: rest) =
      child.stages ++ stagesAll name count (slot + 1) rest := by
  cases child with
  | hole => cases present
  | node symbol children => rfl

end Tree

namespace Stage

variable {valuation : Variable → Value}

/-- Run one stage: a leaf is evaluated, and a gap is an error. -/
def run (valuation : Variable → Value) : Stage → World → Except EvaluationError Value × World
  | .leaf tree => (tree.evaluate valuation).on
  | .gap slot name => fun world => (.error (.unset slot name), world)

/-- Run stages one after another up to the first failure.  Their values are dropped. -/
def runAll (valuation : Variable → Value) :
    List Stage → World → Except EvaluationError Value × World
  | [], world => (.ok .nothing, world)
  | stage :: rest, world => Run.proceed (fun _ => runAll valuation rest) (stage.run valuation world)

theorem runAll_append (first second : List Stage) (world : World) :
    runAll valuation (first ++ second) world =
      Run.proceed (fun _ => runAll valuation second) (runAll valuation first world) := by
  induction first generalizing world with
  | nil => rfl
  | cons stage rest induction =>
      rw [List.cons_append, runAll, runAll, Run.proceed_proceed]
      exact congrArg (Run.proceed · _) (funext fun _ => funext fun middle => induction middle)

end Stage

namespace Tree

variable {valuation : Variable → Value}

theorem on_evaluate_sequence (arity : Nat) (children : List Tree) (world : World) :
    ((node (.sequence arity) children).evaluate valuation).on world =
      Run.dropValue
        ((evaluateAll valuation (Symbol.sequence arity).identifier arity 0 children).on world) := by
  rw [evaluate, Run.on_bind_eq_proceed]
  rfl

mutual

/-- Running the stages of a tree is evaluating the tree for its effects. -/
theorem runAll_stages (tree : Tree) (world : World) :
    Stage.runAll valuation tree.stages world =
      Run.dropValue ((tree.evaluate valuation).on world) := by
  match tree with
  | .hole => rfl
  | .node symbol children =>
      cases symbol with
      | sequence arity =>
          rw [stages, on_evaluate_sequence, runAll_stagesAll]
          exact (Run.proceed_dropValue _ _).symm
      | _ => rfl

theorem runAll_stagesAll (name : String) (count slot : Nat) (children : List Tree) (world : World) :
    Stage.runAll valuation (stagesAll name count slot children) world =
      Run.dropValue ((evaluateAll valuation name count slot children).on world) := by
  match count, children with
  | 0, _ =>
      rw [stagesAll, evaluateAll]
      rfl
  | _ + 1, [] => rfl
  | _ + 1, .hole :: _ => rfl
  | count + 1, .node symbol below :: rest =>
      rw [stagesAll_cons rfl, evaluateAll_succ, Stage.runAll_append, runAll_stages,
        Run.proceed_dropValue, Run.on_bind_eq_proceed, Run.dropValue, Run.proceed_proceed]
      refine congrArg (Run.proceed · _) (funext fun value => funext fun middle => ?_)
      rw [runAll_stagesAll, Run.on_bind_eq_proceed, Run.proceed_proceed]
      rfl

end

/-- Evaluating a nest of sequences is running its stages. -/
theorem on_evaluate_nest (arity : Nat) (children : List Tree) (world : World) :
    ((node (.sequence arity) children).evaluate valuation).on world =
      Stage.runAll valuation (node (.sequence arity) children).stages world := by
  rw [on_evaluate_sequence, stages, runAll_stagesAll]

mutual

/-- No leaf of a nest is a hole or a sequence. -/
theorem leaf_of_mem_stages {tree leaf : Tree} (member : .leaf leaf ∈ tree.stages) :
    leaf.isHole = false ∧ leaf.isSequence = false := by
  match tree with
  | .hole => cases member
  | .node symbol children =>
      cases symbol with
      | sequence arity => exact leaf_of_mem_stagesAll member
      | _ =>
          cases List.mem_singleton.mp member
          exact ⟨rfl, rfl⟩

theorem leaf_of_mem_stagesAll {name : String} {count slot : Nat} {children : List Tree}
    {leaf : Tree} (member : .leaf leaf ∈ stagesAll name count slot children) :
    leaf.isHole = false ∧ leaf.isSequence = false := by
  match count, children with
  | 0, _ =>
      rw [stagesAll] at member
      cases member
  | _ + 1, [] => cases List.mem_singleton.mp member
  | count + 1, .hole :: rest =>
      rw [stagesAll] at member
      rcases List.mem_cons.mp member with impossible | later
      · cases impossible
      · exact leaf_of_mem_stagesAll later
  | count + 1, .node symbol below :: rest =>
      rw [stagesAll_cons rfl] at member
      rcases List.mem_append.mp member with here | later
      · exact leaf_of_mem_stages here
      · exact leaf_of_mem_stagesAll later

end

/-- Two nests of sequences with the same stages. -/
structure SameNest (first second : Tree) : Prop where
  /-- The first is a nest. -/
  left : first.isSequence = true
  /-- The second is a nest. -/
  right : second.isSequence = true
  /-- What is left of the two is the same. -/
  stages : first.stages = second.stages

/-- Nests with the same stages may stand for each other. -/
theorem SameNest.interchangeable {first second : Tree} (same : SameNest first second)
    (valuation : Variable → Value) : Interchangeable valuation first second := by
  obtain ⟨arity, children, rfl⟩ := exists_of_isSequence same.left
  obtain ⟨other, others, rfl⟩ := exists_of_isSequence same.right
  refine ⟨rfl, fun world => ?_⟩
  rw [on_evaluate_nest, on_evaluate_nest, same.stages]

/-- The stages of a sequence without empty slots are those of its children. -/
theorem stages_sequence {arity : Nat} {children : List Tree} (filled : children.length = arity)
    (present : ∀ child ∈ children, child.isHole = false) :
    (node (.sequence arity) children).stages = children.flatMap stages := by
  subst filled
  suffices shifted : ∀ slot name, stagesAll name children.length slot children =
      children.flatMap stages from shifted 0 _
  induction children with
  | nil =>
      intro slot name
      rw [List.length_nil, stagesAll]
      rfl
  | cons child rest induction =>
      obtain ⟨here, later⟩ := List.forall_mem_cons.mp present
      intro slot name
      rw [List.length_cons, stagesAll_cons here, induction later, List.flatMap_cons]

/-- The three ways to put three trees in a sequence have the same stages. -/
theorem sameNest_of_three {first second third : Tree}
    (present : ∀ child ∈ [first, second, third], child.isHole = false) :
    let pair := fun left right => node (.sequence 2) [left, right]
    let flat := node (.sequence 3) [first, second, third]
    SameNest (pair first (pair second third)) flat ∧
      SameNest (pair (pair first second) third) flat := by
  intro pair flat
  have flat_stages : flat.stages = [first, second, third].flatMap stages :=
    stages_sequence rfl present
  have pair_stages : ∀ {left right : Tree}, left.isHole = false → right.isHole = false →
      (pair left right).stages = left.stages ++ right.stages := by
    intro left right left_present right_present
    have both : ∀ child ∈ [left, right], child.isHole = false := by
      simp [left_present, right_present]
    simpa using stages_sequence rfl both
  simp only [List.forall_mem_cons] at present
  obtain ⟨here, next, last, -⟩ := present
  refine ⟨⟨rfl, rfl, ?_⟩, ⟨rfl, rfl, ?_⟩⟩
  · rw [pair_stages here rfl, pair_stages next last, flat_stages]
    simp
  · rw [pair_stages rfl last, pair_stages here next, flat_stages]
    simp

/-- A nest of sequences is evaluated as its leaves are, one after another from left to right up to
the first that fails, whose error is that of the nest; if none fails the nest gives nothing.  No
leaf is a sequence or a hole.  Nests with the same leaves may stand for each other at any places of
a program, as the three ways to put three trees in a sequence do. -/
theorem nested_sequences_flatten (valuation : Variable → Value) :
    (∀ (arity : Nat) (children : List Tree) (world : World),
        ((node (.sequence arity) children).evaluate valuation).on world =
          Stage.runAll valuation (node (.sequence arity) children).stages world) ∧
      (∀ nest leaf : Tree, .leaf leaf ∈ nest.stages →
        leaf.isHole = false ∧ leaf.isSequence = false) ∧
      (∀ (program : Tree) (change second : List Nat → Option Tree),
        (∀ path, Option.Rel SameNest (change path) (second path)) → ∀ world,
          ((program.replace change).evaluate valuation).on world =
            ((program.replace second).evaluate valuation).on world) ∧
      ∀ first second third : Tree,
        (∀ child ∈ [first, second, third], child.isHole = false) →
          let pair := fun left right => node (.sequence 2) [left, right]
          let flat := node (.sequence 3) [first, second, third]
          SameNest (pair first (pair second third)) flat ∧
            SameNest (pair (pair first second) third) flat := by
  refine ⟨on_evaluate_nest, fun _ _ => leaf_of_mem_stages, fun program change second same => ?_,
    fun _ _ _ => sameNest_of_three⟩
  have alike : ∀ path, Option.Rel (Interchangeable valuation) (change path) (second path) := by
    intro path
    match change path, second path, same path with
    | _, _, .none => exact .none
    | _, _, .some nests => exact .some (nests.interchangeable valuation)
  exact (Interchangeable.replace alike program).agree

/-- Two nests below a condition fail alike at a hole in their second leaf, after the first leaf has
moved the ant. -/
theorem nested_sequences_flatten_below_condition :
    let landscape : Landscape := ⟨4, 1, [⟨1, 0⟩], by decide, by decide, by decide, by decide⟩
    let world : World := ⟨[landscape], [⟨0, 9, ⟨0, 0⟩, .east, 0, 0⟩]⟩
    let act := fun kind => leaf (.action kind 0)
    let stride := node (.foodAhead 0) [act .move, .hole]
    let pair := fun left right => node (.sequence 2) [left, right]
    let program := node .conditional [leaf (.boolean true), .hole, .hole]
    let filling := fun nest path => if path = [1] then some nest else none
    let nested := program.replace (filling (pair stride (pair stride (act .turnLeft))))
    let flat := program.replace (filling (node (.sequence 3) [stride, stride, act .turnLeft]))
    (nested.evaluate fun _ => .nothing).on world = (flat.evaluate fun _ => .nothing).on world ∧
      (nested.evaluate fun _ => .nothing).on world =
        (.error (.unset 1 "IF-FOOD-AHEAD"), world.act 0 .move) := by
  intro landscape world act stride pair program filling nested flat
  obtain ⟨-, -, interchange, three⟩ := nested_sequences_flatten fun _ => .nothing
  have same := (three stride stride (act .turnLeft) (by decide)).1
  refine ⟨interchange program _ _ (fun path => ?_) world, rfl⟩
  by_cases here : path = [1]
  · simp only [filling, if_pos here]
    exact .some same
  · simp only [filling, if_neg here]
    exact .none

end Tree
end GeneticProgram
