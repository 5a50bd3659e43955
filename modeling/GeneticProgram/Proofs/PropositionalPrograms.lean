import GeneticProgram.Proofs.CompleteTree
import GeneticProgram.Proofs.NodePlan

/-!
# Propositional programs

A program of connectives, negations, conditions, constants and variables is a formula of
propositional logic, whose atoms are the variables.  Values of any kind pass through it, and what a
condition gives need not be a truth value.  Still the truth of what the program gives is the
classical truth of the formula where each variable has the truth of its value.  Below a connective
or a negation nothing is left of the values but their truth.
-/

namespace GeneticProgram

/-- What a connective says of two propositions. -/
def Connective.Says : Connective → Prop → Prop → Prop
  | .and, left, right => left ∧ right
  | .iff, left, right => (left ↔ right)
  | .implies, left, right => left → right
  | .nand, left, right => ¬ (left ∧ right)
  | .nor, left, right => ¬ (left ∨ right)
  | .or, left, right => left ∨ right
  | .xor, left, right => left ∧ ¬ right ∨ ¬ left ∧ right

/-- The truth table of a connective is that of what it says. -/
theorem Connective.holds_iff (kind : Connective) (left right : Bool) :
    kind.holds left right = true ↔ kind.Says (left = true) (right = true) := by
  cases kind <;> cases left <;> cases right <;> simp [holds, Says]

theorem Connective.says_congr (kind : Connective) {left right left' right' : Prop}
    (first : left ↔ left') (second : right ↔ right') :
    kind.Says left right ↔ kind.Says left' right' := by
  rw [first, second]

namespace Symbol

/-- The symbol is a connective or the negation. -/
def isOperation : Symbol → Bool
  | .operator .negation | .operator (.connective _) => true
  | _ => false

/-- The symbol is one of propositional logic. -/
def isPropositional : Symbol → Bool
  | .literal _ _ | .boolean _ | .double _ | .variable _ | .conditional => true
  | symbol => symbol.isOperation

end Symbol

namespace Tree

variable {valuation other : Variable → Value}

/-- The root is a connective or the negation. -/
def isOperation : Tree → Bool
  | .hole => false
  | .node symbol _ => symbol.isOperation

/-- The classical truth of a formula under a truth of its variables. -/
def Holds (truth : Variable → Prop) : Tree → Prop
  | .node (.operator .negation) [inner] => ¬ inner.Holds truth
  | .node (.operator (.connective kind)) [left, right] =>
    kind.Says (left.Holds truth) (right.Holds truth)
  | .node .conditional [condition, first, second] =>
    condition.Holds truth ∧ first.Holds truth ∨ ¬ condition.Holds truth ∧ second.Holds truth
  | .node (.variable place) _ => truth place
  | .node (.literal value _) _ => value.truth = true
  | .node (.boolean known) _ => known = true
  | .node (.double number) _ => number.isZero = false
  | _ => False

/-- The trees of propositional logic: constants and variables, and negations, connectives and
conditions on such trees. -/
inductive IsFormula : Tree → Prop
  | literal (value : Value) (name : String) : IsFormula (leaf (.literal value name))
  | boolean (known : Bool) : IsFormula (leaf (.boolean known))
  | double (number : Double) : IsFormula (leaf (.double number))
  | variable (place : Variable) : IsFormula (leaf (.variable place))
  | negation {inner : Tree} (formula : IsFormula inner) :
      IsFormula (.node (.operator .negation) [inner])
  | connective (kind : Connective) {left right : Tree} (first : IsFormula left)
      (second : IsFormula right) : IsFormula (.node (.operator (.connective kind)) [left, right])
  | conditional {condition first second : Tree} (chosen : IsFormula condition)
      (left : IsFormula first) (right : IsFormula second) :
      IsFormula (.node .conditional [condition, first, second])

/-- A complete tree of symbols of propositional logic is a formula. -/
theorem Complete.isFormula {tree : Tree} (complete : tree.Complete)
    (propositional : ∀ symbol ∈ tree.symbols, symbol.isPropositional = true) : tree.IsFormula := by
  induction complete with
  | @node symbol children filled below induction =>
      obtain ⟨own, others⟩ := forall_symbols_node_iff.mp propositional
      have inside : ∀ child ∈ children, child.IsFormula :=
        fun child member => induction child member (others child member)
      match symbol, children, filled, inside with
      | .operator .negation, [inner], _, inside => exact .negation (inside inner (by simp))
      | .operator (.connective kind), [left, right], _, inside =>
          exact .connective kind (inside left (by simp)) (inside right (by simp))
      | .conditional, [condition, first, second], _, inside =>
          exact .conditional (inside condition (by simp)) (inside first (by simp))
            (inside second (by simp))
      | .literal value name, [], _, _ => exact .literal value name
      | .boolean known, [], _, _ => exact .boolean known
      | .double number, [], _, _ => exact .double number
      | .variable place, [], _, _ => exact .variable place

/-! ## The value of a formula -/

/-- The tree evaluates to the value in every world and leaves the world as it is. -/
structure Gives (valuation : Variable → Value) (tree : Tree) (value : Value) : Prop where
  /-- The tree is no hole. -/
  present : tree.isHole = false
  /-- The tree evaluates to the value. -/
  evaluates : ∀ world, (tree.evaluate valuation).on world = (.ok value, world)

theorem Gives.ask {tree : Tree} {value : Value} (gives : Gives valuation tree value)
    (name : String) (slot : Nat) (world : World) :
    (tree.ask valuation name slot).on world = (.ok value, world) := by
  cases tree with
  | hole => cases gives.present
  | node symbol children => exact gives.evaluates world

theorem Gives.negation {inner : Tree} {value : Value} (gives : Gives valuation inner value) :
    Gives valuation (.node (.operator .negation) [inner]) (.boolean (!value.truth)) := by
  refine ⟨rfl, fun world => ?_⟩
  rw [on_evaluate_node]
  simp only [Symbol.plan, Operator.arity, Plan.gather, Plan.run, slots, inSlot_cons_zero,
    gives.ask, Run.proceed_value]
  rfl

theorem Gives.connective {left right : Tree} {first second : Value}
    (gives_left : Gives valuation left first) (gives_right : Gives valuation right second)
    (kind : Connective) :
    Gives valuation (.node (.operator (.connective kind)) [left, right])
      (.boolean (kind.holds first.truth second.truth)) := by
  refine ⟨rfl, fun world => ?_⟩
  rw [on_evaluate_node]
  simp only [Symbol.plan, Operator.arity, Plan.gather, Plan.run, slots, inSlot_cons_zero,
    inSlot_cons_succ, gives_left.ask, gives_right.ask, Run.proceed_value]
  rfl

theorem Gives.conditional {condition first second : Tree} {chosen left right : Value}
    (gives : Gives valuation condition chosen) (gives_first : Gives valuation first left)
    (gives_second : Gives valuation second right) :
    Gives valuation (.node .conditional [condition, first, second])
      (if chosen.truth then left else right) := by
  refine ⟨rfl, fun world => ?_⟩
  rw [on_evaluate_node, Symbol.plan, Plan.run, slots, inSlot_cons_zero, gives.ask,
    Run.proceed_value]
  split
  · exact (Plan.run_answer 1).trans (gives_first.ask _ _ world)
  · exact (Plan.run_answer 2).trans (gives_second.ask _ _ world)

/-- A formula always has a value, and its truth is the classical one.  A connective or a negation
gives a truth value. -/
theorem IsFormula.gives {tree : Tree} (formula : tree.IsFormula) (valuation : Variable → Value) :
    ∃ value, Gives valuation tree value ∧
      (value.truth = true ↔ tree.Holds fun place => (valuation place).truth = true) ∧
      (tree.isOperation = true → ∃ truth, value = .boolean truth) := by
  induction formula with
  | literal value name => exact ⟨value, ⟨rfl, fun _ => rfl⟩, Iff.rfl, nofun⟩
  | boolean known => exact ⟨.boolean known, ⟨rfl, fun _ => rfl⟩, Iff.rfl, nofun⟩
  | double number =>
      refine ⟨.double number, ⟨rfl, fun _ => rfl⟩, ?_, nofun⟩
      rw [leaf, Holds, Value.truth, Bool.not_eq_true']
  | «variable» place => exact ⟨valuation place, ⟨rfl, fun _ => rfl⟩, Iff.rfl, nofun⟩
  | negation formula induction =>
      obtain ⟨value, gives, truth, -⟩ := induction
      refine ⟨_, gives.negation, ?_, fun _ => ⟨_, rfl⟩⟩
      rw [Holds, ← truth]
      simp [Value.truth]
  | connective kind first second induction_left induction_right =>
      obtain ⟨left, gives_left, truth_left, -⟩ := induction_left
      obtain ⟨right, gives_right, truth_right, -⟩ := induction_right
      refine ⟨_, gives_left.connective gives_right kind, ?_, fun _ => ⟨_, rfl⟩⟩
      rw [Holds, ← kind.says_congr truth_left truth_right]
      exact kind.holds_iff left.truth right.truth
  | conditional chosen left right induction induction_left induction_right =>
      obtain ⟨value, gives, truth, -⟩ := induction
      obtain ⟨first, gives_first, truth_first, -⟩ := induction_left
      obtain ⟨second, gives_second, truth_second, -⟩ := induction_right
      refine ⟨_, gives.conditional gives_first gives_second, ?_, nofun⟩
      rw [Holds, ← truth, ← truth_first, ← truth_second]
      cases value.truth <;> simp

/-- The truth of a formula depends on the truth of its variables only. -/
theorem IsFormula.holds_congr {tree : Tree} (formula : tree.IsFormula)
    {truth other : Variable → Prop}
    (agree : ∀ place, .variable place ∈ tree.symbols → (truth place ↔ other place)) :
    tree.Holds truth ↔ tree.Holds other := by
  induction formula with
  | literal value name => exact Iff.rfl
  | boolean known => exact Iff.rfl
  | double number => exact Iff.rfl
  | «variable» place => exact agree place List.mem_cons_self
  | negation formula induction =>
      rw [Holds, Holds, induction fun place member => agree place (by simp [symbols_node, member])]
  | connective kind first second induction_left induction_right =>
      rw [Holds, Holds]
      exact kind.says_congr
        (induction_left fun place member => agree place (by simp [symbols_node, member]))
        (induction_right fun place member => agree place (by simp [symbols_node, member]))
  | conditional chosen left right induction induction_left induction_right =>
      rw [Holds, Holds, induction fun place member => agree place (by simp [symbols_node, member]),
        induction_left fun place member => agree place (by simp [symbols_node, member]),
        induction_right fun place member => agree place (by simp [symbols_node, member])]

/-- Two operations of the same truth give the same truth value. -/
theorem IsFormula.on_evaluate_eq {first second : Tree} (formula : first.IsFormula)
    (operation : first.isOperation = true) (formula' : second.IsFormula)
    (operation' : second.isOperation = true) {valuation other : Variable → Value}
    (same : (first.Holds fun place => (valuation place).truth = true) ↔
      second.Holds fun place => (other place).truth = true) (world : World) :
    (first.evaluate valuation).on world = (second.evaluate other).on world := by
  obtain ⟨_, gives, holds, boolean⟩ := formula.gives valuation
  obtain ⟨_, gives', holds', boolean'⟩ := formula'.gives other
  obtain ⟨truth, rfl⟩ := boolean operation
  obtain ⟨truth', rfl⟩ := boolean' operation'
  have equal : truth = truth' := Bool.eq_iff_iff.mpr (holds.trans (same.trans holds'.symm))
  rw [gives.evaluates, gives'.evaluates, equal]

/-- Programs of connectives, negations, conditions, constants and variables compute classical
propositional logic on the truth of values.  Such a program never fails and never changes the world;
the truth of what it gives is the classical truth of the formula, and a connective or a negation
gives a truth value.  So below a connective or a negation only the truth of the variables counts,
and equivalent formulas evaluate alike. -/
theorem propositional_programs_are_classical (valuation : Variable → Value) :
    (∀ tree : Tree, tree.Complete → (∀ symbol ∈ tree.symbols, symbol.isPropositional = true) →
        ∃ value, (∀ world, (tree.evaluate valuation).on world = (.ok value, world)) ∧
          (value.truth = true ↔ tree.Holds fun place => (valuation place).truth = true) ∧
          (tree.isOperation = true → value = .boolean true ∨ value = .boolean false)) ∧
      (∀ (tree : Tree) (other : Variable → Value), tree.Complete →
        (∀ symbol ∈ tree.symbols, symbol.isPropositional = true) → tree.isOperation = true →
        (∀ place, .variable place ∈ tree.symbols →
          (other place).truth = (valuation place).truth) →
        ∀ world, (tree.evaluate other).on world = (tree.evaluate valuation).on world) ∧
      ∀ first second : Tree, first.Complete → second.Complete →
        (∀ symbol ∈ first.symbols ++ second.symbols, symbol.isPropositional = true) →
        first.isOperation = true → second.isOperation = true →
        (∀ truth, first.Holds truth ↔ second.Holds truth) →
        ∀ world, (first.evaluate valuation).on world = (second.evaluate valuation).on world := by
  refine ⟨fun tree complete propositional => ?_,
    fun tree other complete propositional operation agree => ?_,
    fun first second complete complete' propositional operation operation' equivalent => ?_⟩
  · obtain ⟨value, gives, holds, boolean⟩ := (complete.isFormula propositional).gives valuation
    refine ⟨value, gives.evaluates, holds, fun operation => ?_⟩
    obtain ⟨truth, rfl⟩ := boolean operation
    cases truth with
    | false => exact .inr rfl
    | true => exact .inl rfl
  · have formula := complete.isFormula propositional
    refine formula.on_evaluate_eq operation formula operation (formula.holds_congr ?_)
    exact fun place member => by rw [agree place member]
  · obtain ⟨own, others⟩ := List.forall_mem_append.mp propositional
    exact (complete.isFormula own).on_evaluate_eq operation (complete'.isFormula others) operation'
      (equivalent _)

/-- Both forms of a negated conjunction are true of a number that is none and a negative zero, and
stay true if an integer and nothing take their places. -/
theorem propositional_programs_are_classical_negated_conjunction :
    let x := leaf (.variable ⟨0, "x"⟩)
    let y := leaf (.variable ⟨1, "y"⟩)
    let choice := node .conditional [x, y, leaf (.literal (.text "") "''")]
    let negation := fun inner => node (.operator .negation) [inner]
    let first := negation (node (.operator (.connective .and)) [choice, x])
    let second := node (.operator (.connective .or)) [negation choice, negation x]
    let valuation : Variable → Value := fun place =>
      .double (if place.key = 0 then .nan else .signed true .zero)
    let other : Variable → Value := fun place => if place.key = 0 then .integer 7 else .nothing
    (choice.evaluate valuation).on .empty = (.ok (.double (.signed true .zero)), .empty) ∧
      (first.evaluate valuation).on .empty = (.ok (.boolean true), .empty) ∧
      (first.evaluate other).on .empty = (first.evaluate valuation).on .empty ∧
      (first.evaluate valuation).on .empty = (second.evaluate valuation).on .empty := by
  intro x y choice negation first second valuation other
  have single : ∀ {symbol : Symbol}, symbol.arity = 0 → (leaf symbol).Complete :=
    fun nullary => .node nullary.symm (by simp)
  have chosen : choice.Complete := .node rfl (by
    simp only [List.forall_mem_cons]
    exact ⟨single rfl, single rfl, single rfl, by simp⟩)
  have negated : ∀ {inner : Tree}, inner.Complete → (negation inner).Complete :=
    fun inside => .node rfl (List.forall_mem_singleton.mpr inside)
  have joined : ∀ {kind : Connective} {left right : Tree}, left.Complete → right.Complete →
      (node (.operator (.connective kind)) [left, right]).Complete := fun left right =>
    .node rfl (List.forall_mem_cons.mpr ⟨left, List.forall_mem_singleton.mpr right⟩)
  have complete : first.Complete := negated (joined chosen (single rfl))
  have complete' : second.Complete := joined (negated chosen) (negated (single rfl))
  obtain ⟨-, truth_counts, equivalent⟩ := propositional_programs_are_classical valuation
  refine ⟨rfl, rfl, truth_counts first other complete (by decide) rfl ?_ .empty,
    equivalent first second complete complete' (by decide) rfl rfl ?_ .empty⟩
  · intro place member
    by_cases zero : place.key = 0
    · simp only [other, valuation, if_pos zero]
      rfl
    · simp only [other, valuation, if_neg zero]
      rfl
  · intro truth
    simp only [first, second, negation, Holds, Connective.Says]
    exact not_and_or

end Tree
end GeneticProgram
