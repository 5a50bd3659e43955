import GeneticProgram.Proofs.NodePlan
import Mathlib.Data.List.GetD

/-!
# Parts of a tree and their replacement

A path is the list of slots that lead from the root of a tree to one of its parts.  A change says
which tree, if any, comes to stand at a path, and replacing by a change puts all these trees in
their places at once.  A change inside of a part that is itself replaced has no effect.

Two trees are interchangeable if they evaluate alike, in a slot too, where a hole is an error.
Putting interchangeable trees at the same paths of a program gives programs that evaluate alike.
-/

namespace GeneticProgram

namespace Tree

variable {valuation other : Variable → Value} {world : World}

/-! ## What fills a slot -/

theorem inSlot_of_length_le {children : List Tree} {slot : Nat} (beyond : children.length ≤ slot) :
    inSlot children slot = .hole :=
  List.getD_eq_default children .hole beyond

theorem inSlot_mem {children : List Tree} {slot : Nat} (inside : slot < children.length) :
    inSlot children slot ∈ children := by
  rw [inSlot, List.getD_eq_getElem children .hole inside]
  exact List.getElem_mem inside

theorem lt_length_of_isHole {children : List Tree} {slot : Nat}
    (present : (inSlot children slot).isHole = false) : slot < children.length := by
  by_cases inside : slot < children.length
  · exact inside
  · rw [inSlot_of_length_le (Nat.le_of_not_lt inside)] at present
    cases present

/-- What holds of a hole and is handed on from what fills the slots of a node to the node holds of
every tree. -/
theorem slot_induction {motive : Tree → Prop} (hole : motive .hole)
    (node : ∀ symbol children, (∀ slot, motive (inSlot children slot)) →
      motive (.node symbol children)) (tree : Tree) : motive tree := by
  cases tree with
  | hole => exact hole
  | node symbol children =>
      refine node symbol children fun slot => ?_
      by_cases inside : slot < children.length
      · have listed := inSlot_mem inside
        exact slot_induction hole node (inSlot children slot)
      · rw [inSlot_of_length_le (Nat.le_of_not_lt inside)]
        exact hole
termination_by tree

/-! ## Parts -/

/-- The part of a tree at a path. -/
def part : Tree → List Nat → Tree
  | tree, [] => tree
  | .hole, _ :: _ => .hole
  | .node _ children, slot :: path => (inSlot children slot).part path

@[simp] theorem part_nil (tree : Tree) : tree.part [] = tree := by
  cases tree with
  | hole => rfl
  | node symbol children => rfl

@[simp] theorem part_hole (path : List Nat) : hole.part path = .hole := by
  cases path with
  | nil => rfl
  | cons slot path => rfl

/-- A hole has no node among its parts. -/
theorem isHole_of_part {tree : Tree} {path : List Nat} {symbol : Symbol} {children : List Tree}
    (found : tree.part path = .node symbol children) : tree.isHole = false := by
  cases tree with
  | hole =>
      rw [part_hole] at found
      cases found
  | node symbol children => rfl

/-! ## Replacement -/

mutual

/-- The tree with the trees of a change put in their places. -/
def replace (change : List Nat → Option Tree) : Tree → Tree
  | .hole => (change []).getD .hole
  | .node symbol children => (change []).getD (.node symbol (replaceFrom change 0 children))

/-- What fills the slots of a node from one on after a change. -/
def replaceFrom (change : List Nat → Option Tree) (slot : Nat) : List Tree → List Tree
  | [] => []
  | child :: rest =>
    child.replace (fun path => change (slot :: path)) :: replaceFrom change (slot + 1) rest

end

variable {change : List Nat → Option Tree}

theorem replace_of_root {tree new : Tree} (changed : change [] = some new) :
    tree.replace change = new := by
  cases tree with
  | hole => rw [replace, changed, Option.getD_some]
  | node symbol children => rw [replace, changed, Option.getD_some]

theorem replace_hole (kept : change [] = none) : hole.replace change = .hole := by
  rw [replace, kept, Option.getD_none]

theorem replace_node (kept : change [] = none) (symbol : Symbol) (children : List Tree) :
    (node symbol children).replace change = .node symbol (replaceFrom change 0 children) := by
  rw [replace, kept, Option.getD_none]

theorem isHole_replace (kept : change [] = none) (tree : Tree) :
    (tree.replace change).isHole = tree.isHole := by
  cases tree with
  | hole => rw [replace_hole kept]
  | node symbol children =>
      rw [replace_node kept]
      rfl

/-- A change of a node reaches what fills a slot as the rest of the change that starts with the
slot. -/
theorem inSlot_replaceFrom (change : List Nat → Option Tree) {children : List Tree} {slot : Nat}
    (inside : slot < children.length) :
    inSlot (replaceFrom change 0 children) slot =
      (inSlot children slot).replace fun path => change (slot :: path) := by
  suffices shifted : ∀ first, inSlot (replaceFrom change first children) slot =
      (inSlot children slot).replace fun path => change ((first + slot) :: path) by
    simpa using shifted 0
  induction children generalizing slot with
  | nil => cases inside
  | cons child rest induction =>
      intro first
      cases slot with
      | zero => rfl
      | succ slot =>
          rw [replaceFrom, inSlot_cons_succ, inSlot_cons_succ,
            induction (Nat.lt_of_succ_lt_succ inside) (first + 1), Nat.add_right_comm]
          rfl

theorem length_replaceFrom (change : List Nat → Option Tree) (slot : Nat) (children : List Tree) :
    (replaceFrom change slot children).length = children.length := by
  induction children generalizing slot with
  | nil => rfl
  | cons child rest induction => exact congrArg (· + 1) (induction (slot + 1))

/-- A change fills no slot that is not there. -/
theorem inSlot_replaceFrom_beyond (change : List Nat → Option Tree) {children : List Tree}
    {slot : Nat} (beyond : children.length ≤ slot) :
    inSlot (replaceFrom change 0 children) slot = .hole :=
  inSlot_of_length_le ((length_replaceFrom change 0 children).symm ▸ beyond)

/-- A change of nothing leaves the tree as it is. -/
theorem replace_none (tree : Tree) : tree.replace (fun _ => none) = tree := by
  cases tree with
  | hole => rfl
  | node symbol children =>
      have below : ∀ (trees : List Tree) (slot : Nat), (∀ child ∈ trees, child ∈ children) →
          replaceFrom (fun _ => none) slot trees = trees := by
        intro trees
        induction trees with
        | nil => exact fun _ _ => rfl
        | cons child rest induction =>
            intro slot listed
            obtain ⟨first, later⟩ := List.forall_mem_cons.mp listed
            rw [replaceFrom, replace_none child, induction (slot + 1) later]
      rw [replace_node rfl, below children 0 fun _ member => member]
termination_by tree

/-! ## Interchangeable trees -/

/-- Trees that are holes or not alike and evaluate alike are asked for alike. -/
theorem on_ask_congr {first second : Tree} (present : first.isHole = second.isHole)
    (agree : (first.evaluate other).on world = (second.evaluate valuation).on world)
    (name : String) (slot : Nat) :
    (first.ask other name slot).on world = (second.ask valuation name slot).on world := by
  cases first with
  | hole =>
      cases second with
      | hole => rfl
      | node symbol children => cases present
  | node symbol children =>
      cases second with
      | hole => cases present
      | node symbol children => exact agree

/-- Each of two trees may stand for the other in every world. -/
structure Interchangeable (valuation : Variable → Value) (first second : Tree) : Prop where
  /-- A hole stands for a hole only. -/
  present : first.isHole = second.isHole
  /-- The two evaluate alike. -/
  agree : ∀ world, (first.evaluate valuation).on world = (second.evaluate valuation).on world

theorem Interchangeable.refl (valuation : Variable → Value) (tree : Tree) :
    Interchangeable valuation tree tree :=
  ⟨rfl, fun _ => rfl⟩

/-- Changes that put interchangeable trees at the same paths give interchangeable programs. -/
theorem Interchangeable.replace {change second : List Nat → Option Tree}
    (alike : ∀ path, Option.Rel (Interchangeable valuation) (change path) (second path))
    (program : Tree) :
    Interchangeable valuation (program.replace change) (program.replace second) := by
  induction program using slot_induction generalizing change second with
  | hole =>
      rw [Tree.replace, Tree.replace]
      match change [], second [], alike [] with
      | _, _, .none => exact .refl valuation .hole
      | _, _, .some here => exact here
  | node symbol children induction =>
      rw [Tree.replace, Tree.replace]
      match change [], second [], alike [] with
      | _, _, .some here => exact here
      | _, _, .none =>
          refine ⟨rfl, fun world => ?_⟩
          change ((node symbol _).evaluate valuation).on world =
            ((node symbol _).evaluate valuation).on world
          rw [on_evaluate_node, on_evaluate_node]
          refine Plan.run_congr _ fun request _ => ?_
          by_cases inside : request.1 < children.length
          · have below := induction request.1 fun path => alike (request.1 :: path)
            rw [slots, slots, inSlot_replaceFrom change inside, inSlot_replaceFrom second inside]
            exact on_ask_congr below.present (below.agree request.2) _ _
          · rw [slots, slots, inSlot_replaceFrom_beyond change (Nat.le_of_not_lt inside),
              inSlot_replaceFrom_beyond second (Nat.le_of_not_lt inside)]

end Tree
end GeneticProgram
