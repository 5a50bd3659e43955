import GeneticProgram.Proofs.ReplacedParts

/-!
# Parts that an evaluation does not reach

An evaluation reaches the part at a path if every node on the way asks for the slot that comes next,
in the world in which its own value is asked for.  A part that is not reached may be replaced by any
tree and a variable that is not read may have any value: the evaluation takes the same course.  The
error of an empty slot arises exactly where an evaluation reaches a hole, and a part that is reached
is needed, for leaving its slot empty is that error.
-/

namespace GeneticProgram

namespace Tree

variable {valuation other : Variable → Value} {world : World}

/-- The evaluation in the world asks for the part at the path. -/
def Reaches (valuation : Variable → Value) : Tree → World → List Nat → Prop
  | _, _, [] => True
  | .hole, _, _ :: _ => False
  | .node symbol children, world, slot :: path =>
    ∃ request ∈ (symbol.plan valuation).requests (slots valuation symbol.identifier children) world,
      request.1 = slot ∧ (inSlot children slot).Reaches valuation request.2 path

/-- The evaluation in the world asks for the value of the variable. -/
def Reads (valuation : Variable → Value) (tree : Tree) (world : World) (place : Variable) : Prop :=
  ∃ path children, tree.Reaches valuation world path ∧
    tree.part path = .node (.variable place) children

instance Reaches.decidable (valuation : Variable → Value) :
    ∀ (tree : Tree) (world : World) (path : List Nat), Decidable (tree.Reaches valuation world path)
  | _, _, [] => .isTrue (by rw [Reaches]; trivial)
  | .hole, _, _ :: _ => .isFalse (by rw [Reaches]; exact id)
  | .node symbol children, world, slot :: path =>
    have (next : World) := Reaches.decidable valuation (inSlot children slot) next path
    inferInstanceAs (Decidable (∃ request ∈ (symbol.plan valuation).requests
      (slots valuation symbol.identifier children) world,
      request.1 = slot ∧ (inSlot children slot).Reaches valuation request.2 path))

@[simp] theorem reaches_nil (tree : Tree) : tree.Reaches valuation world [] := by
  rw [Reaches]
  trivial

/-- What a node asks for reaches as far as it does in the world at that moment. -/
theorem reaches_of_request {symbol : Symbol} {children : List Tree} {request : Nat × World}
    (asked : request ∈
      (symbol.plan valuation).requests (slots valuation symbol.identifier children) world)
    {path : List Nat} (below : (inSlot children request.1).Reaches valuation request.2 path) :
    (node symbol children).Reaches valuation world (request.1 :: path) :=
  ⟨request, asked, rfl, below⟩

/-! ## What is not reached does not matter -/

/-- A change of parts that are not reached and of variables that are not read leaves the evaluation
as it is. -/
theorem on_evaluate_replace (tree : Tree) {change : List Nat → Option Tree}
    (unreached : ∀ path, tree.Reaches valuation world path → change path = none)
    (unread : ∀ place, tree.Reads valuation world place → other place = valuation place) :
    ((tree.replace change).evaluate other).on world = (tree.evaluate valuation).on world := by
  induction tree using slot_induction generalizing change world with
  | hole =>
      rw [replace_hole (unreached [] (reaches_nil _))]
      rfl
  | node symbol children induction =>
      have same_plan : symbol.plan other = symbol.plan valuation := by
        refine Symbol.plan_congr fun place found => unread place ?_
        exact ⟨[], children, reaches_nil _, by rw [part_nil, found]⟩
      rw [replace_node (unreached [] (reaches_nil _)), on_evaluate_node, on_evaluate_node,
        same_plan]
      refine Plan.run_congr _ fun request asked => ?_
      rw [slots, slots]
      by_cases inside : request.1 < children.length
      -- The root of what is asked for is reached, so that a change only touches what is below it.
      · have below : ∀ path, (inSlot children request.1).Reaches valuation request.2 path →
            change (request.1 :: path) = none :=
          fun path reached => unreached _ (reaches_of_request asked reached)
        rw [inSlot_replaceFrom change inside]
        refine on_ask_congr (isHole_replace (below [] (reaches_nil _)) _) ?_ _ _
        refine induction request.1 below ?_
        rintro place ⟨path, leaves, reached, found⟩
        exact unread place ⟨request.1 :: path, leaves, reaches_of_request asked reached, found⟩
      · rw [inSlot_replaceFrom_beyond change (Nat.le_of_not_lt inside),
          inSlot_of_length_le (Nat.le_of_not_lt inside)]
        rfl

/-! ## Where an empty slot is reached -/

/-- The slot of a node of the name is reached at the end of the path and is a hole. -/
structure ReachesHole (valuation : Variable → Value) (tree : Tree) (world : World)
    (path : List Nat) (slot : Nat) (name : String) : Prop where
  /-- The evaluation asks for what fills the slot. -/
  reached : tree.Reaches valuation world (path ++ [slot])
  /-- Nothing fills the slot. -/
  empty : tree.part (path ++ [slot]) = .hole
  /-- The slot is one of a node of the name. -/
  owner : ∃ symbol children, tree.part path = .node symbol children ∧ symbol.identifier = name

theorem ask_eq_unset_iff {tree : Tree} {asker name : String} {place slot : Nat} :
    ((tree.ask valuation asker place).on world).1 = .error (.unset slot name) ↔
      tree = .hole ∧ place = slot ∧ asker = name ∨
        tree.isHole = false ∧
          ((tree.evaluate valuation).on world).1 = .error (.unset slot name) := by
  cases tree with
  | hole => simp [ask, Run.fail, Run.on, isHole]
  | node symbol children => simp [ask, isHole]

/-- An evaluation ends with the error of an empty slot just if it reaches one. -/
theorem evaluate_eq_unset_iff (tree : Tree) (slot : Nat) (name : String) :
    ((tree.evaluate valuation).on world).1 = .error (.unset slot name) ↔
      ∃ path, tree.ReachesHole valuation world path slot name := by
  induction tree using slot_induction generalizing world with
  | hole =>
      refine iff_of_false nofun ?_
      rintro ⟨path, -, -, symbol, children, found, -⟩
      rw [part_hole] at found
      cases found
  | node symbol children induction =>
      rw [on_evaluate_node, Plan.run_eq_error_iff (symbol.plan_avoids_unset slot name)]
      constructor
      · rintro ⟨request, asked, failed⟩
        rcases ask_eq_unset_iff.mp failed with ⟨empty, rfl, rfl⟩ | ⟨-, failed⟩
        · refine ⟨[], ⟨request, asked, rfl, reaches_nil _⟩, ?_, symbol, children, rfl, rfl⟩
          rw [List.nil_append, part, part_nil, empty]
        · obtain ⟨path, reached, empty, owner⟩ := (induction request.1).mp failed
          exact ⟨request.1 :: path, ⟨request, asked, rfl, reached⟩, empty, owner⟩
      · rintro ⟨path, reached, empty, owner⟩
        cases path with
        | nil =>
            obtain ⟨request, asked, rfl, -⟩ := reached
            rw [List.nil_append, part, part_nil] at empty
            obtain ⟨_, _, found, named⟩ := owner
            cases found
            exact ⟨request, asked, ask_eq_unset_iff.mpr (.inl ⟨empty, rfl, named⟩)⟩
        | cons first path =>
            obtain ⟨request, asked, rfl, below⟩ := reached
            have failed := (induction request.1).mpr ⟨path, below, empty, owner⟩
            refine ⟨request, asked, ask_eq_unset_iff.mpr (.inr ⟨?_, failed⟩)⟩
            obtain ⟨_, _, found, -⟩ := owner
            exact isHole_of_part found

/-! ## What is reached is needed -/

/-- The change that empties one slot. -/
def emptying (gone : List Nat) (path : List Nat) : Option Tree :=
  if path = gone then some .hole else none

theorem emptying_cons_ne {slot first : Nat} (differs : slot ≠ first) (gone : List Nat) :
    (fun path => emptying (first :: gone) (slot :: path)) = fun _ => none := by
  funext path
  exact if_neg fun same => differs (List.cons.inj same).1

theorem emptying_cons_self (slot : Nat) (gone : List Nat) :
    (fun path => emptying (slot :: gone) (slot :: path)) = emptying gone := by
  funext path
  simp [emptying]

/-- Emptying a place below one slot of a node leaves the other slots as they are. -/
theorem slots_emptying_ne {children : List Tree} {slot first : Nat} (differs : slot ≠ first)
    (name : String) (gone : List Nat) :
    slots valuation name (replaceFrom (emptying (first :: gone)) 0 children) slot =
      slots valuation name children slot := by
  rw [slots, slots]
  by_cases inside : slot < children.length
  · rw [inSlot_replaceFrom _ inside, emptying_cons_ne differs, replace_none]
  · rw [inSlot_replaceFrom_beyond _ (Nat.le_of_not_lt inside),
      inSlot_of_length_le (Nat.le_of_not_lt inside)]

/-- An evaluation that reaches a slot fails for it once the slot is empty. -/
theorem evaluate_emptying {tree : Tree} {path : List Nat} {slot : Nat} {symbol : Symbol}
    {children : List Tree} (reached : tree.Reaches valuation world (path ++ [slot]))
    (owner : tree.part path = .node symbol children) :
    (((tree.replace (emptying (path ++ [slot]))).evaluate valuation).on world).1 =
      .error (.unset slot symbol.identifier) := by
  induction path generalizing tree world with
  | nil =>
      rw [part_nil] at owner
      subst owner
      obtain ⟨request, asked, rfl, -⟩ := reached
      rw [List.nil_append, replace_node rfl, on_evaluate_node]
      refine symbol.plan_ascends.run_eq_error asked
        (fun _ differs => slots_emptying_ne differs _ _) ?_
      have empty : inSlot (replaceFrom (emptying [request.1]) 0 children) request.1 = .hole := by
        by_cases inside : request.1 < children.length
        · rw [inSlot_replaceFrom _ inside, emptying_cons_self]
          exact replace_of_root rfl
        · exact inSlot_replaceFrom_beyond _ (Nat.le_of_not_lt inside)
      rw [slots, empty]
      rfl
  | cons first path induction =>
      cases tree with
      | hole => cases owner
      | node outer others =>
          obtain ⟨request, asked, rfl, below⟩ := reached
          rw [part] at owner
          have present := isHole_of_part owner
          have failed := induction below owner
          rw [List.cons_append, replace_node rfl, on_evaluate_node]
          refine outer.plan_ascends.run_eq_error asked
            (fun _ differs => slots_emptying_ne differs _ _) ?_
          rw [slots, inSlot_replaceFrom _ (lt_length_of_isHole present), emptying_cons_self]
          refine ask_eq_unset_iff.mpr (.inr ⟨?_, failed⟩)
          rw [isHole_replace (if_neg (by simp)), present]

/-- What an evaluation does not reach has no part in it.  Whatever is put in the place of parts that
are not reached, and whatever is assigned to variables that are not read, the evaluation gives the
same value or the same error and leaves the same world.  It ends with the error of an empty slot
just if it reaches a hole, and the error names the slot and the node.  No part that is reached is
spared: with its slot emptied the evaluation ends with that error. -/
theorem unreached_parts_are_irrelevant (tree : Tree) (valuation : Variable → Value)
    (world : World) :
    (∀ (change : List Nat → Option Tree) (other : Variable → Value),
        (∀ path, tree.Reaches valuation world path → change path = none) →
        (∀ place, tree.Reads valuation world place → other place = valuation place) →
        ((tree.replace change).evaluate other).on world = (tree.evaluate valuation).on world) ∧
      (∀ slot name, ((tree.evaluate valuation).on world).1 = .error (.unset slot name) ↔
        ∃ path, tree.ReachesHole valuation world path slot name) ∧
      (∀ slot name, (EvaluationError.unset slot name).message =
        s!"Child {slot} of {name} is not set") ∧
      ∀ path slot symbol children, tree.Reaches valuation world (path ++ [slot]) →
        tree.part path = .node symbol children →
        (((tree.replace (emptying (path ++ [slot]))).evaluate valuation).on world).1 =
          .error (.unset slot symbol.identifier) :=
  ⟨fun _ _ unreached unread => on_evaluate_replace tree unreached unread,
    evaluate_eq_unset_iff tree, fun _ _ => rfl,
    fun _ _ _ _ reached owner => evaluate_emptying reached owner⟩

/-- In front of food an ant needs neither the hole for the other case nor the variable that the
condition leaves out. -/
theorem unreached_parts_are_irrelevant_before_food :
    let landscape : Landscape := ⟨4, 1, [⟨1, 0⟩], by decide, by decide, by decide, by decide⟩
    let world : World := ⟨[landscape], [⟨0, 9, ⟨0, 0⟩, .east, 0, 0⟩]⟩
    let tree : Tree := .node .conditional [.leaf (.variable ⟨0, "x"⟩),
      .node (.foodAhead 0) [.node (.action .move 0) [], .hole], .leaf (.variable ⟨1, "y"⟩)]
    let valuation : Variable → Value := fun _ => .text "full"
    let other : Variable → Value := fun place =>
      if place = ⟨1, "y"⟩ then .nothing else .text "full"
    let change : List Nat → Option Tree := fun path =>
      if path = [1, 1] then some (.leaf (.terminal "END")) else if path = [2] then some .hole
      else none
    tree.Reaches valuation world [1, 0] ∧ ¬ tree.Reaches valuation world [1, 1] ∧
      ¬ tree.Reaches valuation world [2] ∧
      ((tree.replace change).evaluate other).on world = (tree.evaluate valuation).on world ∧
      (((tree.replace (emptying [1, 0])).evaluate valuation).on world).1 =
        .error (.unset 0 "IF-FOOD-AHEAD") := by
  intro landscape world tree valuation other change
  have acts : tree.Reaches valuation world [1, 0] := by decide
  have spares : ¬ tree.Reaches valuation world [1, 1] := by decide
  have chooses : ¬ tree.Reaches valuation world [2] := by decide
  obtain ⟨irrelevant, -, -, needed⟩ := unreached_parts_are_irrelevant tree valuation world
  refine ⟨acts, spares, chooses, irrelevant change other ?_ ?_, needed [1] 0 _ _ acts rfl⟩
  · intro path reached
    have first : path ≠ [1, 1] := fun same => spares (same ▸ reached)
    have second : path ≠ [2] := fun same => chooses (same ▸ reached)
    exact (if_neg first).trans (if_neg second)
  · rintro place ⟨path, children, reached, found⟩
    refine if_neg fun same => ?_
    subst same
    match path, found with
    | [0], found => cases found
    | [1, 0], found => cases found
    | 1 :: (slot + 1) :: below, found =>
        have present : (inSlot [.hole] slot).isHole = false := isHole_of_part found
        cases slot <;> cases present
    | [2], _ => exact chooses reached

end Tree
end GeneticProgram
