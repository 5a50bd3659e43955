import GeneticProgram.Proofs.Cloning
import GeneticProgram.Proofs.Outcome
import GeneticProgram.Proofs.TreePositions
import Mathlib.Data.List.ReduceOption

/-!
# The enumeration of the nodes below a node

Nodes on a heap may be shared, so that one of them stands at several positions.  Below a grounded
node the positions are the paths through filled slots, and the part of its tree at such a path is
the tree of the node that the path leads to.  The traversal of the tree therefore lists the paths in
lexicographic order, each with the node at its end and the slot of the parent in which it stands.
-/

namespace GeneticProgram

namespace Heap

variable {heap : Heap} {root : Reference}

/-! ## Trees of grounded nodes -/

/-- The tree that fills a slot, or a hole if nothing fills it. -/
def slotTree (heap : Heap) : Option Reference → Tree
  | none => .hole
  | some child => heap.tree child

theorem Grounded.exists_cell (grounded : heap.Grounded root) :
    ∃ cell, heap.cell? root = some cell := by
  cases root with
  | «variable» place => exact ⟨_, rfl⟩
  | cell number =>
      obtain ⟨cell, found, -⟩ := grounded.proper [] number rfl
      exact ⟨cell, found⟩

/-- The tree of a grounded node has its symbol over the trees that fill its slots. -/
theorem Grounded.tree_eq_node (grounded : heap.Grounded root) {cell : Cell}
    (found : heap.cell? root = some cell) :
    heap.tree root = .node cell.symbol (cell.slots.map heap.slotTree) := by
  cases root with
  | «variable» place =>
      obtain rfl := Option.some.inj found
      rw [tree, treeWithin]
      rfl
  | cell number =>
      have present := (List.getElem?_eq_some_iff.mp found).1
      obtain ⟨size, size_eq⟩ := Nat.exists_eq_succ_of_ne_zero (Nat.ne_zero_of_lt present)
      have within := grounded.within
      rw [size_eq] at within
      obtain ⟨same, found_same, -, below⟩ := within
      obtain rfl : cell = same := Option.some.inj (found.symm.trans found_same)
      rw [tree, size_eq, treeWithin, found_same]
      refine congrArg (Tree.node cell.symbol) (List.map_congr_left fun slot listed => ?_)
      cases slot with
      | none =>
          rw [treeWithin]
          rfl
      | some child =>
          -- One step fewer than there are cells is enough below the node.
          exact (treeWithin_eq (below _ listed) (fun _ _ _ => rfl) le_rfl
            (size_eq ▸ Nat.le_succ size)).symm

theorem Grounded.isHole_tree (grounded : heap.Grounded root) :
    (heap.tree root).isHole = false := by
  obtain ⟨cell, found⟩ := grounded.exists_cell
  rw [grounded.tree_eq_node found]
  rfl

theorem inSlot_map_slotTree {cell : Cell} (found : heap.cell? root = some cell) (slot : Nat) :
    Tree.inSlot (cell.slots.map heap.slotTree) slot = heap.slotTree (heap.child? root slot) := by
  rw [Tree.inSlot, List.getD_eq_getElem?_getD, List.getElem?_map, child?, found, Option.bind_some]
  cases cell.slots[slot]? with
  | none => rfl
  | some child => rfl

/-- The part of the tree of a grounded node at a path is the tree of the node to which the path
leads. -/
theorem Grounded.part_tree (grounded : heap.Grounded root) (path : List Nat) :
    (heap.tree root).part path = heap.slotTree (heap.follow root path) := by
  induction path generalizing root with
  | nil => exact Tree.part_nil _
  | cons slot rest induction =>
      obtain ⟨cell, found⟩ := grounded.exists_cell
      rw [grounded.tree_eq_node found, Tree.part, inSlot_map_slotTree found, follow_cons]
      cases filled : heap.child? root slot with
      | none => exact Tree.part_hole rest
      | some child => exact induction (grounded.reached ((follow_singleton slot).trans filled))

/-- A node of the tree stands for a node of the heap. -/
theorem Grounded.exists_of_part (grounded : heap.Grounded root) {path : List Nat}
    {symbol : Symbol} {children : List Tree}
    (met : (heap.tree root).part path = .node symbol children) :
    ∃ node cell, heap.follow root path = some node ∧ heap.cell? node = some cell ∧
      symbol = cell.symbol ∧ children = cell.slots.map heap.slotTree := by
  rw [grounded.part_tree] at met
  cases reached : heap.follow root path with
  | none =>
      rw [reached] at met
      cases met
  | some node =>
      have below := grounded.reached reached
      obtain ⟨cell, found⟩ := below.exists_cell
      rw [reached, slotTree, below.tree_eq_node found, Tree.node.injEq] at met
      exact ⟨node, cell, rfl, found, met.1.symm, met.2.symm⟩

/-! ## Paths -/

/-- All paths from a node through filled slots, in lexicographic order. -/
structure EnumeratesPaths (heap : Heap) (root : Reference) (paths : List (List Nat)) : Prop where
  /-- Every path is less than those behind it. -/
  increasing : paths.Pairwise (· < ·)
  /-- A path is listed exactly if it leads to a node. -/
  complete : ∀ path, path ∈ paths ↔ ∃ node, heap.follow root path = some node

theorem Grounded.enumeratesPaths (grounded : heap.Grounded root) :
    heap.EnumeratesPaths root (heap.tree root).positions where
  increasing := Tree.pairwise_positions _
  complete := by
    intro path
    rw [Tree.mem_positions_iff, grounded.part_tree]
    cases reached : heap.follow root path with
    | none => simp [slotTree, Tree.isHole]
    | some node =>
        exact iff_of_true (grounded.reached reached).isHole_tree ⟨node, rfl⟩

theorem lt_concat (path : List Nat) (slot : Nat) : path < path ++ [slot] := by
  induction path with
  | nil => exact List.nil_lt_cons slot []
  | cons first rest induction => exact List.cons_lt_cons_self.mpr induction

/-- The path to the parent of a node is listed before the path to the node. -/
theorem EnumeratesPaths.exists_earlier {paths : List (List Nat)}
    (enumerates : heap.EnumeratesPaths root paths) {index slot : Nat} {path : List Nat}
    (listed : paths[index]? = some (path ++ [slot])) :
    ∃ earlier < index, paths[earlier]? = some path := by
  obtain ⟨inside, here⟩ := List.getElem?_eq_some_iff.mp listed
  obtain ⟨node, reached⟩ := (enumerates.complete _).mp (List.mem_of_getElem? listed)
  rw [follow_append] at reached
  obtain ⟨parent, reached_parent, -⟩ := Option.bind_eq_some_iff.mp reached
  obtain ⟨earlier, earlier_inside, there⟩ :=
    List.getElem_of_mem ((enumerates.complete path).mpr ⟨parent, reached_parent⟩)
  refine ⟨earlier, ?_, List.getElem?_eq_some_iff.mpr ⟨earlier_inside, there⟩⟩
  by_contra later
  have shorter : paths[earlier] < paths[index] := by
    rw [there, here]
    exact lt_concat path slot
  rcases Nat.eq_or_lt_of_le (Nat.le_of_not_lt later) with rfl | behind
  · exact lt_irrefl _ shorter
  · have longer := List.pairwise_iff_getElem.mp enumerates.increasing index earlier inside
      earlier_inside behind
    exact lt_asymm longer shorter

/-! ## Visits -/

/-- What the traversal shows at the end of a path: the node to which the path leads, in the slot of
its parent, with the trees that fill its own slots. -/
inductive Visited (heap : Heap) (root : Reference) : List Nat → Visit → Prop
  | root {cell : Cell} (found : heap.cell? root = some cell) :
      Visited heap root [] ⟨none, cell.symbol, cell.slots.map heap.slotTree⟩
  | below {path : List Nat} {slot : Nat} {parent node : Reference} {above cell : Cell}
      (reached : heap.follow root path = some parent) (held : heap.cell? parent = some above)
      (filled : heap.child? parent slot = some node) (found : heap.cell? node = some cell) :
      Visited heap root (path ++ [slot])
        ⟨some (above.symbol, slot), cell.symbol, cell.slots.map heap.slotTree⟩

/-- What is met in the tree of a grounded node is visited on the heap. -/
theorem Grounded.visited (grounded : heap.Grounded root) {path : List Nat} {visit : Visit}
    (meets : Tree.Meets none (heap.tree root) path visit) : heap.Visited root path visit := by
  cases meets with
  | root met =>
      obtain ⟨cell, found⟩ := grounded.exists_cell
      rw [grounded.tree_eq_node found, Tree.node.injEq] at met
      obtain ⟨rfl, rfl⟩ := met
      exact .root found
  | @below way slot above symbol siblings children above_met met =>
      obtain ⟨parent, above_cell, reached, held, rfl, -⟩ := grounded.exists_of_part above_met
      obtain ⟨node, cell, reached_node, found, rfl, rfl⟩ := grounded.exists_of_part met
      rw [follow_append, reached, Option.bind_some, follow_singleton] at reached_node
      exact .below reached held reached_node found

theorem Grounded.forall₂_visited (grounded : heap.Grounded root) :
    List.Forall₂ (heap.Visited root) (heap.tree root).positions (heap.tree root).visits :=
  (Tree.forall₂_meets _ none).imp fun _ _ meets => grounded.visited meets

theorem Visited.exists_node {path : List Nat} {visit : Visit}
    (visited : heap.Visited root path visit) :
    ∃ node cell, heap.follow root path = some node ∧ heap.cell? node = some cell ∧
      visit.symbol = cell.symbol ∧ visit.children = cell.slots.map heap.slotTree := by
  cases visited with
  | root found => exact ⟨root, _, rfl, found, rfl, rfl⟩
  | @below path slot parent node above cell reached held filled found =>
      refine ⟨node, cell, ?_, found, rfl, rfl⟩
      rw [follow_append, reached, Option.bind_some, follow_singleton, filled]

/-- A visit is that of the child in a slot of another visited node. -/
structure IsChildVisit (parent : Visit) (slot : Nat) (child : Visit) : Prop where
  /-- The child says so. -/
  place : child.place = some (parent.symbol, slot)
  /-- The slot is filled with the child. -/
  filled : parent.children[slot]? = some (.node child.symbol child.children)

/-- What fills a slot of a visited node is its child. -/
theorem Grounded.isChildVisit (grounded : heap.Grounded root) {path : List Nat} {slot : Nat}
    {parent node : Reference} {above cell : Cell} {visit : Visit}
    (reached : heap.follow root path = some parent) (held : heap.cell? parent = some above)
    (filled : heap.child? parent slot = some node) (found : heap.cell? node = some cell)
    (visited : heap.Visited root path visit) :
    IsChildVisit visit slot
      ⟨some (above.symbol, slot), cell.symbol, cell.slots.map heap.slotTree⟩ := by
  obtain ⟨same, same_cell, reached_same, held_same, symbol_eq, children_eq⟩ := visited.exists_node
  obtain rfl := Option.some.inj (reached.symm.trans reached_same)
  obtain rfl := Option.some.inj (held.symm.trans held_same)
  have below := (grounded.reached reached).reached ((follow_singleton slot).trans filled)
  refine ⟨by rw [symbol_eq], ?_⟩
  rw [child?, held, Option.bind_some] at filled
  rw [children_eq, List.getElem?_map, Option.join_eq_some_iff.mp filled, Option.map_some, slotTree,
    below.tree_eq_node found]

/-- The path from a node to itself is listed first and nowhere else. -/
theorem Grounded.index_of_nil (grounded : heap.Grounded root) {index : Nat}
    (listed : (heap.tree root).positions[index]? = some []) : index = 0 := by
  obtain ⟨cell, found⟩ := grounded.exists_cell
  have increasing := grounded.enumeratesPaths.increasing
  rw [grounded.tree_eq_node found, Tree.positions] at listed increasing
  cases index with
  | zero => rfl
  | succ index =>
      have greater := (List.pairwise_cons.mp increasing).1 [] (List.mem_of_getElem? listed)
      exact absurd greater (lt_irrefl _)

/-- Every visit but the first is that of a child of a node that was visited before. -/
theorem Grounded.exists_parent_visit (grounded : heap.Grounded root) {index : Nat}
    {path : List Nat} {visit : Visit} (listed : (heap.tree root).positions[index]? = some path)
    (met : (heap.tree root).visits[index]? = some visit) (later : index ≠ 0) :
    ∃ earlier way slot parent, earlier < index ∧ path = way ++ [slot] ∧
      (heap.tree root).positions[earlier]? = some way ∧
      (heap.tree root).visits[earlier]? = some parent ∧ IsChildVisit parent slot visit := by
  obtain ⟨same, met_same, visited⟩ :=
    Outcome.exists_getElem?_of_forall₂ grounded.forall₂_visited listed
  obtain rfl := Option.some.inj (met.symm.trans met_same)
  cases visited with
  | root found => exact absurd (grounded.index_of_nil listed) later
  | @below way slot parent node above cell reached held filled found =>
      obtain ⟨earlier, before, listed_way⟩ := grounded.enumeratesPaths.exists_earlier listed
      obtain ⟨above_visit, met_above, visited_above⟩ :=
        Outcome.exists_getElem?_of_forall₂ grounded.forall₂_visited listed_way
      exact ⟨earlier, way, slot, above_visit, before, rfl, listed_way, met_above,
        grounded.isChildVisit reached held filled found visited_above⟩

/-- A node counts once, and what fills its slots as often as nodes are below there. -/
theorem Grounded.nodeCount_tree (grounded : heap.Grounded root) {cell : Cell}
    (found : heap.cell? root = some cell) :
    (heap.tree root).nodeCount =
      1 + (cell.slots.reduceOption.map fun child => (heap.tree child).nodeCount).sum := by
  rw [grounded.tree_eq_node found, Tree.nodeCount_node, List.map_map]
  congr 1
  induction cell.slots with
  | nil => rfl
  | cons slot rest induction =>
      cases slot with
      | none =>
          rw [List.reduceOption_cons_of_none, ← induction, List.map_cons, List.sum_cons]
          exact Nat.zero_add _
      | some child =>
          rw [List.reduceOption_cons_of_some, List.map_cons, List.map_cons, List.sum_cons,
            List.sum_cons, induction]
          rfl

/-- The traversal of the tree of a grounded node lists the paths from the node through filled slots
in lexicographic order, each with the node at its end.  It begins with the node itself, and every
other visit is that of a child of a node whose own visit at the path above came before.  There is
one visit for the node and as many as the traversals of its children have, and the depth is one more
than the greatest length of a path and at most the number of visits. -/
theorem traversal_enumerates_paths (heap : Heap) (root : Reference)
    (grounded : heap.Grounded root) :
    ∃ paths, heap.EnumeratesPaths root paths ∧
      List.Forall₂ (heap.Visited root) paths (heap.tree root).visits ∧
      (∃ cell, heap.cell? root = some cell ∧
        (heap.tree root).visits.head? =
          some ⟨none, cell.symbol, cell.slots.map heap.slotTree⟩ ∧
        (heap.tree root).visits.length =
          1 + (cell.slots.reduceOption.map fun child => (heap.tree child).visits.length).sum) ∧
      (∀ index path visit, paths[index]? = some path →
        (heap.tree root).visits[index]? = some visit → index ≠ 0 →
        ∃ earlier way slot parent, earlier < index ∧ path = way ++ [slot] ∧
          paths[earlier]? = some way ∧ (heap.tree root).visits[earlier]? = some parent ∧
          IsChildVisit parent slot visit) ∧
      (∀ path ∈ paths, path.length + 1 ≤ (heap.tree root).depth) ∧
      (∃ path ∈ paths, path.length + 1 = (heap.tree root).depth) ∧
      (heap.tree root).depth ≤ (heap.tree root).nodeCount := by
  obtain ⟨cell, found⟩ := grounded.exists_cell
  refine ⟨(heap.tree root).positions, grounded.enumeratesPaths, grounded.forall₂_visited,
    ⟨cell, found, ?_, grounded.nodeCount_tree found⟩, ?_, ?_,
    Tree.exists_length_eq_depth grounded.isHole_tree, Tree.depth_le_nodeCount _⟩
  · rw [grounded.tree_eq_node found, Tree.visits, Tree.visitsAt, List.head?_cons]
  · intro index path visit listed met later
    exact grounded.exists_parent_visit listed met later
  · intro path listed
    exact Tree.length_lt_depth listed

/-- The branch that fills two slots is visited twice, each time without its unfilled slot. -/
theorem traversal_enumerates_paths_oneBranchTwice :
    let heap := Workspace.oneBranchTwice.heap
    heap.Grounded (.cell 2) ∧
      (heap.tree (.cell 2)).symbols =
        [.conditional, .variable ⟨0, "hungry"⟩, .sequence 2, .action .move 0, .sequence 2,
          .action .move 0] ∧
      ∃ paths, heap.EnumeratesPaths (.cell 2) paths ∧ paths.length = 6 ∧
        List.Forall₂ (heap.Visited (.cell 2)) paths (heap.tree (.cell 2)).visits := by
  intro heap
  have grounded : heap.Grounded (.cell 2) :=
    Workspace.layered_oneBranchTwice.grounded (by decide)
  obtain ⟨paths, enumerates, visited, -⟩ := traversal_enumerates_paths heap (.cell 2) grounded
  exact ⟨grounded, rfl, paths, enumerates, visited.length_eq.trans rfl, visited⟩

end Heap

end GeneticProgram
