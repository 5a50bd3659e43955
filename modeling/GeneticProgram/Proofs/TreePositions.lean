import GeneticProgram.Proofs.ReplacedParts
import Mathlib.Algebra.Ring.Nat
import Mathlib.Data.List.Forall2
import Mathlib.Order.Lattice

/-!
# The positions of a tree

A position is the path from the root of a tree to one of its nodes.  The positions of a tree are
listed here in the order of its traversal, which is their lexicographic order: a node stands before
everything below it, and what is below one slot before what is below a later one.  The traversal
meets one node at each of them, the depth of the tree is one more than the length of the longest,
and their number is the number of nodes.
-/

namespace GeneticProgram.Tree

mutual

/-- The positions of a tree in depth-first order from left to right. -/
def positions : Tree → List (List Nat)
  | .hole => []
  | .node _ children => [] :: positionsFrom 0 children

/-- The positions below a node from a slot on. -/
def positionsFrom (slot : Nat) : List Tree → List (List Nat)
  | [] => []
  | child :: rest => child.positions.map (slot :: ·) ++ positionsFrom (slot + 1) rest

end

/-! ## Which paths are positions -/

/-- A position below a node starts with a slot and goes on as a position of what fills it. -/
theorem mem_positionsFrom_iff {children : List Tree} {slot : Nat} {path : List Nat} :
    path ∈ positionsFrom slot children ↔
      ∃ index rest, path = (slot + index) :: rest ∧ rest ∈ (inSlot children index).positions := by
  induction children generalizing slot with
  | nil => simp [positionsFrom, inSlot, positions]
  | cons child rest induction =>
      rw [positionsFrom, List.mem_append, List.mem_map, induction]
      constructor
      · rintro (⟨inner, listed, rfl⟩ | ⟨index, inner, rfl, listed⟩)
        · exact ⟨0, inner, rfl, listed⟩
        · exact ⟨index + 1, inner, by rw [Nat.add_right_comm, Nat.add_assoc], listed⟩
      · rintro ⟨index, inner, rfl, listed⟩
        cases index with
        | zero => exact .inl ⟨inner, listed, rfl⟩
        | succ index =>
            exact .inr ⟨index, inner, by rw [Nat.add_right_comm, Nat.add_assoc], listed⟩

theorem nil_mem_positions (symbol : Symbol) (children : List Tree) :
    [] ∈ (node symbol children).positions := by
  rw [positions]
  exact List.mem_cons_self

theorem cons_mem_positions_iff {symbol : Symbol} {children : List Tree} {slot : Nat}
    {path : List Nat} :
    slot :: path ∈ (node symbol children).positions ↔
      path ∈ (inSlot children slot).positions := by
  rw [positions, List.mem_cons, mem_positionsFrom_iff]
  simp

/-- The positions of a tree are the paths to its nodes. -/
theorem mem_positions_iff {tree : Tree} {path : List Nat} :
    path ∈ tree.positions ↔ (tree.part path).isHole = false := by
  induction tree using slot_induction generalizing path with
  | hole => simp [positions, isHole]
  | node symbol children induction =>
      cases path with
      | nil => exact iff_of_true (nil_mem_positions symbol children) rfl
      | cons slot path =>
          rw [cons_mem_positions_iff, part]
          exact induction slot

/-! ## Their order -/

theorem pairwise_positionsFrom {children : List Tree}
    (each : ∀ index, (inSlot children index).positions.Pairwise (· < ·)) (slot : Nat) :
    (positionsFrom slot children).Pairwise (· < ·) := by
  induction children generalizing slot with
  | nil => exact .nil
  | cons child rest induction =>
      have below : (child.positions.map (slot :: ·)).Pairwise (· < ·) :=
        (each 0).map _ fun _ _ earlier => List.cons_lt_cons_self.mpr earlier
      have later := induction (fun index => each (index + 1)) (slot + 1)
      rw [positionsFrom]
      refine List.pairwise_append.mpr ⟨below, later, ?_⟩
      -- What is below one slot stands before what is below a later one.
      intro first listed second listed_later
      obtain ⟨inner, -, rfl⟩ := List.mem_map.mp listed
      obtain ⟨index, other, rfl, -⟩ := mem_positionsFrom_iff.mp listed_later
      exact List.cons_lt_cons_iff.mpr (.inl (by omega))

/-- The positions of a tree are listed in lexicographic order, each of them once. -/
theorem pairwise_positions (tree : Tree) : tree.positions.Pairwise (· < ·) := by
  induction tree using slot_induction with
  | hole => exact .nil
  | node symbol children induction =>
      rw [positions, List.pairwise_cons]
      refine ⟨fun path listed => ?_, pairwise_positionsFrom induction 0⟩
      obtain ⟨index, rest, rfl, -⟩ := mem_positionsFrom_iff.mp listed
      exact List.nil_lt_cons _ _

/-! ## What the traversal meets -/

/-- What a traversal that has come to a tree at a place meets at a position: the node there, and
above it the symbol of its parent with the slot in it. -/
inductive Meets (place : Option (Symbol × Nat)) (tree : Tree) : List Nat → Visit → Prop
  | root {symbol : Symbol} {children : List Tree} (found : tree = .node symbol children) :
      Meets place tree [] ⟨place, symbol, children⟩
  | below {way : List Nat} {slot : Nat} {above symbol : Symbol} {siblings children : List Tree}
      (parent : tree.part way = .node above siblings)
      (found : tree.part (way ++ [slot]) = .node symbol children) :
      Meets place tree (way ++ [slot]) ⟨some (above, slot), symbol, children⟩

/-- What is met in a slot of a node is met below the node. -/
theorem Meets.step {place : Option (Symbol × Nat)} {symbol : Symbol} {children : List Tree}
    {slot : Nat} {path : List Nat} {visit : Visit}
    (meets : Meets (some (symbol, slot)) (inSlot children slot) path visit) :
    Meets place (.node symbol children) (slot :: path) visit := by
  cases meets with
  | root found => exact @Meets.below place _ [] slot _ _ _ _ rfl ((part_nil _).trans found)
  | @below way last above inner siblings deeper parent found =>
      exact @Meets.below place _ (slot :: way) last _ _ _ _ parent found

theorem forall₂_meetsFrom {children : List Tree}
    (each : ∀ index place, List.Forall₂ (Meets place (inSlot children index))
      (inSlot children index).positions ((inSlot children index).visitsAt place))
    (parent : Symbol) (slot : Nat) :
    List.Forall₂ (fun path visit => ∃ index rest, path = (slot + index) :: rest ∧
        Meets (some (parent, slot + index)) (inSlot children index) rest visit)
      (positionsFrom slot children) (visitsFrom parent slot children) := by
  induction children generalizing slot with
  | nil => exact .nil
  | cons child rest induction =>
      rw [positionsFrom, visitsFrom]
      refine List.rel_append ?_ ?_
      · rw [List.forall₂_map_left_iff]
        exact (each 0 (some (parent, slot))).imp fun path visit meets => ⟨0, path, rfl, meets⟩
      · refine (induction (fun index => each (index + 1)) (slot + 1)).imp ?_
        rintro path visit ⟨index, inner, rfl, meets⟩
        rw [Nat.add_right_comm, Nat.add_assoc] at meets ⊢
        exact ⟨index + 1, inner, rfl, meets⟩

/-- The traversal meets one node at each position, in the order of the positions. -/
theorem forall₂_meets (tree : Tree) (place : Option (Symbol × Nat)) :
    List.Forall₂ (Meets place tree) tree.positions (tree.visitsAt place) := by
  induction tree using slot_induction generalizing place with
  | hole => exact .nil
  | node symbol children induction =>
      rw [positions, visitsAt]
      refine .cons (.root rfl) ((forall₂_meetsFrom induction symbol 0).imp ?_)
      rintro path visit ⟨index, rest, rfl, meets⟩
      rw [Nat.zero_add] at meets ⊢
      exact meets.step

theorem length_positions (tree : Tree) : tree.positions.length = tree.nodeCount :=
  (tree.forall₂_meets none).length_eq

/-! ## Their lengths -/

theorem depth_inSlot_le (children : List Tree) (slot : Nat) :
    (inSlot children slot).depth ≤ deepest children := by
  induction children generalizing slot with
  | nil => exact Nat.le_refl 0
  | cons child rest induction =>
      rw [deepest]
      cases slot with
      | zero => exact Nat.le_max_left _ _
      | succ slot => exact (induction slot).trans (Nat.le_max_right _ _)

/-- Unless all of them are holes, one of several trees is as deep as the deepest. -/
theorem exists_depth_eq_deepest {children : List Tree} (present : 0 < deepest children) :
    ∃ slot, (inSlot children slot).depth = deepest children := by
  induction children with
  | nil => cases present
  | cons child rest induction =>
      rw [deepest] at present ⊢
      rcases le_total (deepest rest) child.depth with first | later
      · exact ⟨0, (max_eq_left first).symm⟩
      · rw [max_eq_right later] at present ⊢
        obtain ⟨slot, same⟩ := induction present
        exact ⟨slot + 1, same⟩

/-- Every position is shorter than the tree is deep. -/
theorem length_lt_depth {tree : Tree} {path : List Nat} (listed : path ∈ tree.positions) :
    path.length < tree.depth := by
  induction tree using slot_induction generalizing path with
  | hole => cases listed
  | node symbol children induction =>
      rw [depth]
      cases path with
      | nil => exact Nat.lt_of_lt_of_le Nat.zero_lt_one (Nat.le_add_right 1 _)
      | cons slot path =>
          have shorter := induction slot (cons_mem_positions_iff.mp listed)
          have bounded := depth_inSlot_le children slot
          rw [List.length_cons]
          omega

/-- The depth of a tree is one more than the length of one of its positions. -/
theorem exists_length_eq_depth {tree : Tree} (present : tree.isHole = false) :
    ∃ path ∈ tree.positions, path.length + 1 = tree.depth := by
  induction tree using slot_induction with
  | hole => cases present
  | node symbol children induction =>
      rw [depth]
      rcases Nat.eq_zero_or_pos (deepest children) with bare | deeper
      · exact ⟨[], nil_mem_positions symbol children, by rw [bare]; rfl⟩
      · obtain ⟨slot, same⟩ := exists_depth_eq_deepest deeper
        have filled : (inSlot children slot).isHole = false := by
          cases child : inSlot children slot with
          | hole =>
              rw [child, depth] at same
              omega
          | node inner siblings => rfl
        obtain ⟨path, listed, longest⟩ := induction slot filled
        refine ⟨slot :: path, cons_mem_positions_iff.mpr listed, ?_⟩
        rw [List.length_cons, longest, same, Nat.add_comm]

/-! ## Their number -/

theorem length_symbols (tree : Tree) : tree.symbols.length = tree.nodeCount :=
  List.length_map Visit.symbol

/-- A node counts once, and each of its children for all of its nodes. -/
theorem nodeCount_node (symbol : Symbol) (children : List Tree) :
    (node symbol children).nodeCount = 1 + (children.map nodeCount).sum := by
  rw [← length_symbols, symbols_node, List.length_cons, List.length_flatMap, Nat.add_comm]
  simp only [length_symbols]

theorem deepest_le_sum {children : List Tree}
    (each : ∀ slot, (inSlot children slot).depth ≤ (inSlot children slot).nodeCount) :
    deepest children ≤ (children.map nodeCount).sum := by
  induction children with
  | nil => exact Nat.le_refl 0
  | cons child rest induction =>
      have first := each 0
      have later := induction fun slot => each (slot + 1)
      rw [inSlot_cons_zero] at first
      rw [deepest, List.map_cons, List.sum_cons]
      exact max_le (by omega) (by omega)

/-- A tree is no deeper than it has nodes. -/
theorem depth_le_nodeCount (tree : Tree) : tree.depth ≤ tree.nodeCount := by
  induction tree using slot_induction with
  | hole => exact Nat.le_refl 0
  | node symbol children induction =>
      rw [depth, nodeCount_node]
      exact Nat.add_le_add_left (deepest_le_sum induction) 1

end GeneticProgram.Tree
