import GeneticProgram.Proofs.Cloning
import GeneticProgram.Proofs.CompleteTree

/-!
# Trees on the heap of a workspace

A complete tree that is put on a heap takes new cells only, and it is found again on every heap that
has these cells, however much has been added to them since.  A program that is read is such a tree,
so that what a reader has returned stays as it was read.
-/

namespace GeneticProgram

namespace Heap

/-- Every way down from a node ends at a node of the tree, and the node of a variable is the
variable itself. -/
def Shows (heap : Heap) (root : Reference) (tree : Tree) : Prop :=
  ∀ path node, heap.follow root path = some node →
    ∃ cell, heap.cell? node = some cell ∧ cell.symbol ∈ tree.symbols ∧
      ∀ place, cell.symbol = .variable place → node = .variable place

theorem shows_variable (heap : Heap) (place : Variable) :
    heap.Shows (.variable place) (.leaf (.variable place)) := by
  intro path node reached
  cases path with
  | nil =>
      obtain rfl := Option.some.inj reached
      refine ⟨⟨.variable place, []⟩, rfl, List.mem_cons_self, fun other same => ?_⟩
      rw [Symbol.variable.inj same]
  | cons slot rest =>
      rw [follow_cons, child?_variable] at reached
      cases reached

/-- The ways down from a cell are those from what fills its slots. -/
theorem shows_cell {heap : Heap} {number : Nat} {symbol : Symbol} {slots : List (Option Reference)}
    {children : List Tree} (made : heap.cells[number]? = some ⟨symbol, slots⟩)
    (proper : ∀ place, symbol ≠ .variable place)
    (below : ∀ child, some child ∈ slots → ∃ tree ∈ children, heap.Shows child tree) :
    heap.Shows (.cell number) (.node symbol children) := by
  intro path node reached
  rw [Tree.symbols_node]
  cases path with
  | nil =>
      obtain rfl := Option.some.inj reached
      exact ⟨_, made, List.mem_cons_self, fun place same => absurd same (proper place)⟩
  | cons slot rest =>
      rw [follow_cons, child?_cell made, Option.bind_eq_some_iff] at reached
      obtain ⟨child, filled, onward⟩ := reached
      obtain ⟨tree, listed, shown⟩ :=
        below child (List.mem_of_getElem? (Option.join_eq_some_iff.mp filled))
      obtain ⟨cell, found, member, own⟩ := shown rest node onward
      exact ⟨cell, found, List.mem_cons_of_mem _ (List.mem_flatMap.mpr ⟨tree, listed, member⟩), own⟩

/-- A heap with a tree on new cells: none of the earlier cells has changed, and wherever the cells
are kept, the tree is found in as many steps as there are new ones. -/
structure Holds (base planted : Heap) (slot : Option Reference) (tree : Tree) : Prop where
  /-- No cell has changed. -/
  kept : base.cells <+: planted.cells
  /-- The tree is found on every heap that has grown from there. -/
  found : ∀ (grown : Heap) (fuel : Nat), planted.cells <+: grown.cells →
    planted.cells.length ≤ base.cells.length + fuel → grown.treeWithin fuel slot = tree
  /-- The nodes of the tree are all that is reached there. -/
  shown : ∀ (grown : Heap) (root : Reference), planted.cells <+: grown.cells →
    slot = some root → grown.Shows root tree

/-- Trees that are put on a heap one after another are all found. -/
theorem plantAll_holds {children : List Tree}
    (plants : ∀ child ∈ children, ∀ base : Heap,
      Holds base (base.plant child).1 (base.plant child).2 child) (base : Heap) :
    base.cells <+: (base.plantAll children).1.cells ∧
      ∀ grown : Heap, (base.plantAll children).1.cells <+: grown.cells →
        (∀ fuel, (base.plantAll children).1.cells.length ≤ base.cells.length + fuel →
          (base.plantAll children).2.map (grown.treeWithin fuel) = children) ∧
        ∀ root, some root ∈ (base.plantAll children).2 →
          ∃ tree ∈ children, grown.Shows root tree := by
  induction children generalizing base with
  | nil =>
      rw [plantAll]
      refine ⟨List.prefix_rfl, fun grown _ => ⟨fun fuel _ => rfl, fun root listed => ?_⟩⟩
      exact absurd listed List.not_mem_nil
  | cons child rest induction =>
      obtain ⟨plants_child, plants_rest⟩ := List.forall_mem_cons.mp plants
      have first := plants_child base
      obtain ⟨kept, others⟩ := induction plants_rest (base.plant child).1
      rw [plantAll_cons]
      refine ⟨first.kept.trans kept, fun grown extended => ⟨fun fuel enough => ?_, ?_⟩⟩
      · dsimp only at extended enough ⊢
        have longer := kept.length_le
        have grew := first.kept.length_le
        rw [List.map_cons, first.found grown fuel (kept.trans extended) (by omega),
          (others grown extended).1 fuel (by omega)]
      · rintro root listed
        rcases List.mem_cons.mp listed with planted | later
        · exact ⟨child, List.mem_cons_self,
            first.shown grown root (kept.trans extended) planted.symm⟩
        · obtain ⟨tree, member, shown⟩ := (others grown extended).2 root later
          exact ⟨tree, List.mem_cons_of_mem _ member, shown⟩

/-- A complete tree that is put on a heap is found there. -/
theorem plant_holds {tree : Tree} (complete : tree.Complete) (base : Heap) :
    Holds base (base.plant tree).1 (base.plant tree).2 tree := by
  induction complete generalizing base with
  | @node symbol children filled below induction =>
      by_cases place_of : ∃ place, symbol = .variable place
      · obtain ⟨place, rfl⟩ := place_of
        obtain rfl := List.length_eq_zero_iff.mp filled
        rw [plant_variable]
        refine ⟨List.prefix_rfl, fun grown fuel _ _ => ?_, fun grown root _ same => ?_⟩
        · rw [treeWithin]
          rfl
        · obtain rfl := Option.some.inj same
          exact shows_variable grown place
      · have proper : ∀ place, symbol ≠ .variable place := not_exists.mp place_of
        obtain ⟨kept, found⟩ := plantAll_holds induction base
        have made : ∀ grown : Heap, (base.plantAll children).1.cells ++
            [⟨symbol, (base.plantAll children).2⟩] <+: grown.cells →
            grown.cells[(base.plantAll children).1.cells.length]? =
              some ⟨symbol, (base.plantAll children).2⟩ := by
          intro grown extended
          apply getElem?_of_isPrefix extended
          rw [List.getElem?_append_right le_rfl, Nat.sub_self]
          rfl
        rw [plant_node base proper]
        refine ⟨kept.trans (List.prefix_append _ _), fun grown fuel extended enough => ?_,
          fun grown root extended same => ?_⟩
        · have grew := kept.length_le
          rw [List.length_append, List.length_singleton] at enough
          -- The cell of the node itself takes one step.
          obtain ⟨fuel, rfl⟩ := Nat.exists_eq_add_of_le' (show 1 ≤ fuel by omega)
          rw [treeWithin, made grown extended]
          exact congrArg (Tree.node symbol)
            ((found grown ((List.prefix_append _ _).trans extended)).1 fuel (by omega))
        · obtain rfl := Option.some.inj same
          exact shows_cell (made grown extended) proper
            (found grown ((List.prefix_append _ _).trans extended)).2

/-- A complete tree that is put on a heap has a reference, by which it is found on every heap that
has grown from there. -/
theorem plant_complete {tree : Tree} (complete : tree.Complete) (base : Heap) :
    ∃ planted root, base.plant tree = (planted, some root) ∧ base.cells <+: planted.cells ∧
      ∀ grown : Heap, planted.cells <+: grown.cells →
        grown.tree root = tree ∧ grown.Shows root tree := by
  have holds := plant_holds complete base
  cases planting : base.plant tree with
  | mk planted slot =>
      rw [planting] at holds
      cases slot with
      | none =>
          have missing := holds.found planted planted.cells.length List.prefix_rfl (by simp)
          rw [treeWithin] at missing
          subst missing
          cases complete
      | some root =>
          refine ⟨planted, root, rfl, holds.kept, fun grown extended => ⟨?_, ?_⟩⟩
          · exact holds.found grown grown.cells.length extended
              (extended.length_le.trans (Nat.le_add_left _ _))
          · exact holds.shown grown root extended rfl

end Heap

namespace Workspace

variable {workspace after : Workspace} {reader : Reader} {ant : Option Nat} {source : String}
  {slot : Option Reference}

/-- The context of the programs that a reader reads: that of the given ant, or of the reader's
own. -/
def effectiveContext (workspace : Workspace) (reader : Reader) (ant : Option Nat) :
    Option Context :=
  (ant.or reader.ant).map workspace.contextOf

/-- A program is read in the effective context, logged and put on the heap. -/
theorem parse_some (workspace : Workspace) (reader : Reader) (ant : Option Nat) (source : String) :
    workspace.parse reader ant (some source) =
      ((workspace.language reader).parse (workspace.effectiveContext reader ant) source).map
        (workspace.log (.parsed source)).plant := by
  rw [parse, effectiveContext]
  cases (workspace.language reader).parse ((ant.or reader.ant).map workspace.contextOf) source with
  | error error => rfl
  | ok tree => rfl

/-- A program that is read is on the heap from then on, and nothing else has changed but the log. -/
theorem exists_root_of_parse (read : workspace.parse reader ant (some source) = .ok (after, slot)) :
    ∃ tree root, slot = some root ∧
      (workspace.language reader).parse (workspace.effectiveContext reader ant) source =
        .ok tree ∧
      after = { workspace with heap := after.heap, journal := after.journal } ∧
      workspace.heap.cells <+: after.heap.cells ∧
      ∀ grown : Heap, after.heap.cells <+: grown.cells →
        grown.tree root = tree ∧ grown.Shows root tree := by
  rw [parse_some] at read
  obtain ⟨tree, parsed, placed⟩ := Outcome.map_eq_ok_iff.mp read
  have complete : tree.Complete := Language.parseAt_complete parsed
  obtain ⟨planted, root, planting, kept, found⟩ := Heap.plant_complete complete workspace.heap
  have same : (workspace.log (.parsed source)).heap = workspace.heap := rfl
  rw [plant, same, planting] at placed
  obtain ⟨rfl, rfl⟩ := Prod.mk.inj placed
  exact ⟨tree, root, rfl, parsed, rfl, kept, found⟩

end Workspace

end GeneticProgram
