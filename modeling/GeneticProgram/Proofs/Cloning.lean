import GeneticProgram.Proofs.HeapPaths
import GeneticProgram.Workspace

/-!
# Copies of nodes

A copy of a grounded node has a new cell for every way down that ends at a cell, and it has the
variables of the original.  The cells of a copy lie side by side, those of each slot before those of
the next and the cell itself after all of them; so no two ways down the copy end at one cell.
Original and copy have no cell in common, and a change of one is not seen in the other.
-/

namespace GeneticProgram.Heap

variable {heap cloned : Heap}

theorem getElem?_of_isPrefix {Item : Type} {first whole : List Item} {item : Item} {number : Nat}
    (extended : first <+: whole) (found : first[number]? = some item) :
    whole[number]? = some item := by
  obtain ⟨rest, rfl⟩ := extended
  rw [List.getElem?_append_left (List.getElem?_eq_some_iff.mp found).1, found]

/-! ## Mirror images -/

/-- Slots and their copies one after another, the copies on consecutive stretches of cells. -/
inductive Consecutive (Copied : Option Reference → Option Reference → Nat → Nat → Prop) :
    List (Option Reference) → List (Option Reference) → Nat → Nat → Prop
  | nil (low : Nat) : Consecutive Copied [] [] low low
  | cons {slot copy : Option Reference} {slots copies : List (Option Reference)}
      {low middle high : Nat} (first : Copied slot copy low middle) (ordered : low ≤ middle)
      (later : Consecutive Copied slots copies middle high) :
      Consecutive Copied (slot :: slots) (copy :: copies) low high

/-- A slot has a copy on a stretch of cells. -/
inductive Mirrors (heap cloned : Heap) : Option Reference → Option Reference → Nat → Nat → Prop
  | hole (low : Nat) : Mirrors heap cloned none none low low
  | variable (place : Variable) (low : Nat) :
      Mirrors heap cloned (some (.variable place)) (some (.variable place)) low low
  | cell {old new low : Nat} {cell : Cell} {copies : List (Option Reference)}
      (found : heap.cells[old]? = some cell)
      (made : cloned.cells[new]? = some ⟨cell.symbol, copies⟩)
      (below : Consecutive (Mirrors heap cloned) cell.slots copies low new) :
      Mirrors heap cloned (some (.cell old)) (some (.cell new)) low (new + 1)

section Consecutive

variable {Copied : Option Reference → Option Reference → Nat → Nat → Prop}
variable {slots copies : List (Option Reference)} {low high : Nat}

theorem Consecutive.le (consecutive : Consecutive Copied slots copies low high) : low ≤ high := by
  induction consecutive with
  | nil low => exact le_rfl
  | cons first ordered later induction => exact ordered.trans induction

theorem Consecutive.length_eq (consecutive : Consecutive Copied slots copies low high) :
    copies.length = slots.length := by
  induction consecutive with
  | nil low => rfl
  | cons first ordered later induction => exact congrArg (· + 1) induction

/-- The copy at a position is one of the slot at that position, on cells of the whole stretch. -/
theorem Consecutive.at (consecutive : Consecutive Copied slots copies low high) {index : Nat}
    {copy : Option Reference} (placed : copies[index]? = some copy) :
    ∃ slot start stop, slots[index]? = some slot ∧ Copied slot copy start stop ∧
      low ≤ start ∧ stop ≤ high := by
  induction consecutive generalizing index with
  | nil low => cases placed
  | @cons slot head slots copies low middle high first ordered later induction =>
      cases index with
      | zero =>
          cases placed
          exact ⟨slot, low, middle, rfl, first, le_rfl, later.le⟩
      | succ index =>
          obtain ⟨slot, start, stop, found, copied, above, below⟩ := induction placed
          exact ⟨slot, start, stop, found, copied, ordered.trans above, below⟩

/-- The copies at two positions are on stretches of which one ends before the other starts. -/
theorem Consecutive.apart (consecutive : Consecutive Copied slots copies low high)
    {index next : Nat} {copy other : Option Reference} (earlier : index < next)
    (placed : copies[index]? = some copy) (placed_next : copies[next]? = some other) :
    ∃ slot start stop slot_next start_next stop_next, Copied slot copy start stop ∧
      Copied slot_next other start_next stop_next ∧ stop ≤ start_next := by
  induction consecutive generalizing index next with
  | nil low => cases placed
  | @cons slot head slots copies low middle high first ordered later induction =>
      obtain ⟨next, rfl⟩ := Nat.exists_eq_succ_of_ne_zero (Nat.ne_zero_of_lt earlier)
      cases index with
      | zero =>
          cases placed
          obtain ⟨slot_next, start_next, stop_next, -, copied, above, -⟩ := later.at placed_next
          exact ⟨slot, low, middle, slot_next, start_next, stop_next, first, copied, above⟩
      | succ index => exact induction (Nat.lt_of_succ_lt_succ earlier) placed placed_next

end Consecutive

section Mirrors

variable {original copy : Reference} {low high : Nat}

/-- What a slot of a copy is filled with copies what the slot of the original is filled with. -/
theorem Mirrors.child (mirrors : Mirrors heap cloned (some original) (some copy) low high)
    {index : Nat} {child : Reference} (filled : cloned.child? copy index = some child) :
    ∃ source start stop, heap.child? original index = some source ∧
      Mirrors heap cloned (some source) (some child) start stop ∧ low ≤ start ∧ stop < high := by
  cases mirrors with
  | «variable» place =>
      rw [child?_variable] at filled
      cases filled
  | @cell old new low cell copies found made below =>
      rw [child?_cell made, Option.join_eq_some_iff] at filled
      obtain ⟨slot, start, stop, placed, mirrors, above, under⟩ := below.at filled
      cases slot with
      | none => cases mirrors
      | some source =>
          refine ⟨source, start, stop, ?_, mirrors, above, Nat.lt_succ_of_le under⟩
          rw [child?_cell found, placed, Option.join_some]

/-- A slot of a copy is unfilled where that of the original is. -/
theorem Mirrors.child_none (mirrors : Mirrors heap cloned (some original) (some copy) low high)
    {index : Nat} (unfilled : cloned.child? copy index = none) :
    heap.child? original index = none := by
  cases mirrors with
  | «variable» place => exact child?_variable place index
  | @cell old new low cell copies found made below =>
      rw [child?_cell made] at unfilled
      rw [child?_cell found]
      cases placed : copies[index]? with
      | none =>
          have outside : cell.slots.length ≤ index := by
            rw [← below.length_eq]
            exact List.getElem?_eq_none_iff.mp placed
          rw [List.getElem?_eq_none_iff.mpr outside, Option.join_none]
      | some slot =>
          rw [placed, Option.join_some] at unfilled
          subst unfilled
          obtain ⟨source, start, stop, same, mirrors, -, -⟩ := below.at placed
          cases mirrors
          rw [same, Option.join_some]

/-- A way down a copy stays on the stretch of its cells. -/
theorem Mirrors.inside (mirrors : Mirrors heap cloned (some original) (some copy) low high)
    {path : List Nat} {number : Nat} (reached : cloned.follow copy path = some (.cell number)) :
    low ≤ number ∧ number < high := by
  induction path generalizing original copy low high with
  | nil =>
      cases reached
      cases mirrors with
      | cell found made below => exact ⟨below.le, Nat.lt_succ_self number⟩
  | cons slot rest induction =>
      rw [follow_cons, Option.bind_eq_some_iff] at reached
      obtain ⟨child, filled, onward⟩ := reached
      obtain ⟨source, start, stop, -, mirrors, above, under⟩ := mirrors.child filled
      obtain ⟨lower, upper⟩ := induction mirrors onward
      exact ⟨above.trans lower, upper.trans under⟩

/-- A way down a copy that takes a slot does not end where it starts. -/
theorem Mirrors.leaves {number slot : Nat} {rest : List Nat}
    (mirrors : Mirrors heap cloned (some original) (some (.cell number)) low high) :
    cloned.follow (.cell number) (slot :: rest) ≠ some (.cell number) := by
  intro returned
  rw [follow_cons, Option.bind_eq_some_iff] at returned
  obtain ⟨child, filled, onward⟩ := returned
  obtain ⟨source, start, stop, -, child_mirrors, -, under⟩ := mirrors.child filled
  have upper := (child_mirrors.inside onward).2
  cases mirrors
  omega

/-- Ways down through an earlier slot of a copy end at earlier cells. -/
theorem Mirrors.separate (mirrors : Mirrors heap cloned (some original) (some copy) low high)
    {index next : Nat} (earlier : index < next) {child other : Reference}
    (filled : cloned.child? copy index = some child)
    (filled_next : cloned.child? copy next = some other) {path way : List Nat}
    {number number_next : Nat} (reached : cloned.follow child path = some (.cell number))
    (reached_next : cloned.follow other way = some (.cell number_next)) :
    number < number_next := by
  cases mirrors with
  | «variable» place =>
      rw [child?_variable] at filled
      cases filled
  | @cell old new low cell copies found made below =>
      rw [child?_cell made, Option.join_eq_some_iff] at filled filled_next
      obtain ⟨slot, start, stop, slot_next, start_next, stop_next, mirrors, mirrors_next, apart⟩ :=
        below.apart earlier filled filled_next
      cases slot with
      | none => cases mirrors
      | some source =>
          cases slot_next with
          | none => cases mirrors_next
          | some source_next =>
              have upper := (mirrors.inside reached).2
              have lower := (mirrors_next.inside reached_next).1
              exact (upper.trans_le apart).trans_le lower

/-- No two ways down a copy end at one cell. -/
theorem Mirrors.once (mirrors : Mirrors heap cloned (some original) (some copy) low high)
    {path way : List Nat} {number : Nat} (reached : cloned.follow copy path = some (.cell number))
    (reached_too : cloned.follow copy way = some (.cell number)) : path = way := by
  -- Where two ways part they take different slots, and what is below these lies apart.
  induction path generalizing original copy low high way with
  | nil =>
      cases reached
      cases way with
      | nil => rfl
      | cons slot rest => exact absurd reached_too mirrors.leaves
  | cons index rest induction =>
      cases way with
      | nil =>
          cases reached_too
          exact absurd reached mirrors.leaves
      | cons next further =>
          rw [follow_cons, Option.bind_eq_some_iff] at reached reached_too
          obtain ⟨child, filled, onward⟩ := reached
          obtain ⟨other, filled_next, onward_too⟩ := reached_too
          rcases lt_trichotomy index next with earlier | rfl | later
          · exact absurd (mirrors.separate earlier filled filled_next onward onward_too)
              (lt_irrefl number)
          · cases filled.symm.trans filled_next
            obtain ⟨source, start, stop, -, child_mirrors, -, -⟩ := mirrors.child filled
            rw [induction child_mirrors onward onward_too]
          · exact absurd (mirrors.separate later filled_next filled onward_too onward)
              (lt_irrefl number)

end Mirrors

/-! ## What is copied -/

/-- What a way down leads to and what it leads to in a copy: nothing, the same variable, or two
cells with the same symbol and the same number of slots, that of the copy being new. -/
inductive Alike (heap cloned : Heap) : Option Reference → Option Reference → Prop
  | hole : Alike heap cloned none none
  | variable (place : Variable) :
      Alike heap cloned (some (.variable place)) (some (.variable place))
  | cell {old new : Nat} {cell : Cell} {copies : List (Option Reference)}
      (found : heap.cells[old]? = some cell)
      (made : cloned.cells[new]? = some ⟨cell.symbol, copies⟩)
      (counted : copies.length = cell.slots.length) (fresh : heap.cells.length ≤ new) :
      Alike heap cloned (some (.cell old)) (some (.cell new))

theorem Alike.of_cell {node : Option Reference} {new : Nat}
    (alike : Alike heap cloned node (some (.cell new))) :
    ∃ old cell copies, node = some (.cell old) ∧ heap.cells[old]? = some cell ∧
      cloned.cells[new]? = some ⟨cell.symbol, copies⟩ ∧ heap.cells.length ≤ new := by
  cases alike with
  | @cell old new cell copies found made counted fresh =>
      exact ⟨old, cell, copies, rfl, found, made, fresh⟩

theorem Mirrors.alike {original copy : Reference} {low high : Nat}
    (mirrors : Mirrors heap cloned (some original) (some copy) low high)
    (fresh : heap.cells.length ≤ low) (path : List Nat) :
    Alike heap cloned (heap.follow original path) (cloned.follow copy path) := by
  induction path generalizing original copy low high with
  | nil =>
      cases mirrors with
      | «variable» place => exact .variable place
      | cell found made below => exact .cell found made below.length_eq (fresh.trans below.le)
  | cons slot rest induction =>
      rw [follow_cons, follow_cons]
      cases filled : cloned.child? copy slot with
      | none =>
          rw [mirrors.child_none filled]
          exact .hole
      | some child =>
          obtain ⟨source, start, stop, filled_source, child_mirrors, above, -⟩ :=
            mirrors.child filled
          rw [filled_source]
          exact induction child_mirrors (fresh.trans above)

/-- Two nodes that are alike on every way down have the same tree. -/
theorem treeWithin_eq_of_alike {original copy : Reference}
    (alike : ∀ path, Alike heap cloned (heap.follow original path) (cloned.follow copy path))
    (fuel : Nat) :
    cloned.treeWithin fuel (some copy) = heap.treeWithin fuel (some original) := by
  induction fuel generalizing original copy with
  | zero =>
      cases alike [] with
      | «variable» place => rw [treeWithin, treeWithin]
      | cell found made counted fresh => rw [treeWithin, treeWithin]
  | succ fuel induction =>
      cases alike [] with
      | «variable» place => rw [treeWithin, treeWithin]
      | @cell old new cell copies found made counted fresh =>
          rw [treeWithin, treeWithin, found, made]
          refine congrArg (Tree.node cell.symbol)
            (List.ext_getElem (by simpa using counted) fun index inside within => ?_)
          rw [List.length_map] at inside within
          rw [List.getElem_map, List.getElem_map]
          have below : ∀ path, Alike heap cloned
              (cell.slots[index].bind fun child => heap.follow child path)
              (copies[index].bind fun child => cloned.follow child path) := by
            intro path
            have longer := alike (index :: path)
            rw [follow_cons, follow_cons, child?_cell found, child?_cell made,
              List.getElem?_eq_getElem within, List.getElem?_eq_getElem inside] at longer
            exact longer
          generalize cell.slots[index] = slot at below ⊢
          generalize copies[index] = copied at below ⊢
          cases slot with
          | none =>
              cases copied with
              | none => rw [treeWithin, treeWithin]
              | some child => cases below []
          | some source =>
              cases copied with
              | none => cases below []
              | some child => exact induction below

/-! ## Planting -/

theorem plant_hole (base : Heap) : base.plant .hole = (base, none) := by
  rw [plant]

theorem plant_variable (base : Heap) (place : Variable) (children : List Tree) :
    base.plant (.node (.variable place) children) = (base, some (.variable place)) := by
  rw [plant]

theorem plant_node (base : Heap) {symbol : Symbol} (proper : ∀ place, symbol ≠ .variable place)
    (children : List Tree) :
    base.plant (.node symbol children) =
      (⟨(base.plantAll children).1.cells ++ [⟨symbol, (base.plantAll children).2⟩]⟩,
        some (.cell (base.plantAll children).1.cells.length)) := by
  rw [plant]
  · rfl
  · exact proper

theorem plantAll_cons (base : Heap) (child : Tree) (rest : List Tree) :
    base.plantAll (child :: rest) =
      (((base.plant child).1.plantAll rest).1,
        (base.plant child).2 :: ((base.plant child).1.plantAll rest).2) := by
  rw [plantAll]

/-- The heap with a slot's tree planted on it has a copy of the slot, also after it has grown. -/
structure Planted (heap base : Heap) (slot : Option Reference) (planted : Heap)
    (copy : Option Reference) : Prop where
  /-- No cell has changed. -/
  kept : base.cells <+: planted.cells
  /-- The new cells are those of the copy. -/
  mirrors : ∀ grown : Heap, planted.cells <+: grown.cells →
    Mirrors heap grown slot copy base.cells.length planted.cells.length

/-- Nothing is planted for an unfilled slot or a variable. -/
theorem Planted.of_cell {height : Nat} {base : Heap} {slot : Option Reference}
    (cell : ∀ number, slot = some (.cell number) →
      Planted heap base slot (base.plant (heap.treeWithin height slot)).1
        (base.plant (heap.treeWithin height slot)).2) :
    Planted heap base slot (base.plant (heap.treeWithin height slot)).1
      (base.plant (heap.treeWithin height slot)).2 := by
  cases slot with
  | none =>
      rw [treeWithin, plant_hole]
      exact ⟨List.prefix_rfl, fun grown _ => .hole _⟩
  | some reference =>
      cases reference with
      | «variable» place =>
          rw [treeWithin, Tree.leaf, plant_variable]
          exact ⟨List.prefix_rfl, fun grown _ => .variable place _⟩
      | cell number => exact cell number rfl

theorem plantAll_consecutive {height : Nat}
    (plants : ∀ (base : Heap) (slot : Option Reference), heap.Within height slot →
      Planted heap base slot (base.plant (heap.treeWithin height slot)).1
        (base.plant (heap.treeWithin height slot)).2)
    (base : Heap) {slots : List (Option Reference)}
    (within : ∀ slot ∈ slots, heap.Within height slot) {planted : Heap}
    {copies : List (Option Reference)}
    (result : base.plantAll (slots.map (heap.treeWithin height)) = (planted, copies)) :
    base.cells <+: planted.cells ∧ ∀ grown : Heap, planted.cells <+: grown.cells →
      Consecutive (Mirrors heap grown) slots copies base.cells.length planted.cells.length := by
  induction slots generalizing base copies with
  | nil =>
      rw [List.map_nil, plantAll] at result
      cases result
      exact ⟨List.prefix_rfl, fun grown _ => .nil _⟩
  | cons slot rest induction =>
      obtain ⟨first_within, later_within⟩ := List.forall_mem_cons.mp within
      rw [List.map_cons, plantAll_cons] at result
      cases result
      have first := plants base slot first_within
      obtain ⟨kept, later⟩ := induction _ later_within rfl
      exact ⟨first.kept.trans kept, fun grown extended =>
        .cons (first.mirrors grown (kept.trans extended)) first.kept.length_le
          (later grown extended)⟩

/-- Planting the tree of a slot makes a copy of the slot. -/
theorem plant_treeWithin {height : Nat} (base : Heap) {slot : Option Reference}
    (within : heap.Within height slot) :
    Planted heap base slot (base.plant (heap.treeWithin height slot)).1
      (base.plant (heap.treeWithin height slot)).2 := by
  -- The heap that is planted on grows from slot to slot, and later cells leave a copy as it is.
  induction height generalizing base slot with
  | zero =>
      apply Planted.of_cell
      rintro number rfl
      exact within.elim
  | succ height induction =>
      apply Planted.of_cell
      rintro number rfl
      obtain ⟨cell, found, proper, below⟩ := within
      obtain ⟨kept, consecutive⟩ :=
        plantAll_consecutive (fun base slot => induction base) base below rfl
      rw [treeWithin, found, plant_node base proper]
      constructor
      · exact kept.trans (List.prefix_append _ _)
      · intro grown extended
        rw [List.length_append]
        refine .cell found (getElem?_of_isPrefix extended ?_)
          (consecutive grown ((List.prefix_append _ _).trans extended))
        rw [List.getElem?_append_right le_rfl, Nat.sub_self]
        rfl

/-! ## Copies -/

/-- A node has a copy on a heap that has grown. -/
structure Copied (heap cloned : Heap) (original copy : Reference) : Prop where
  /-- No node that was there has changed. -/
  kept : heap.cells <+: cloned.cells
  /-- Every way down leads to the same thing in both, to the same variable or to a new cell. -/
  alike : ∀ path, Alike heap cloned (heap.follow original path) (cloned.follow copy path)
  /-- Every cell of the copy is at one position. -/
  once : ∀ path way number, cloned.follow copy path = some (.cell number) →
    cloned.follow copy way = some (.cell number) → path = way

variable {original copy : Reference}

/-- Every grounded node can be copied. -/
theorem Grounded.clone (grounded : heap.Grounded original) :
    ∃ cloned copy, heap.clone original = (cloned, some copy) ∧
      Copied heap cloned original copy := by
  have planted := plant_treeWithin heap grounded.within
  have mirrors := planted.mirrors _ List.prefix_rfl
  cases result : heap.plant (heap.tree original) with
  | mk cloned slot =>
      rw [tree] at result
      rw [result] at planted mirrors
      cases slot with
      | none => cases mirrors
      | some copy =>
          refine ⟨cloned, copy, result, planted.kept, mirrors.alike le_rfl, ?_⟩
          intro path way number reached reached_too
          exact mirrors.once reached reached_too

/-- A copy has the tree of the original. -/
theorem Copied.tree_eq (copied : Copied heap cloned original copy)
    (grounded : heap.Grounded original) : cloned.tree copy = heap.tree original :=
  calc
    cloned.tree copy = heap.treeWithin cloned.cells.length (some original) :=
      treeWithin_eq_of_alike copied.alike _
    _ = heap.tree original :=
      treeWithin_eq grounded.within (fun _ _ _ => rfl) le_rfl copied.kept.length_le

theorem Copied.keeps (copied : Copied heap cloned original copy)
    (grounded : heap.Grounded original) : heap.Keeps cloned original := by
  intro path number reached
  obtain ⟨cell, found, -⟩ := grounded.proper path number reached
  rw [found, getElem?_of_isPrefix copied.kept found]

/-- A cell on the way down a copy is new. -/
theorem Copied.fresh (copied : Copied heap cloned original copy) {path : List Nat} {number : Nat}
    (reached : cloned.follow copy path = some (.cell number)) :
    heap.cells.length ≤ number ∧ number < cloned.cells.length := by
  have alike := copied.alike path
  rw [reached] at alike
  obtain ⟨old, cell, copies, -, -, made, fresh⟩ := alike.of_cell
  exact ⟨fresh, (List.getElem?_eq_some_iff.mp made).1⟩

/-- A copy is grounded. -/
theorem Copied.grounded (copied : Copied heap cloned original copy)
    (grounded : heap.Grounded original) : cloned.Grounded copy := by
  constructor
  · intro path number reached
    have alike := copied.alike path
    rw [reached] at alike
    obtain ⟨old, cell, copies, reached_old, found, made, -⟩ := alike.of_cell
    obtain ⟨same, found_same, proper⟩ := grounded.proper path old reached_old
    cases found.symm.trans found_same
    exact ⟨_, made, proper⟩
  · intro path number loop reached returned
    have around : cloned.follow copy (path ++ loop) = some (.cell number) := by
      rw [follow_append, reached, Option.bind_some, returned]
    exact List.append_right_eq_self.mp (copied.once _ _ _ around reached)

/-- Filling slots of nodes that are not among the first does not change an original. -/
theorem Copied.original_unchanged (copied : Copied heap cloned original copy)
    (grounded : heap.Grounded original) {changes : List Change}
    (targets : ∀ step ∈ changes, ∀ number, step.target? = some number →
      heap.cells.length ≤ number) :
    cloned.Unchanged (cloned.after changes) original := by
  have kept := copied.keeps grounded
  apply (grounded.kept kept).unchanged_after
  intro path number reached step listed aimed
  rw [kept.follow] at reached
  obtain ⟨cell, found, -⟩ := grounded.proper path number reached
  have present := (List.getElem?_eq_some_iff.mp found).1
  exact absurd present (not_lt.mpr (targets step listed number aimed))

/-- Filling slots of nodes that are not of the copy does not change the copy. -/
theorem Copied.copy_unchanged (copied : Copied heap cloned original copy)
    (grounded : heap.Grounded original) {changes : List Change}
    (targets : ∀ step ∈ changes, ∀ number, step.target? = some number →
      number < heap.cells.length ∨ cloned.cells.length ≤ number) :
    cloned.Unchanged (cloned.after changes) copy := by
  apply (copied.grounded grounded).unchanged_after
  intro path number reached step listed aimed
  obtain ⟨new, made⟩ := copied.fresh reached
  rcases targets step listed number aimed with old | later
  · exact absurd old (not_lt.mpr new)
  · exact absurd made (not_lt.mpr later)

end GeneticProgram.Heap

namespace GeneticProgram.Workspace

/-- Copying a grounded node succeeds and changes no node that is there.  The copy has the same tree,
and so the same source, depth, number of nodes and violations, with the same variables and otherwise
new nodes, each at one position.  Both evaluate alike, and afterwards neither filling slots of new
nodes changes the original nor filling slots of other nodes the copy. -/
theorem clone_copies_and_isolates (workspace : Workspace) (original : Reference)
    (grounded : workspace.heap.Grounded original) :
    ∃ cloned copy, workspace.clone original = ({ workspace with heap := cloned }, some copy) ∧
      workspace.heap.Copied cloned original copy ∧
      cloned.tree copy = workspace.heap.tree original ∧
      workspace.heap.Unchanged cloned original ∧
      (∀ later : Workspace, later.heap = cloned → later.evaluate copy = later.evaluate original) ∧
      (∀ changes : List Heap.Change,
        (∀ step ∈ changes, ∀ number, step.target? = some number →
          workspace.heap.cells.length ≤ number) →
        cloned.Unchanged (cloned.after changes) original) ∧
      ∀ changes : List Heap.Change,
        (∀ step ∈ changes, ∀ number, step.target? = some number →
          number < workspace.heap.cells.length ∨ cloned.cells.length ≤ number) →
        cloned.Unchanged (cloned.after changes) copy := by
  obtain ⟨cloned, copy, result, copied⟩ := grounded.clone
  have kept := copied.keeps grounded
  have unchanged : workspace.heap.Unchanged cloned original :=
    ⟨kept.follow, kept, grounded.tree_eq kept copied.kept.length_le⟩
  refine ⟨cloned, copy, ?_, copied, copied.tree_eq grounded, unchanged, ?_, ?_, ?_⟩
  · rw [Heap.clone] at result
    rw [clone, plant, result]
  · rintro later rfl
    rw [evaluate, evaluate, copied.tree_eq grounded, unchanged.tree]
  · intro changes targets
    exact copied.original_unchanged grounded targets
  · intro changes targets
    exact copied.copy_unchanged grounded targets

/-- A choice whose branches are one node, which has an unfilled slot. -/
def oneBranchTwice : Workspace :=
  { initial with
    heap := ⟨[⟨.action .move 0, []⟩, ⟨.sequence 2, [some (.cell 0), none]⟩,
      ⟨.conditional, [some (.variable ⟨0, "hungry"⟩), some (.cell 1), some (.cell 1)]⟩]⟩ }

theorem layered_oneBranchTwice : oneBranchTwice.heap.Layered := by
  intro number cell found
  rcases number with _ | _ | _ | number
  · cases found
    simp
  · cases found
    simp
  · cases found
    simp
  · cases found

theorem clone_copies_and_isolates_oneBranchTwice :
    oneBranchTwice.heap.Grounded (.cell 2) ∧
      ∃ cloned copy, oneBranchTwice.clone (.cell 2) =
          ({ oneBranchTwice with heap := cloned }, some copy) ∧
        cloned.cells.length = 8 ∧
        cloned.tree copy = oneBranchTwice.heap.tree (.cell 2) ∧
        cloned.Unchanged (cloned.after
          [.create ⟨.boolean true, []⟩, .fill (.cell 1) 1 (some (.cell 8))]) copy := by
  have grounded : oneBranchTwice.heap.Grounded (.cell 2) :=
    layered_oneBranchTwice.grounded (by decide)
  obtain ⟨cloned, copy, result, -, same, -, -, -, isolated⟩ :=
    clone_copies_and_isolates oneBranchTwice (.cell 2) grounded
  have counted : cloned.cells.length = 8 :=
    (congrArg (fun outcome => outcome.1.heap.cells.length) result).symm.trans rfl
  refine ⟨grounded, cloned, copy, result, counted, same, isolated _ ?_⟩
  intro step listed number aimed
  rcases List.mem_pair.mp listed with rfl | rfl
  · cases aimed
  · cases aimed
    exact .inl (by decide)

end GeneticProgram.Workspace
