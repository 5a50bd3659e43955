import GeneticProgram.Heap
import Mathlib.Data.Fintype.Pigeonhole

/-!
# Ways down a heap

A way down from a node is given by the slots that it takes.  A node is grounded if every way down
from it meets only cells that exist and none comes back to a cell that it has left; then no way
down is longer than the number of cells, and the tree of the node is the whole of what is below it.
What is below a node depends on the cells that are reached from it and on nothing else.
-/

namespace GeneticProgram.Heap

variable {heap other : Heap} {reference : Reference}

/-- What a slot of a node is filled with. -/
def child? (heap : Heap) (reference : Reference) (slot : Nat) : Option Reference :=
  (heap.cell? reference).bind fun cell => cell.slots[slot]?.join

/-- The end of the way down from a node that takes the given slots. -/
def follow (heap : Heap) (reference : Reference) : List Nat → Option Reference
  | [] => some reference
  | slot :: rest => (heap.child? reference slot).bind fun child => heap.follow child rest

theorem follow_cons (slot : Nat) (rest : List Nat) :
    heap.follow reference (slot :: rest) =
      (heap.child? reference slot).bind fun child => heap.follow child rest := rfl

theorem follow_singleton (slot : Nat) :
    heap.follow reference [slot] = heap.child? reference slot := by
  rw [follow_cons]
  exact Option.bind_fun_some _

theorem follow_append (first second : List Nat) :
    heap.follow reference (first ++ second) =
      (heap.follow reference first).bind fun middle => heap.follow middle second := by
  induction first generalizing reference with
  | nil => rfl
  | cons slot rest induction =>
      rw [List.cons_append, follow_cons, follow_cons]
      cases heap.child? reference slot with
      | none => rfl
      | some child => exact induction

theorem child?_variable (place : Variable) (slot : Nat) :
    heap.child? (.variable place) slot = none := by
  simp [child?, cell?]

theorem child?_cell {number : Nat} {cell : Cell} (found : heap.cells[number]? = some cell)
    (slot : Nat) : heap.child? (.cell number) slot = cell.slots[slot]?.join := by
  simp [child?, cell?, found]

theorem follow_variable {place : Variable} {path : List Nat} {number : Nat} :
    heap.follow (.variable place) path ≠ some (.cell number) := by
  intro reached
  cases path with
  | nil => cases reached
  | cons slot rest =>
      rw [follow_cons, child?_variable] at reached
      cases reached

/-- Every way down meets only cells that exist, none of them a variable, and none comes back to a
cell that it has left. -/
structure Grounded (heap : Heap) (reference : Reference) : Prop where
  /-- A cell that is reached exists, and it is no variable. -/
  proper : ∀ path number, heap.follow reference path = some (.cell number) →
    ∃ cell, heap.cells[number]? = some cell ∧ ∀ place, cell.symbol ≠ .variable place
  /-- A cell that is reached is not reached again from itself. -/
  acyclic : ∀ path number loop, heap.follow reference path = some (.cell number) →
    heap.follow (.cell number) loop = some (.cell number) → loop = []

/-- What is reached from a grounded node is grounded. -/
theorem Grounded.reached (grounded : heap.Grounded reference) {path : List Nat} {node : Reference}
    (reached : heap.follow reference path = some node) : heap.Grounded node := by
  have onward : ∀ further, heap.follow reference (path ++ further) = heap.follow node further := by
    intro further
    rw [follow_append, reached, Option.bind_some]
  constructor
  · intro further number found
    exact grounded.proper (path ++ further) number ((onward further).trans found)
  · intro further number loop found
    exact grounded.acyclic (path ++ further) number loop ((onward further).trans found)

/-- The cells refer only to earlier cells, and none is labelled with a variable. -/
def Layered (heap : Heap) : Prop :=
  ∀ (number : Nat) (cell : Cell), heap.cells[number]? = some cell →
    (∀ place, cell.symbol ≠ .variable place) ∧
      ∀ child, some (.cell child) ∈ cell.slots → child < number

/-- On a layered heap every step down leads to an earlier cell. -/
theorem Layered.follow_le (layered : heap.Layered) {number last : Nat} {path : List Nat}
    (reached : heap.follow (.cell number) path = some (.cell last)) :
    last + path.length ≤ number := by
  induction path generalizing number with
  | nil =>
      cases reached
      exact le_rfl
  | cons slot rest induction =>
      rw [follow_cons, Option.bind_eq_some_iff] at reached
      obtain ⟨child, filled, onward⟩ := reached
      rw [child?, Option.bind_eq_some_iff] at filled
      obtain ⟨cell, found, placed⟩ := filled
      cases child with
      | «variable» place => exact absurd onward follow_variable
      | cell next =>
          have listed := List.mem_of_getElem? (Option.join_eq_some_iff.mp placed)
          have lower := (layered number cell found).2 next listed
          have deeper := induction onward
          rw [List.length_cons]
          omega

/-- Every node on a layered heap is grounded. -/
theorem Layered.grounded (layered : heap.Layered) {number : Nat}
    (present : number < heap.cells.length) : heap.Grounded (.cell number) := by
  constructor
  · intro path last reached
    have deeper := layered.follow_le reached
    have found := List.getElem?_eq_getElem (show last < heap.cells.length by omega)
    exact ⟨_, found, (layered last _ found).1⟩
  · intro path last loop reached returned
    have deeper := layered.follow_le returned
    exact List.length_eq_zero_iff.mp (by omega)

/-- Every way down from a slot ends after so many cells, all of which exist. -/
def Within (heap : Heap) : Nat → Option Reference → Prop
  | _, none => True
  | _, some (.variable _) => True
  | 0, some (.cell _) => False
  | height + 1, some (.cell number) => ∃ cell, heap.cells[number]? = some cell ∧
      (∀ place, cell.symbol ≠ .variable place) ∧ ∀ slot ∈ cell.slots, heap.Within height slot

/-- A node with a way down that does not end within some cells has one of that length. -/
theorem exists_follow_of_not_within {height : Nat} (grounded : heap.Grounded reference)
    (deep : ¬heap.Within height (some reference)) :
    ∃ path number, path.length = height ∧ heap.follow reference path = some (.cell number) := by
  induction height generalizing reference with
  | zero =>
      cases reference with
      | «variable» place => exact absurd trivial deep
      | cell number => exact ⟨[], number, rfl, rfl⟩
  | succ height induction =>
      cases reference with
      | «variable» place => exact absurd trivial deep
      | cell number =>
          obtain ⟨cell, found, own⟩ := grounded.proper [] number rfl
          have below : ∃ slot ∈ cell.slots, ¬heap.Within height slot := by
            by_contra shallow
            push Not at shallow
            exact deep ⟨cell, found, own, shallow⟩
          obtain ⟨slot, listed, deep_slot⟩ := below
          obtain ⟨index, placed⟩ := List.mem_iff_getElem?.mp listed
          cases slot with
          | none => exact absurd (by cases height <;> trivial) deep_slot
          | some child =>
              have filled : heap.child? (.cell number) index = some child := by
                rw [child?_cell found, placed, Option.join_some]
              obtain ⟨path, last, length_eq, reached⟩ :=
                induction (grounded.reached ((follow_singleton index).trans filled)) deep_slot
              refine ⟨index :: path, last, congrArg (· + 1) length_eq, ?_⟩
              rw [follow_cons, filled, Option.bind_some, reached]

/-- No way down from a grounded node is longer than the number of cells. -/
theorem Grounded.within (grounded : heap.Grounded reference) :
    heap.Within heap.cells.length (some reference) := by
  by_contra deep
  obtain ⟨path, last, length_eq, reached⟩ := exists_follow_of_not_within grounded deep
  -- The cells at the ends of the beginnings of the path are one more than there are cells.
  have stages : ∀ steps : Fin (heap.cells.length + 1), ∃ number : Fin heap.cells.length,
      heap.follow reference (path.take steps) = some (.cell number) := by
    intro steps
    have whole : heap.follow reference (path.take steps ++ path.drop steps) =
        some (.cell last) := by
      rw [List.take_append_drop]
      exact reached
    rw [follow_append] at whole
    obtain ⟨stage, reached_stage, onward⟩ := Option.bind_eq_some_iff.mp whole
    cases stage with
    | «variable» place => exact absurd onward follow_variable
    | cell number =>
        obtain ⟨cell, found, -⟩ := grounded.proper _ number reached_stage
        exact ⟨⟨number, (List.getElem?_eq_some_iff.mp found).1⟩, reached_stage⟩
  choose stage reached_stage using stages
  obtain ⟨first, second, different, same⟩ :=
    Fintype.exists_ne_map_eq_of_card_lt stage (by simp)
  wlog earlier : first < second generalizing first second
  · exact this second first different.symm same.symm
      (lt_of_le_of_ne (not_lt.mp earlier) different.symm)
  have split : path.take second = path.take first ++ (path.take second).drop first := by
    have parts := List.take_append_drop first (path.take second)
    rw [List.take_take, Nat.min_eq_left (Nat.le_of_lt earlier)] at parts
    exact parts.symm
  have returned := reached_stage second
  rw [split, follow_append, reached_stage first, Option.bind_some, ← same] at returned
  have stays := grounded.acyclic _ _ _ (reached_stage first) returned
  have lengths := congrArg List.length stays
  simp only [List.length_drop, List.length_take, List.length_nil] at lengths
  omega

/-! ## What is below a node -/

/-- A heap has the cells that are reached from a node in another. -/
def Keeps (heap other : Heap) (reference : Reference) : Prop :=
  ∀ path number, heap.follow reference path = some (.cell number) →
    other.cells[number]? = heap.cells[number]?

theorem Keeps.child? (kept : heap.Keeps other reference) (slot : Nat) :
    other.child? reference slot = heap.child? reference slot := by
  cases reference with
  | «variable» place => rw [child?_variable, child?_variable]
  | cell number => rw [Heap.child?, Heap.child?, cell?, cell?, kept [] number rfl]

theorem Keeps.reached (kept : heap.Keeps other reference) {path : List Nat} {node : Reference}
    (reached : heap.follow reference path = some node) : heap.Keeps other node := by
  intro further number onward
  apply kept (path ++ further) number
  rw [follow_append, reached, Option.bind_some, onward]

/-- The ways down from a node are those of any heap that has the cells on them. -/
theorem Keeps.follow (kept : heap.Keeps other reference) (path : List Nat) :
    other.follow reference path = heap.follow reference path := by
  induction path generalizing reference with
  | nil => rfl
  | cons slot rest induction =>
      rw [follow_cons, follow_cons, kept.child?]
      cases filled : heap.child? reference slot with
      | none => rfl
      | some child => exact induction (kept.reached ((follow_singleton slot).trans filled))

/-- A grounded node is grounded on every heap that has the cells below it. -/
theorem Grounded.kept (grounded : heap.Grounded reference) (kept : heap.Keeps other reference) :
    other.Grounded reference := by
  constructor
  · intro path number found
    rw [kept.follow] at found
    rw [kept path number found]
    exact grounded.proper path number found
  · intro path number loop found returned
    rw [kept.follow] at found
    rw [(kept.reached found).follow] at returned
    exact grounded.acyclic path number loop found returned

/-- The tree of a slot takes no more steps than its ways down are long. -/
theorem treeWithin_eq {height fuel more : Nat} (within : heap.Within height (some reference))
    (kept : heap.Keeps other reference) (enough : height ≤ fuel) (plenty : height ≤ more) :
    other.treeWithin more (some reference) = heap.treeWithin fuel (some reference) := by
  induction height generalizing reference fuel more with
  | zero =>
      cases reference with
      | «variable» place => rw [treeWithin, treeWithin]
      | cell number => exact within.elim
  | succ height induction =>
      cases reference with
      | «variable» place => rw [treeWithin, treeWithin]
      | cell number =>
          obtain ⟨fuel, rfl⟩ := Nat.exists_eq_add_of_le' enough
          obtain ⟨more, rfl⟩ := Nat.exists_eq_add_of_le' plenty
          obtain ⟨cell, found, -, below⟩ := within
          have kept_cell := (kept [] number rfl).trans found
          rw [← Nat.add_assoc, ← Nat.add_assoc, treeWithin, treeWithin, found, kept_cell]
          refine congrArg (Tree.node cell.symbol) (List.map_congr_left fun slot listed => ?_)
          cases slot with
          | none => rw [treeWithin, treeWithin]
          | some child =>
              obtain ⟨index, placed⟩ := List.mem_iff_getElem?.mp listed
              have filled : heap.child? (.cell number) index = some child := by
                rw [child?_cell found, placed, Option.join_some]
              have kept_child := kept.reached ((follow_singleton index).trans filled)
              exact induction (below _ listed) kept_child (Nat.le_add_left _ _)
                (Nat.le_add_left _ _)

/-- A grounded node has the same tree on every larger heap that has the cells below it. -/
theorem Grounded.tree_eq (grounded : heap.Grounded reference) (kept : heap.Keeps other reference)
    (larger : heap.cells.length ≤ other.cells.length) :
    other.tree reference = heap.tree reference :=
  treeWithin_eq grounded.within kept le_rfl larger

/-! ## Changes -/

/-- A change of a heap: a node is made, or a slot is filled. -/
inductive Change
  | create (cell : Cell)
  | fill (target : Reference) (slot : Int) (child : Option Reference)

/-- The cell of which a change fills a slot. -/
def Change.target? : Change → Option Nat
  | .create _ => none
  | .fill (.variable _) _ _ => none
  | .fill (.cell number) _ _ => some number

/-- The heap after a change; a slot that is refused leaves it as it is. -/
def change (heap : Heap) : Change → Heap
  | .create cell => (heap.allocate cell).1
  | .fill target slot child =>
    match heap.setSlot target slot child with
    | .ok filled => filled
    | .error _ => heap

/-- The heap after several changes. -/
def after (heap : Heap) (changes : List Change) : Heap := changes.foldl change heap

/-- A heap on which a slot is filled differs in one cell. -/
theorem setSlot_cases {target : Reference} {slot : Int} {child : Option Reference} {filled : Heap}
    (accepted : heap.setSlot target slot child = .ok filled) :
    filled = heap ∨ ∃ number cell, target = .cell number ∧
      filled.cells = heap.cells.set number cell := by
  rw [setSlot] at accepted
  cases found : heap.cell? target with
  | none =>
      rw [found] at accepted
      cases accepted
  | some cell =>
      rw [found] at accepted
      by_cases inRange : 0 ≤ slot ∧ slot < cell.symbol.arity
      · cases target with
        | «variable» place =>
            simp only [if_pos inRange, Except.ok.injEq] at accepted
            exact .inl accepted.symm
        | cell number =>
            simp only [if_pos inRange, Except.ok.injEq] at accepted
            exact .inr ⟨number, _, rfl, congrArg cells accepted.symm⟩
      · simp only [if_neg inRange, reduceCtorEq] at accepted

/-- A change keeps every cell but the one whose slot it fills. -/
theorem change_cells {step : Change} {number : Nat} (present : number < heap.cells.length)
    (apart : step.target? ≠ some number) :
    (heap.change step).cells[number]? = heap.cells[number]? := by
  cases step with
  | create cell => exact List.getElem?_append_left present
  | fill target slot child =>
      rw [change]
      cases accepted : heap.setSlot target slot child with
      | error refusal => rfl
      | ok filled =>
          rcases setSlot_cases accepted with rfl | ⟨other, cell, rfl, cells_eq⟩
          · rfl
          · have different : other ≠ number := by
              rintro rfl
              exact apart rfl
            rw [cells_eq, List.getElem?_set_ne different]

theorem length_le_change (step : Change) : heap.cells.length ≤ (heap.change step).cells.length := by
  cases step with
  | create cell => simp [change, allocate]
  | fill target slot child =>
      rw [change]
      cases accepted : heap.setSlot target slot child with
      | error refusal => exact le_rfl
      | ok filled =>
          rcases setSlot_cases accepted with rfl | ⟨other, cell, -, cells_eq⟩
          · exact le_rfl
          · rw [cells_eq, List.length_set]

theorem length_le_after (changes : List Change) :
    heap.cells.length ≤ (heap.after changes).cells.length := by
  induction changes generalizing heap with
  | nil => exact le_rfl
  | cons step rest induction => exact (length_le_change step).trans induction

/-- Changes keep every cell of which none of them fills a slot. -/
theorem after_cells {changes : List Change} {number : Nat} (present : number < heap.cells.length)
    (apart : ∀ step ∈ changes, step.target? ≠ some number) :
    (heap.after changes).cells[number]? = heap.cells[number]? := by
  induction changes generalizing heap with
  | nil => rfl
  | cons step rest induction =>
      obtain ⟨first, later⟩ := List.forall_mem_cons.mp apart
      calc
        (heap.after (step :: rest)).cells[number]? = (heap.change step).cells[number]? :=
          induction (present.trans_le (length_le_change step)) later
        _ = heap.cells[number]? := change_cells present first

/-- Nothing that can be seen of a node is different on another heap. -/
structure Unchanged (heap other : Heap) (reference : Reference) : Prop where
  /-- The ways down lead to the same nodes. -/
  ways : ∀ path, other.follow reference path = heap.follow reference path
  /-- The nodes on them have the same symbols and the same slots. -/
  cells : heap.Keeps other reference
  /-- The tree is the same. -/
  tree : other.tree reference = heap.tree reference

/-- A grounded node is not changed by changes of nodes that are not below it. -/
theorem Grounded.unchanged_after (grounded : heap.Grounded reference) {changes : List Change}
    (apart : ∀ path number, heap.follow reference path = some (.cell number) →
      ∀ step ∈ changes, step.target? ≠ some number) :
    heap.Unchanged (heap.after changes) reference := by
  have kept : heap.Keeps (heap.after changes) reference := by
    intro path number reached
    obtain ⟨cell, found, -⟩ := grounded.proper path number reached
    exact after_cells (List.getElem?_eq_some_iff.mp found).1 (apart path number reached)
  exact ⟨kept.follow, kept, grounded.tree_eq kept (length_le_after changes)⟩

end GeneticProgram.Heap
