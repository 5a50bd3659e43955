import GeneticProgram.Tree.Basic

/-!
# Heaps of nodes

Nodes that are assembled by hand live on a heap, where several slots may refer to one node and a
slot can be filled again.  A variable is its own reference, so that all its occurrences are one
node.  What a reference stands for is a tree; a copy is that tree planted anew.
-/

namespace GeneticProgram

/-- A reference to a node: a variable, or a cell of the heap. -/
inductive Reference
  | variable (place : Variable)
  | cell (number : Nat)
deriving DecidableEq

/-- A node on the heap. -/
structure Cell where
  /-- The symbol of the node. -/
  symbol : Symbol
  /-- What the slots refer to. -/
  slots : List (Option Reference)

/-- Nodes by their numbers. -/
structure Heap where
  /-- The cells in the order of their creation. -/
  cells : List Cell

/-- Why a slot is refused. -/
inductive SlotError
  | noSlot (name : String) (arity : Nat) (index : Int)
  | outOfRange
deriving DecidableEq

/-- The wording of a refusal. -/
def SlotError.message : SlotError → String
  | .noSlot name arity index => s!"{name} has arity {arity}, no child slot {index}"
  | .outOfRange => "list index out of range"

namespace Heap

/-- A heap without cells. -/
def empty : Heap := ⟨[]⟩

/-- Add a cell; its number is the number of cells before. -/
def allocate (heap : Heap) (cell : Cell) : Heap × Reference :=
  (⟨heap.cells ++ [cell]⟩, .cell heap.cells.length)

/-- The cell that a reference leads to; a variable has a cell without slots. -/
def cell? (heap : Heap) : Reference → Option Cell
  | .variable place => some ⟨.variable place, []⟩
  | .cell number => heap.cells[number]?

/-- The tree that a slot stands for, down to a number of cells. -/
def treeWithin (heap : Heap) : Nat → Option Reference → Tree
  | _, none => .hole
  | _, some (.variable place) => .leaf (.variable place)
  | 0, some (.cell _) => .hole
  | fuel + 1, some (.cell number) =>
    match heap.cells[number]? with
    | none => .hole
    | some cell => .node cell.symbol (cell.slots.map (heap.treeWithin fuel))

/-- The tree that a reference stands for.  On a heap without cycles no way down is longer than the
number of cells. -/
def tree (heap : Heap) (reference : Reference) : Tree :=
  heap.treeWithin heap.cells.length (some reference)

mutual

/-- Put a tree on the heap, every node but the variables on a new cell. -/
def plant (heap : Heap) : Tree → Heap × Option Reference
  | .hole => (heap, none)
  | .node symbol children =>
    match symbol with
    | .variable place => (heap, some (.variable place))
    | _ =>
      let (planted, slots) := heap.plantAll children
      let (extended, reference) := planted.allocate ⟨symbol, slots⟩
      (extended, some reference)

/-- Put several trees on the heap. -/
def plantAll (heap : Heap) : List Tree → Heap × List (Option Reference)
  | [] => (heap, [])
  | child :: rest =>
    let (first, slot) := heap.plant child
    let (last, slots) := first.plantAll rest
    (last, slot :: slots)

end

/-- A copy of a node with everything below it; only the variables are shared. -/
def clone (heap : Heap) (reference : Reference) : Heap × Option Reference :=
  heap.plant (heap.tree reference)

/-- Fill a slot of a node. -/
def setSlot (heap : Heap) (reference : Reference) (index : Int) (child : Option Reference) :
    Except SlotError Heap :=
  match heap.cell? reference with
  | none => .error .outOfRange
  | some cell =>
    if 0 ≤ index ∧ index < cell.symbol.arity then
      match reference with
      | .variable _ => .ok heap
      | .cell number =>
        .ok ⟨heap.cells.set number { cell with slots := cell.slots.set index.toNat child }⟩
    else .error (.noSlot cell.symbol.identifier cell.symbol.arity index)

/-- What a slot of a node refers to; a negative index counts from the last slot. -/
def slot (heap : Heap) (reference : Reference) (index : Int) :
    Except SlotError (Option Reference) :=
  match heap.cell? reference with
  | none => .error .outOfRange
  | some cell =>
    let position := if index < 0 then index + cell.slots.length else index
    if position < 0 then .error .outOfRange
    else match cell.slots[position.toNat]? with
      | some found => .ok found
      | none => .error .outOfRange

end Heap
end GeneticProgram
