import GeneticProgram.Symbol

/-!
# Program trees

A program is a tree of symbols.  A node has one slot for each argument of its symbol, and a slot
that has not been filled is a hole.  The functions here look at the shape of a tree only.
-/

namespace GeneticProgram

/-- A program tree, or the hole where one is missing. -/
inductive Tree
  | hole
  | node (symbol : Symbol) (children : List Tree)

/-- One node as a traversal meets it. -/
structure Visit where
  /-- The symbol of the parent and the slot in it; nothing at the root. -/
  place : Option (Symbol × Nat)
  /-- The symbol of the node. -/
  symbol : Symbol
  /-- What fills the slots of the node. -/
  children : List Tree

namespace Tree

/-- The tree is missing. -/
def isHole : Tree → Bool
  | .hole => true
  | .node _ _ => false

/-- The tree of a symbol without arguments. -/
def leaf (symbol : Symbol) : Tree := .node symbol []

/-- A node with all its slots unfilled. -/
def bare (symbol : Symbol) : Tree := .node symbol (List.replicate symbol.arity .hole)

mutual

/-- The number of nodes on the longest way down; none for a hole. -/
def depth : Tree → Nat
  | .hole => 0
  | .node _ children => 1 + deepest children

/-- The greatest depth of several trees. -/
def deepest : List Tree → Nat
  | [] => 0
  | child :: rest => max child.depth (deepest rest)

end

mutual

/-- The nodes in depth-first order from left to right, holes left out. -/
def visitsAt (place : Option (Symbol × Nat)) : Tree → List Visit
  | .hole => []
  | .node symbol children => ⟨place, symbol, children⟩ :: visitsFrom symbol 0 children

/-- The nodes of the children of a symbol from a slot on. -/
def visitsFrom (parent : Symbol) (slot : Nat) : List Tree → List Visit
  | [] => []
  | child :: rest => child.visitsAt (some (parent, slot)) ++ visitsFrom parent (slot + 1) rest

end

/-- The nodes of a tree in depth-first order from left to right. -/
def visits (tree : Tree) : List Visit := tree.visitsAt none

/-- The number of nodes. -/
def nodeCount (tree : Tree) : Nat := tree.visits.length

/-- The symbols of all nodes in depth-first order. -/
def symbols (tree : Tree) : List Symbol := tree.visits.map Visit.symbol

theorem map_symbol_visitsAt (place : Option (Symbol × Nat)) (tree : Tree) :
    (tree.visitsAt place).map Visit.symbol = tree.symbols := by
  cases tree with
  | hole => rfl
  | node symbol children => rfl

theorem map_symbol_visitsFrom (parent : Symbol) (slot : Nat) (children : List Tree) :
    (visitsFrom parent slot children).map Visit.symbol = children.flatMap symbols := by
  induction children generalizing slot with
  | nil => rfl
  | cons child rest induction =>
    rw [visitsFrom, List.map_append, map_symbol_visitsAt, induction, List.flatMap_cons]

/-- The symbols of a node are its own and those of its children. -/
theorem symbols_node (symbol : Symbol) (children : List Tree) :
    (node symbol children).symbols = symbol :: children.flatMap symbols :=
  congrArg (symbol :: ·) (map_symbol_visitsFrom symbol 0 children)

/-- What holds of every symbol of a node holds of its own and of those of its children. -/
theorem forall_symbols_node_iff {property : Symbol → Prop} {symbol : Symbol}
    {children : List Tree} :
    (∀ found ∈ (node symbol children).symbols, property found) ↔
      property symbol ∧ ∀ child ∈ children, ∀ found ∈ child.symbols, property found := by
  rw [symbols_node, List.forall_mem_cons]
  simp only [List.mem_flatMap, forall_exists_index, and_imp]
  exact and_congr_right fun _ =>
    ⟨fun all child listed found member => all found child listed member,
      fun all found child listed member => all child listed found member⟩

end Tree
end GeneticProgram
