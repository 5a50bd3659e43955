import GeneticProgram.Proofs.ParserSteps
import GeneticProgram.Tree.Verification

/-!
# Complete trees

A tree is complete if every node in it has one child for each argument of its symbol.  A complete
tree passes the verification of arities, and whatever is read is complete.  A tree whose nodes have
the right number of slots is complete if it passes.
-/

namespace GeneticProgram

namespace Tree

/-- Every node has as many children as its symbol has arguments, and none of them is missing. -/
inductive Complete : Tree → Prop
  | node {symbol : Symbol} {children : List Tree} (filled : children.length = symbol.arity)
      (below : ∀ child ∈ children, Complete child) : Complete (.node symbol children)

theorem Complete.isHole {tree : Tree} (complete : Complete tree) : tree.isHole = false := by
  cases complete
  rfl

theorem holesFrom_eq_nil {children : List Tree} (filled : ∀ child ∈ children, child.isHole = false)
    (slot : Nat) : holesFrom slot children = [] := by
  induction children generalizing slot with
  | nil => rfl
  | cons child rest induction =>
      have child_filled := filled child List.mem_cons_self
      rw [holesFrom, child_filled]
      exact induction (fun other member => filled other (List.mem_cons_of_mem child member)) _

theorem exists_of_mem_visitsFrom {parent : Symbol} {slot : Nat} {children : List Tree}
    {visit : Visit} (member : visit ∈ visitsFrom parent slot children) :
    ∃ child ∈ children, ∃ place, visit ∈ child.visitsAt place := by
  induction children generalizing slot with
  | nil => cases member
  | cons child rest induction =>
      rw [visitsFrom] at member
      rcases List.mem_append.mp member with here | later
      · exact ⟨child, List.mem_cons_self, _, here⟩
      · obtain ⟨found, listed, place, visited⟩ := induction later
        exact ⟨found, List.mem_cons_of_mem child listed, place, visited⟩

/-- No node of a complete tree has a hole among its children. -/
theorem Complete.of_mem_visitsAt {tree : Tree} (complete : Complete tree)
    {place : Option (Symbol × Nat)} {visit : Visit} (member : visit ∈ tree.visitsAt place) :
    ∀ child ∈ visit.children, child.isHole = false := by
  induction complete generalizing place with
  | @node symbol children filled below induction =>
      rw [visitsAt] at member
      rcases List.mem_cons.mp member with rfl | later
      · exact fun child listed => (below child listed).isHole
      · obtain ⟨child, listed, inner, visited⟩ := exists_of_mem_visitsFrom later
        exact induction child listed visited

/-- A complete tree passes the verification of arities. -/
theorem Complete.arityViolations {tree : Tree} (complete : Complete tree) :
    tree.arityViolations = [] := by
  refine List.filterMap_eq_nil_iff.mpr fun visit member => ?_
  rw [holesFrom_eq_nil (complete.of_mem_visitsAt member)]
  rfl

/-- The violations of a node are its own, if it has holes, and those of its children. -/
theorem arityViolations_node (symbol : Symbol) (children : List Tree) :
    (node symbol children).arityViolations =
      (if (holesFrom 0 children).isEmpty then []
        else [.missing symbol.identifier symbol.arity (holesFrom 0 children)]) ++
        children.flatMap arityViolations := by
  have below : ∀ (trees : List Tree) (slot : Nat),
      (visitsFrom symbol slot trees).filterMap (fun visit =>
        if (holesFrom 0 visit.children).isEmpty then none
        else some (.missing visit.symbol.identifier visit.symbol.arity
          (holesFrom 0 visit.children))) = trees.flatMap arityViolations := by
    intro trees
    induction trees with
    | nil => exact fun slot => rfl
    | cons child rest induction =>
        intro slot
        rw [visitsFrom, List.filterMap_append, induction, List.flatMap_cons]
        cases child with
        | hole => rfl
        | node inner deeper => rfl
  rw [arityViolations, visits, visitsAt, List.filterMap_cons]
  by_cases filled : (holesFrom 0 children).isEmpty = true
  · simp only [below, if_pos filled, List.nil_append]
  · simp only [below, if_neg filled, List.singleton_append]

theorem isHole_of_holesFrom {children : List Tree} {slot : Nat}
    (filled : holesFrom slot children = []) : ∀ child ∈ children, child.isHole = false := by
  induction children generalizing slot with
  | nil => exact List.forall_mem_nil _
  | cons child rest induction =>
      rw [holesFrom] at filled
      split at filled
      · cases filled
      · rename_i present
        exact List.forall_mem_cons.mpr ⟨Bool.eq_false_iff.mpr present, induction filled⟩

/-- Every node has as many slots as its symbol has arguments. -/
inductive Shaped : Tree → Prop
  | hole : Shaped .hole
  | node {symbol : Symbol} {children : List Tree} (counted : children.length = symbol.arity)
      (below : ∀ child ∈ children, Shaped child) : Shaped (.node symbol children)

/-- A tree with the right number of slots that passes the verification of arities is complete. -/
theorem Shaped.complete {tree : Tree} (shaped : tree.Shaped) (present : tree.isHole = false)
    (verified : tree.arityViolations = []) : tree.Complete := by
  induction shaped with
  | hole => cases present
  | @node symbol children counted below induction =>
      rw [arityViolations_node, List.append_eq_nil_iff, List.flatMap_eq_nil_iff] at verified
      obtain ⟨own, others⟩ := verified
      have filled : holesFrom 0 children = [] := by
        split at own
        · rename_i filled
          exact List.isEmpty_iff.mp filled
        · cases own
      exact .node counted fun child member =>
        induction child member (isHole_of_holesFrom filled child member) (others child member)

end Tree

/-- Whatever is read is complete. -/
theorem Language.parseAt_complete {language : Language} {context : Option Context} {depth : Nat}
    {text : List Char} {tree : Tree} (read : language.parseAt context depth text = .ok tree) :
    tree.Complete := by
  refine parseAt_induction (motive := fun _ _ tree => tree.Complete) ?_ ?_ read
  · intro depth text symbol permitted bare found
    have nullary : symbol.arity = 0 := by
      rcases Source.terminal?_cases found with ⟨truth, rfl⟩ | ⟨place, rfl, -⟩ | ⟨number, rfl⟩
      all_goals rfl
    exact .node nullary.symm (by simp)
  · intro depth name after inner arguments symbol children permitted plain closed splitting resolved
      counted below
    refine .node (below.length_eq.symm.trans counted.symm) fun child member => ?_
    obtain ⟨argument, -, -, complete⟩ := Outcome.exists_of_forall₂ below member
    exact complete

end GeneticProgram
