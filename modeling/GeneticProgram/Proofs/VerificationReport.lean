import GeneticProgram.Proofs.NodeEnumeration
import GeneticProgram.Proofs.ReadTrees

/-!
# The report of a verification

The report that is due for a node is stated on the heap, without its tree: the unfilled slots of
every node in the order of the paths to it, then the length of the longest path and the number of
paths where these exceed their limits.  A verification, which goes over the tree three times,
reports just that, so that it passes exactly if all slots are filled and both limits are kept.
-/

namespace GeneticProgram

/-! ## Unfilled slots -/

namespace Cell

/-- The numbers of the unfilled slots in ascending order. -/
def emptySlots (cell : Cell) : List Nat :=
  (List.range cell.slots.length).filter fun slot => cell.slots[slot]? = some none

/-- What is reported of a node: its unfilled slots, if it has any. -/
def report? (cell : Cell) : Option String :=
  if cell.emptySlots = [] then none
  else some (s!"{cell.symbol.identifier} expects {cell.symbol.arity} arguments, missing slots " ++
    Violation.numbersText cell.emptySlots)

theorem emptySlots_eq_nil_iff (cell : Cell) : cell.emptySlots = [] ↔ none ∉ cell.slots := by
  rw [emptySlots, List.filter_eq_nil_iff]
  constructor
  · intro filled listed
    obtain ⟨slot, found⟩ := List.mem_iff_getElem?.mp listed
    have inside := (List.getElem?_eq_some_iff.mp found).1
    exact filled slot (List.mem_range.mpr inside) (decide_eq_true found)
  · intro filled slot _ found
    exact filled (List.mem_of_getElem? (of_decide_eq_true found))

theorem report?_eq_none_iff (cell : Cell) : cell.report? = none ↔ none ∉ cell.slots := by
  rw [← emptySlots_eq_nil_iff, report?]
  split
  · rename_i filled
    exact iff_of_true rfl filled
  · rename_i unfilled
    exact iff_of_false (Option.some_ne_none _) unfilled

end Cell

namespace Heap

variable {heap : Heap} {root : Reference}

theorem Grounded.of_mem_slots (grounded : heap.Grounded root) {cell : Cell}
    (found : heap.cell? root = some cell) {child : Reference} (listed : some child ∈ cell.slots) :
    heap.Grounded child := by
  obtain ⟨slot, placed⟩ := List.mem_iff_getElem?.mp listed
  apply @Grounded.reached heap root grounded [slot] child
  rw [follow_singleton, child?, found, Option.bind_some, placed, Option.join_some]

/-- The holes among the trees of several slots are the unfilled slots. -/
theorem holesFrom_map_slotTree {slots : List (Option Reference)}
    (grounded : ∀ child, some child ∈ slots → heap.Grounded child) (start : Nat) :
    Tree.holesFrom start (slots.map heap.slotTree) =
      ((List.range slots.length).filter fun slot => slots[slot]? = some none).map
        (start + ·) := by
  induction slots generalizing start with
  | nil => rfl
  | cons slot rest induction =>
      have later := induction (fun child listed => grounded child (List.mem_cons_of_mem _ listed))
        (start + 1)
      -- The slots behind the first have numbers one greater than among themselves.
      have shifted : ((List.range rest.length).map Nat.succ).filter
            (fun index => (slot :: rest)[index]? = some none) =
          ((List.range rest.length).filter fun index => rest[index]? = some none).map
            Nat.succ := by
        rw [List.filter_map]
        rfl
      have moved : (start + ·) ∘ Nat.succ = (start + 1 + ·) := by
        funext index
        exact (Nat.succ_add_eq_add_succ start index).symm
      rw [List.map_cons, Tree.holesFrom, later, List.length_cons, List.range_succ_eq_map,
        List.filter_cons, shifted]
      cases slot with
      | none => simp [slotTree, Tree.isHole, moved]
      | some child =>
          have filled := (grounded child List.mem_cons_self).isHole_tree
          simp [slotTree, filled, moved]

/-! ## The report that is due -/

/-- What is reported of the node at the end of a path. -/
def report? (heap : Heap) (root : Reference) (path : List Nat) : Option String :=
  (heap.follow root path).bind fun node => (heap.cell? node).bind Cell.report?

/-- The report that is due where the paths from a node are the given ones and the longest has the
given length: the nodes with unfilled slots, then the depth, then the number of nodes. -/
def dueReport (heap : Heap) (root : Reference) (paths : List (List Nat)) (longest : Nat)
    (depthLimit countLimit : Int) : List String :=
  paths.filterMap (heap.report? root) ++
    (if depthLimit < longest + 1 then
      [s!"Tree depth {longest + 1} exceeds maximum allowed depth {depthLimit}"] else []) ++
    (if countLimit < paths.length then
      [s!"Tree has {paths.length} nodes, exceeds maximum allowed {countLimit}"] else [])

/-- Every slot of a node that a path leads to is filled. -/
def Filled (heap : Heap) (root : Reference) : Prop :=
  ∀ path node cell, heap.follow root path = some node → heap.cell? node = some cell →
    none ∉ cell.slots

theorem report?_eq_none_iff {path : List Nat} {node : Reference} {cell : Cell}
    (reached : heap.follow root path = some node) (found : heap.cell? node = some cell) :
    heap.report? root path = none ↔ none ∉ cell.slots := by
  rw [report?, reached, Option.bind_some, found, Option.bind_some, Cell.report?_eq_none_iff]

/-- No report is due exactly if all slots are filled and both limits are kept. -/
theorem EnumeratesPaths.dueReport_eq_nil_iff (grounded : heap.Grounded root)
    {paths : List (List Nat)} (enumerates : heap.EnumeratesPaths root paths) (longest : Nat)
    (depthLimit countLimit : Int) :
    heap.dueReport root paths longest depthLimit countLimit = [] ↔
      heap.Filled root ∧ (longest + 1 : Int) ≤ depthLimit ∧ (paths.length : Int) ≤ countLimit := by
  have filled_iff : (∀ path ∈ paths, heap.report? root path = none) ↔ heap.Filled root := by
    constructor
    · intro silent path node cell reached found
      exact (report?_eq_none_iff reached found).mp
        (silent path ((enumerates.complete path).mpr ⟨node, reached⟩))
    · intro filled path listed
      obtain ⟨node, reached⟩ := (enumerates.complete path).mp listed
      obtain ⟨cell, found⟩ := (grounded.reached reached).exists_cell
      exact (report?_eq_none_iff reached found).mpr (filled path node cell reached found)
  rw [dueReport, List.append_eq_nil_iff, List.append_eq_nil_iff, List.filterMap_eq_nil_iff,
    filled_iff, and_assoc]
  simp only [ite_eq_right_iff, List.cons_ne_nil, imp_false, Int.not_lt]

/-! ## The report that is made -/

/-- What is visited at a path is reported as it is due there. -/
theorem Grounded.report?_eq (grounded : heap.Grounded root) {path : List Nat} {visit : Visit}
    (visited : heap.Visited root path visit) :
    heap.report? root path =
      (if (Tree.holesFrom 0 visit.children).isEmpty then none
        else some (Violation.missing visit.symbol.identifier visit.symbol.arity
          (Tree.holesFrom 0 visit.children))).map Violation.message := by
  obtain ⟨node, cell, reached, found, symbol_eq, children_eq⟩ := visited.exists_node
  have holes : Tree.holesFrom 0 visit.children = cell.emptySlots := by
    rw [children_eq, holesFrom_map_slotTree fun child listed =>
      (grounded.reached reached).of_mem_slots found listed]
    simp [Cell.emptySlots]
  rw [report?, reached, Option.bind_some, found, Option.bind_some, Cell.report?, holes, symbol_eq]
  simp only [List.isEmpty_iff]
  split
  · rfl
  · rfl

/-- The nodes with unfilled slots are reported in the order of the paths to them. -/
theorem Grounded.map_message_arityViolations (grounded : heap.Grounded root) :
    (heap.tree root).arityViolations.map Violation.message =
      (heap.tree root).positions.filterMap (heap.report? root) := by
  rw [Tree.arityViolations, List.map_filterMap]
  refine (Outcome.filterMap_eq_of_forall₂ grounded.forall₂_visited ?_).symm
  intro path visit visited
  exact grounded.report?_eq visited

/-- The violations of the tree of a grounded node are those that are due on the heap. -/
theorem Grounded.map_message_verify (grounded : heap.Grounded root) {longest : Nat}
    (deep : longest + 1 = (heap.tree root).depth) (depthLimit countLimit : Int) :
    ((heap.tree root).verify depthLimit countLimit).map Violation.message =
      heap.dueReport root (heap.tree root).positions longest depthLimit countLimit := by
  rw [Tree.verify, List.map_append, List.map_append, grounded.map_message_arityViolations,
    dueReport, Tree.length_positions, Tree.depthViolations, Tree.countViolations, ← deep,
    Int.natCast_succ, apply_ite (List.map Violation.message),
    apply_ite (List.map Violation.message)]
  rfl

end Heap

namespace Workspace

/-- The limits of a verification are those that are given, or else those of the active
configuration. -/
structure Limited (workspace : Workspace) (maxDepth maxNodes : Option Int)
    (depthLimit countLimit : Int) : Prop where
  /-- The limit on the depth. -/
  depth : maxDepth.or workspace.activeConfiguration.limits.maxDepth = some depthLimit
  /-- The limit on the number of nodes. -/
  count : maxNodes.or workspace.activeConfiguration.limits.maxNodes = some countLimit

variable {workspace : Workspace} {maxDepth maxNodes : Option Int} {depthLimit countLimit : Int}

theorem Limited.verify_eq (limited : workspace.Limited maxDepth maxNodes depthLimit countLimit)
    (tree : Tree) :
    workspace.verify maxDepth maxNodes tree = .ok (tree.verify depthLimit countLimit) := by
  rw [verify, Limits.verify, limited.depth, limited.count]

/-- A complete tree passes exactly if its depth and its number of nodes are within the limits. -/
theorem Limited.verify_complete_iff
    (limited : workspace.Limited maxDepth maxNodes depthLimit countLimit) {tree : Tree}
    (complete : tree.Complete) :
    workspace.verify maxDepth maxNodes tree = .ok [] ↔
      (tree.depth : Int) ≤ depthLimit ∧ (tree.nodeCount : Int) ≤ countLimit := by
  rw [limited.verify_eq, Except.ok.injEq, Tree.verify, complete.arityViolations,
    List.nil_append, List.append_eq_nil_iff, Tree.depthViolations, Tree.countViolations]
  simp only [ite_eq_right_iff, List.cons_ne_nil, imp_false, Int.not_lt]

/-- A verification of a grounded node reports exactly what is due, for one list of the paths from
the node and the greatest of their lengths, and it passes exactly if all slots are filled, the longest
path has no more nodes than the limit on the depth and the paths are no more than the limit on the
number of nodes.  A program that was read passes exactly if its depth and its number of nodes are
within the limits. -/
theorem verify_reports_exactly (workspace : Workspace) :
    (∀ root, workspace.heap.Grounded root →
      ∃ paths longest, workspace.heap.EnumeratesPaths root paths ∧
        (∀ path ∈ paths, path.length ≤ longest) ∧ (∃ path ∈ paths, path.length = longest) ∧
        ∀ maxDepth maxNodes depthLimit countLimit,
          workspace.Limited maxDepth maxNodes depthLimit countLimit →
          ∃ violations,
            workspace.verify maxDepth maxNodes (workspace.heap.tree root) = .ok violations ∧
            (violations = [] ↔ workspace.heap.Filled root ∧ (longest + 1 : Int) ≤ depthLimit ∧
              (paths.length : Int) ≤ countLimit) ∧
            violations.map Violation.message =
              workspace.heap.dueReport root paths longest depthLimit countLimit) ∧
    ∀ reader ant source after slot,
      workspace.parse reader ant (some source) = .ok (after, slot) →
      ∃ root, slot = some root ∧
        ∀ later : Workspace, after.heap.cells <+: later.heap.cells →
          ∀ maxDepth maxNodes depthLimit countLimit,
            later.Limited maxDepth maxNodes depthLimit countLimit →
            (later.verify maxDepth maxNodes (later.heap.tree root) = .ok [] ↔
              ((later.heap.tree root).depth : Int) ≤ depthLimit ∧
                ((later.heap.tree root).nodeCount : Int) ≤ countLimit) := by
  constructor
  · intro root grounded
    obtain ⟨deepest, listed, deep⟩ := Tree.exists_length_eq_depth grounded.isHole_tree
    refine ⟨(workspace.heap.tree root).positions, deepest.length, grounded.enumeratesPaths, ?_,
      ⟨deepest, listed, rfl⟩, ?_⟩
    · intro path member
      have shorter := Tree.length_lt_depth member
      exact Nat.le_of_lt_succ (shorter.trans_eq deep.symm)
    · intro maxDepth maxNodes depthLimit countLimit limited
      have report := grounded.map_message_verify deep depthLimit countLimit
      refine ⟨_, limited.verify_eq _, ?_, report⟩
      rw [← List.map_eq_nil_iff, report, grounded.enumeratesPaths.dueReport_eq_nil_iff grounded]
  · intro reader ant source after slot read
    obtain ⟨tree, root, rfl, parsed, -, -, found⟩ := exists_root_of_parse read
    refine ⟨root, rfl, fun later grown maxDepth maxNodes depthLimit countLimit limited => ?_⟩
    rw [(found later.heap grown).1]
    exact limited.verify_complete_iff (Language.parseAt_complete parsed)

/-- The unfilled slot of a branch that stands twice is reported twice, before the depth.  The
program that is read has two levels and two nodes. -/
theorem verify_reports_exactly_oneBranchTwice :
    let workspace := { oneBranchTwice with registries := [Registry.builtin] }
    workspace.heap.Grounded (.cell 2) ∧ workspace.Limited (some 2) none 2 1000 ∧
      (∃ paths longest violations, workspace.heap.EnumeratesPaths (.cell 2) paths ∧
        workspace.verify (some 2) none (workspace.heap.tree (.cell 2)) = .ok violations ∧
        violations.map Violation.message =
          workspace.heap.dueReport (.cell 2) paths longest 2 1000 ∧
        violations.map Violation.message =
          ["SEQ2 expects 2 arguments, missing slots [1]",
            "SEQ2 expects 2 arguments, missing slots [1]",
            "Tree depth 3 exceeds maximum allowed depth 2"]) ∧
      ∃ after root, workspace.parse ⟨0, [], none, 0⟩ none (some "NOT(true)") =
          .ok (after, some root) ∧
        after.verify none (some 2) (after.heap.tree root) = .ok [] ∧
        after.verify (some 1) none (after.heap.tree root) ≠ .ok [] := by
  intro workspace
  have grounded : workspace.heap.Grounded (.cell 2) :=
    layered_oneBranchTwice.grounded (by decide)
  have limited : workspace.Limited (some 2) none 2 1000 := ⟨rfl, rfl⟩
  obtain ⟨reports, passes⟩ := verify_reports_exactly workspace
  refine ⟨grounded, limited, ?_, ?_⟩
  · obtain ⟨paths, longest, enumerates, -, -, verdict⟩ := reports _ grounded
    obtain ⟨violations, verified, -, report⟩ := verdict (some 2) none 2 1000 limited
    refine ⟨paths, longest, violations, enumerates, verified, report, ?_⟩
    obtain rfl := Except.ok.inj verified
    decide +kernel
  · let negated : Tree := .node (.operator .negation) [.leaf (.boolean true)]
    let language := workspace.language ⟨0, [], none, 0⟩
    have permitted : ∀ depth, language.Permits depth := Language.permits_of_unlimited rfl
    have read : language.parse (workspace.effectiveContext ⟨0, [], none, 0⟩ none) "NOT(true)" =
        .ok negated := by
      refine Language.parseAt_eq_ok_iff.mpr ⟨permitted 1, ?_⟩
      refine @Language.Reading.call _ _ _ "NOT".toList "true)".toList "true".toList
        ["true".toList] _ _ (by decide) rfl rfl rfl rfl (.cons ?_ .nil)
      exact Language.parseAt_eq_ok_iff.mpr ⟨permitted 2, .terminal (by decide) rfl⟩
    have placed : workspace.parse ⟨0, [], none, 0⟩ none (some "NOT(true)") =
        .ok ((workspace.log (.parsed "NOT(true)")).plant negated) := by
      rw [parse_some, read]
      rfl
    obtain ⟨root, slot_eq, verdict⟩ := passes _ _ _ _ _ placed
    obtain rfl : .cell 4 = root := Option.some.inj slot_eq
    refine ⟨_, .cell 4, placed, ?_, ?_⟩
    · exact (verdict _ List.prefix_rfl none (some 2) 32 2 ⟨rfl, rfl⟩).mpr (by decide)
    · exact fun passed =>
        absurd ((verdict _ List.prefix_rfl (some 1) none 1 1000 ⟨rfl, rfl⟩).mp passed).1 (by decide)

end Workspace
end GeneticProgram
