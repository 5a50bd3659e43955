import GeneticProgram.Proofs.ParseFailures
import GeneticProgram.Tree.Verification

/-!
# The depth limit

A limit on the depth is checked on the way down, before a text is looked at, while the depth of a
tree is counted from its leaves up.  The two agree: with a limit a program is read exactly if it is
read without one and its tree is no deeper than the limit.  A limit adds one failure and changes
nothing else, so that a reading with a limit ends as the reading without it or fails for its depth.
-/

namespace GeneticProgram

namespace Tree

theorem deepest_le_iff {children : List Tree} {bound : Nat} :
    deepest children ≤ bound ↔ ∀ child ∈ children, child.depth ≤ bound := by
  induction children with
  | nil => simp [deepest]
  | cons child rest induction =>
      rw [deepest, Nat.max_le, induction, List.forall_mem_cons]

/-- A tree whose root stands at a depth ends within a limit. -/
def Fits (tree : Tree) (limit : Int) (depth : Nat) : Prop :=
  (depth : Int) + tree.depth ≤ limit + 1

theorem fits_node_iff {limit : Int} {depth : Nat} {symbol : Symbol} {children : List Tree} :
    (node symbol children).Fits limit depth ↔
      (depth : Int) ≤ limit ∧ ∀ child ∈ children, child.Fits limit (depth + 1) := by
  simp only [Fits, Tree.depth]
  constructor
  · intro fits
    refine ⟨by omega, fun child member => ?_⟩
    have below : child.depth ≤ deepest children :=
      deepest_le_iff.mp (Nat.le_refl _) child member
    omega
  · rintro ⟨within, below⟩
    have bounded : deepest children ≤ (limit - depth).toNat := by
      refine deepest_le_iff.mpr fun child member => ?_
      have fits := below child member
      omega
    omega

/-- The verification of the depth compares it with the limit. -/
theorem depthViolations_eq_nil_iff (tree : Tree) (limit : Int) :
    tree.depthViolations limit = [] ↔ (tree.depth : Int) ≤ limit := by
  rw [depthViolations]
  split
  · rename_i exceeded
    simp only [List.cons_ne_nil, false_iff]
    omega
  · rename_i within
    simp only [true_iff]
    omega

end Tree

namespace Language

variable (language : Language) {context : Option Context} {limit : Int}

/-- The language, read without a limit on the depth. -/
def unlimited : Language :=
  { language with settings := { language.settings with maxDepth := none } }

/-- The language, read with a limit on the depth. -/
def limitedTo (limit : Int) : Language :=
  { language with settings := { language.settings with maxDepth := some limit } }

theorem permits_limitedTo_iff {depth : Nat} :
    (language.limitedTo limit).Permits depth ↔ (depth : Int) ≤ limit := by
  constructor
  · intro permitted
    exact permitted limit rfl
  · intro within other listed
    obtain rfl := Option.some.inj listed
    exact within

/-- With a limit a text is read as without it, or refused for its depth. -/
theorem limitedTo_parseAt_cases (depth : Nat) (text : List Char) :
    (language.limitedTo limit).parseAt context depth text =
        language.unlimited.parseAt context depth text ∨
      (language.limitedTo limit).parseAt context depth text = .error (.tooDeep limit) := by
  induction size : text.length using Nat.strong_induction_on generalizing depth text with
  | _ size induction =>
      by_cases permitted : (language.limitedTo limit).Permits depth
      · have outermost : (language.limitedTo limit).head context text =
            language.unlimited.head context text := rfl
        rw [parseAt_outline permitted, parseAt_outline (permits_of_unlimited rfl depth), outermost]
        rcases language.unlimited.head context text with
          error | ⟨symbol⟩ | ⟨symbol, arguments, shorter⟩
        · exact .inl rfl
        · exact .inl rfl
        · have each := fun argument (listed : argument ∈ arguments) =>
            induction argument.length (size ▸ shorter argument listed) (depth + 1) argument rfl
          rcases Outcome.mapM_eq_or_error each with same | refused
          · exact .inl (congrArg (Except.map (Tree.node symbol)) same)
          · exact .inr (congrArg (Except.map (Tree.node symbol)) refused)
      · obtain ⟨other, limited, refused⟩ := parseAt_tooDeep context permitted text
        obtain rfl := Option.some.inj limited
        exact .inr refused

/-- What is read with a limit ends within it. -/
theorem fits_of_limitedTo_parseAt {depth : Nat} {text : List Char} {tree : Tree}
    (read : (language.limitedTo limit).parseAt context depth text = .ok tree) :
    tree.Fits limit depth := by
  refine parseAt_induction (motive := fun depth _ tree => tree.Fits limit depth) ?_ ?_ read
  · intro depth text symbol permitted bare found
    exact Tree.fits_node_iff.mpr ⟨language.permits_limitedTo_iff.mp permitted, by simp⟩
  · intro depth name after inner arguments symbol children permitted plain closed splitting resolved
      counted below
    refine Tree.fits_node_iff.mpr ⟨language.permits_limitedTo_iff.mp permitted, ?_⟩
    intro child member
    obtain ⟨argument, -, -, fits⟩ := Outcome.exists_of_forall₂ below member
    exact fits

/-- What is read without a limit and ends within one is read with the limit. -/
theorem limitedTo_parseAt_of_fits {depth : Nat} {text : List Char} {tree : Tree}
    (read : language.unlimited.parseAt context depth text = .ok tree)
    (fits : tree.Fits limit depth) :
    (language.limitedTo limit).parseAt context depth text = .ok tree := by
  revert fits
  refine parseAt_induction (motive := fun depth text tree => tree.Fits limit depth →
    (language.limitedTo limit).parseAt context depth text = .ok tree) ?_ ?_ read
  · intro depth text symbol permitted bare found fits
    obtain ⟨within, -⟩ := Tree.fits_node_iff.mp fits
    exact parseAt_eq_ok_iff.mpr ⟨language.permits_limitedTo_iff.mpr within, .terminal bare found⟩
  · intro depth name after inner arguments symbol children permitted plain closed splitting resolved
      counted below fits
    obtain ⟨within, children_fit⟩ := Tree.fits_node_iff.mp fits
    refine parseAt_eq_ok_iff.mpr ⟨language.permits_limitedTo_iff.mpr within, ?_⟩
    refine .call plain closed splitting resolved counted ?_
    -- A child is read within the limit because it is one of the children of the tree.
    refine ((Outcome.forall₂_and_mem below.flip).flip).imp ?_
    rintro argument child ⟨member, -, read_within⟩
    exact read_within (children_fit child member)

/-- The limit is exact: with it a program is read as without it if the depth of its tree is within
the limit, and is refused for its depth otherwise.  A program that is refused without a limit is
refused with it, for the same reason or for its depth. -/
theorem limited_parse_iff_within_depth (language : Language)
    (reliable : language.registry.Reliable) (context : Option Context) (source : String)
    (limit : Int) :
    (∀ tree, (language.limitedTo limit).parse context source = .ok tree ↔
        language.unlimited.parse context source = .ok tree ∧ (tree.depth : Int) ≤ limit) ∧
      (∀ tree : Tree, tree.depthViolations limit = [] ↔ (tree.depth : Int) ≤ limit) ∧
      (∀ tree, language.unlimited.parse context source = .ok tree → limit < (tree.depth : Int) →
        (language.limitedTo limit).parse context source = .error (.tooDeep limit)) ∧
      (∀ error, language.unlimited.parse context source = .error error →
        ∃ refusal kind, (language.limitedTo limit).parse context source = .error refusal ∧
          (refusal = error ∨ refusal = .tooDeep limit) ∧ refusal.kind? = some kind) ∧
      (ParseError.tooDeep limit).kind? = some .malformedProgram ∧
      (ParseError.tooDeep limit).message = s!"Program nesting exceeds maximum depth {limit}" := by
  have fits_root : ∀ tree : Tree, tree.Fits limit 1 ↔ (tree.depth : Int) ≤ limit := by
    intro tree
    rw [Tree.Fits]
    omega
  have ends : (language.limitedTo limit).parse context source =
        language.unlimited.parse context source ∨
      (language.limitedTo limit).parse context source = .error (.tooDeep limit) :=
    language.limitedTo_parseAt_cases 1 (Text.trim source.toList)
  refine ⟨fun tree => ⟨fun read => ?_, fun both => ?_⟩,
    fun tree => tree.depthViolations_eq_nil_iff limit, fun tree read deep => ?_,
    fun error refused => ?_, rfl, rfl⟩
  · have fits := language.fits_of_limitedTo_parseAt read
    rcases ends with same | refused
    · exact ⟨same.symm.trans read, (fits_root tree).mp fits⟩
    · exact absurd (refused.symm.trans read) (by simp)
  · exact language.limitedTo_parseAt_of_fits both.1 ((fits_root tree).mpr both.2)
  · rcases ends with same | refused
    · have fits := language.fits_of_limitedTo_parseAt (same.trans read)
      have within := (fits_root tree).mp fits
      omega
    · exact refused
  · rcases ends with same | deep
    · have refused_too := same.trans refused
      obtain ⟨kind, known⟩ := (language.limitedTo limit).parseAt_error_kind reliable refused_too
      exact ⟨error, kind, refused_too, .inl rfl, known⟩
    · exact ⟨.tooDeep limit, .malformedProgram, deep, .inr rfl, rfl⟩

/-- A call without arguments counts as one level, like a terminal: the second of two levels is
within the limit of two and exceeds the limit of one. -/
theorem limited_parse_not_skip :
    Registry.builtin.Reliable ∧
      ((builtin [] {}).limitedTo 2).parse (some ⟨0, 9⟩) "NOT(SKIP())" =
        .ok (.node (.operator .negation) [.node (.action .skip 0) []]) ∧
      ((builtin [] {}).limitedTo 1).parse (some ⟨0, 9⟩) "NOT(SKIP())" = .error (.tooDeep 1) := by
  let language := builtin [] {}
  have permitted : ∀ depth, language.unlimited.Permits depth := permits_of_unlimited rfl
  have read : language.unlimited.parse (some ⟨0, 9⟩) "NOT(SKIP())" =
      .ok (.node (.operator .negation) [.node (.action .skip 0) []]) := by
    refine parseAt_eq_ok_iff.mpr ⟨permitted 1, ?_⟩
    refine @Reading.call _ _ _ "NOT".toList "SKIP())".toList "SKIP()".toList ["SKIP()".toList] _ _
      (by decide) rfl rfl rfl rfl (.cons (parseAt_eq_ok_iff.mpr ⟨permitted 2, ?_⟩) .nil)
    exact @Reading.call _ _ _ "SKIP".toList [')'] [] [] _ _ (by decide) rfl rfl rfl rfl .nil
  have law := limited_parse_iff_within_depth language Registry.reliable_builtin (some ⟨0, 9⟩)
    "NOT(SKIP())"
  exact ⟨Registry.reliable_builtin, ((law 2).1 _).mpr ⟨read, by decide⟩,
    (law 1).2.2.1 _ read (by decide)⟩

end Language
end GeneticProgram
