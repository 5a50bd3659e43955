import GeneticProgram.Proofs.Rereading
import GeneticProgram.Proofs.TreePositions
import GeneticProgram.Proofs.VisitedPieces
import Mathlib.Algebra.Order.BigOperators.Group.List

/-!
# The measure of a source

A reading goes from a text to the arguments of a call, which are pieces of the text and shorter than
it.  So it ends on every text, in at most one nested call more than the text has characters.
Nothing of the source is used twice: the tree has no more nodes than the text has characters, and no
more calls than the text has opening parentheses.  In strict mode none is left out either.
-/

namespace GeneticProgram

open Source

/-! ## The arguments that are read -/

namespace Language

variable {language : Language} {context : Option Context}

/-- Reading a text at a depth goes on to an argument one level deeper: the text is a call of a known
function with the right number of arguments, and those before the argument are read. -/
inductive Descends (language : Language) (context : Option Context) :
    Nat × List Char → Nat × List Char → Prop
  | argument {depth : Nat} {name after inner argument : List Char}
      {before behind : List (List Char)} {symbol : Symbol} (permitted : language.Permits depth)
      (plain : '(' ∉ name) (closed : language.body (name ++ '(' :: after) after = .ok inner)
      (splitting : splitArguments inner = .ok (before ++ argument :: behind))
      (resolved : language.registry.resolve context (String.ofList name) = .ok (some symbol))
      (counted : symbol.arity = (before ++ argument :: behind).length)
      (earlier : ∀ other ∈ before, ∃ tree, language.parseAt context (depth + 1) other = .ok tree) :
      Descends language context (depth, name ++ '(' :: after) (depth + 1, argument)

theorem Descends.isInfix {call next : Nat × List Char}
    (descends : Descends language context call next) : next.2 <:+: call.2 := by
  cases descends with
  | argument _ _ closed splitting _ _ _ => exact isInfix_of_argument closed splitting (by simp)

theorem Descends.length_lt {call next : Nat × List Char}
    (descends : Descends language context call next) : next.2.length < call.2.length := by
  cases descends with
  | argument _ _ closed splitting _ _ _ => exact length_lt_of_argument closed splitting (by simp)

theorem wellFounded_descends (language : Language) (context : Option Context) :
    WellFounded fun next call => Descends language context call next :=
  Subrelation.wf (fun descends => descends.length_lt)
    (measure fun call : Nat × List Char => call.2.length).wf

/-- Read a text at a depth, where the arguments of a call are read by another reader. -/
def parseWith (language : Language) (context : Option Context)
    (read : Nat → List Char → Except ParseError Tree) (depth : Nat) (text : List Char) :
    Except ParseError Tree :=
  match language.settings.maxDepth.filter fun limit => limit < (depth : Int) with
  | some limit => .error (.tooDeep limit)
  | none =>
    match language.head context text with
    | .error error => .error error
    | .ok (.terminal symbol) => .ok (.leaf symbol)
    | .ok (.call symbol arguments _) => (arguments.mapM (read (depth + 1))).map (.node symbol)

/-- What a reading gives depends on the arguments to which it goes on and on no others. -/
theorem parseWith_eq_of_agree {read : Nat → List Char → Except ParseError Tree} {depth : Nat}
    {text : List Char}
    (agree : ∀ next, Descends language context (depth, text) next →
      read next.1 next.2 = language.parseAt context next.1 next.2) :
    language.parseWith context read depth text = language.parseAt context depth text := by
  rw [parseAt_eq, parseWith]
  cases exceeded : language.settings.maxDepth.filter fun limit => limit < (depth : Int) with
  | some limit => rfl
  | none =>
      have permitted : language.Permits depth := by
        by_contra refused
        obtain ⟨limit, -, found⟩ := filter_eq_some_of_not_permits refused
        cases exceeded.symm.trans found
      cases outer : language.head context text with
      | error error => rfl
      | ok part =>
          cases part with
          | terminal symbol => rfl
          | call symbol arguments shorter =>
              have found : (language.head context text).map outline =
                  .ok (symbol, some arguments) := by
                rw [outer]
                rfl
              obtain ⟨name, after, inner, rfl, plain, closed, splitting, resolved, counted⟩ :=
                call_of_outline found
              refine congrArg (Except.map (Tree.node symbol)) (Outcome.mapM_congr_of_earlier ?_)
              rintro before argument behind rfl earlier
              exact agree _ (.argument permitted plain closed splitting resolved counted earlier)

/-- A reading ends: unfolded once more often than the text has characters, it no longer depends on
what it was begun with. -/
theorem iterate_parseWith (start : Nat → List Char → Except ParseError Tree) (depth : Nat)
    {text : List Char} {steps : Nat} (enough : text.length < steps) :
    (language.parseWith context)^[steps] start depth text =
      language.parseAt context depth text := by
  -- Every unfolding takes off one nested call, and the argument of the call is shorter.
  induction steps generalizing depth text with
  | zero => exact absurd enough (Nat.not_lt_zero _)
  | succ steps induction =>
      rw [Function.iterate_succ_apply']
      apply parseWith_eq_of_agree
      rintro ⟨below, argument⟩ descends
      exact induction below (descends.length_lt.trans_le (Nat.le_of_lt_succ enough))

end Language

/-! ## Opening parentheses and lengths -/

namespace Source

/-- White space around a text has no opening parenthesis. -/
theorem count_opening_trim (text : List Char) : (Text.trim text).count '(' = text.count '(' := by
  obtain ⟨front, back, pieces, front_blank, back_blank⟩ :=
    Text.eq_margins_trimWhere Text.isBlank text
  have bare : ∀ margin : List Char, (∀ character ∈ margin, Text.isBlank character = true) →
      margin.count '(' = 0 := by
    intro margin blank
    exact List.count_eq_zero.mpr fun member => absurd (blank _ member) (by decide)
  conv_rhs => rw [pieces]
  rw [List.count_append, List.count_append, bare front front_blank, bare back back_blank,
    Nat.zero_add, Nat.add_zero, Text.trim]

theorem count_opening_call {name after : List Char} (plain : '(' ∉ name) :
    (name ++ '(' :: after).count '(' = 1 + after.count '(' := by
  rw [List.count_append, List.count_eq_zero.mpr plain, List.count_cons_self, Nat.zero_add,
    Nat.add_comm]

theorem Separator.count_opening {comma : Bool} {gap : List Char}
    (between : Separator comma gap) : gap.count '(' = 0 :=
  List.count_eq_zero.mpr fun member => absurd (between.plain _ member) (by decide)

/-- Every opening parenthesis of separated arguments is in one of them. -/
theorem Separated.count_opening {text : List Char} {arguments : List (List Char)}
    (separated : Separated text arguments) :
    text.count '(' = (arguments.map (List.count '(')).sum := by
  induction separated with
  | last whole => simp
  | cons whole between others induction =>
      rw [List.count_append, List.count_append, between.count_opening, induction, Nat.add_zero,
        List.map_cons, List.sum_cons]

theorem Separated.sum_length_le {text : List Char} {arguments : List (List Char)}
    (separated : Separated text arguments) : (arguments.map List.length).sum ≤ text.length := by
  induction separated with
  | last whole => simp
  | cons whole between others induction =>
      rw [List.length_append, List.length_append, List.map_cons, List.sum_cons]
      omega

theorem count_opening_of_splitArguments {text : List Char} {arguments : List (List Char)}
    (splitting : splitArguments text = .ok arguments) :
    text.count '(' = (arguments.map (List.count '(')).sum := by
  rw [← count_opening_trim]
  rcases splitArguments_eq_ok_iff.mp splitting with ⟨empty, rfl⟩ | separated
  · rw [empty]
    rfl
  · exact separated.count_opening

/-- The arguments of a list are together no longer than the list. -/
theorem sum_length_le_of_splitArguments {text : List Char} {arguments : List (List Char)}
    (splitting : splitArguments text = .ok arguments) :
    (arguments.map List.length).sum ≤ text.length := by
  refine le_trans ?_ (length_trim_le text)
  rcases splitArguments_eq_ok_iff.mp splitting with ⟨-, rfl⟩ | separated
  · exact Nat.zero_le _
  · exact separated.sum_length_le

theorem length_pos_of_splitArguments {text : List Char} {arguments : List (List Char)}
    (splitting : splitArguments text = .ok arguments) :
    ∀ argument ∈ arguments, 0 < argument.length := by
  intro argument listed
  have whole := (splitArguments_eq_ok_iff.mp splitting).isArgument argument listed
  exact List.length_pos_of_ne_nil whole.nonempty

theorem isTerminal_of_terminal? {environment : Environment} {text : List Char} {symbol : Symbol}
    (found : terminal? environment text = some symbol) : symbol.isTerminal = true := by
  rcases terminal?_cases found with ⟨truth, rfl⟩ | ⟨place, rfl, -⟩ | ⟨number, rfl⟩
  all_goals rfl

end Source

namespace Tree

/-- The number of nodes that stand for calls. -/
def callCount (tree : Tree) : Nat := tree.symbols.countP fun symbol => !symbol.isTerminal

theorem callCount_node (symbol : Symbol) (children : List Tree) :
    (node symbol children).callCount =
      (if symbol.isTerminal then 0 else 1) + (children.map callCount).sum := by
  rw [callCount, symbols_node, List.countP_cons, List.countP_flatMap, Nat.add_comm]
  cases symbol.isTerminal with
  | true => rfl
  | false => rfl

end Tree

namespace Registry

/-- No function of the registry makes a terminal. -/
def MakesCalls (registry : Registry) : Prop :=
  ∀ entry ∈ registry.entries, ∀ context symbol, entry.create context = .ok symbol →
    symbol.isTerminal = false

theorem NamesSymbols.makesCalls {registry : Registry} (names : registry.NamesSymbols) :
    registry.MakesCalls :=
  fun entry member context symbol made => (names entry member context symbol made).2

theorem MakesCalls.resolve {registry : Registry} (makes : registry.MakesCalls)
    {context : Option Context} {name : String} {symbol : Symbol}
    (resolved : registry.resolve context name = .ok (some symbol)) :
    symbol.isTerminal = false := by
  obtain ⟨entry, found, made⟩ := resolve_eq_some_iff.mp resolved
  exact makes entry (List.mem_of_find?_eq_some found) context symbol made

end Registry

/-! ## Trees that are read -/

namespace Language

variable {language : Language} {context : Option Context}

/-- In strict mode all that follows an argument list is its parenthesis and white space. -/
theorem count_opening_of_body (strict : language.settings.strict = true)
    {text after inner : List Char} (closed : language.body text after = .ok inner) :
    after.count '(' = inner.count '(' := by
  obtain ⟨tail, rfl, -, blank⟩ := (body_strict_iff strict).mp closed
  rw [List.count_append, List.count_cons_of_ne (by decide), ← count_opening_trim tail, blank]
  rfl

/-- A tree that is read has no more nodes than its text has characters, or one. -/
theorem nodeCount_le_of_parseAt {depth : Nat} {text : List Char} {tree : Tree}
    (read : language.parseAt context depth text = .ok tree) :
    tree.nodeCount ≤ max 1 text.length := by
  refine parseAt_induction (motive := fun _ text tree => tree.nodeCount ≤ max 1 text.length)
    ?_ ?_ read
  · intro depth text symbol _ _ _
    exact le_max_left 1 text.length
  · intro depth name after inner arguments symbol children _ _ closed splitting _ _ below
    have each : List.Forall₂ (· ≤ ·) (children.map Tree.nodeCount)
        (arguments.map List.length) := by
      rw [List.forall₂_map_left_iff, List.forall₂_map_right_iff]
      -- An argument has at least one character, so that its length alone is the bound.
      refine (Outcome.forall₂_and_mem below).flip.imp ?_
      rintro child argument ⟨listed, -, bounded⟩
      rwa [max_eq_right (length_pos_of_splitArguments splitting argument listed)] at bounded
    have together := each.sum_le_sum
    have within := sum_length_le_of_splitArguments splitting
    have shorter := length_body closed
    rw [Tree.nodeCount_node, List.length_append, List.length_cons]
    omega

/-- A tree that is read has no more calls than its text has opening parentheses. -/
theorem callCount_le_of_parseAt {depth : Nat} {text : List Char} {tree : Tree}
    (read : language.parseAt context depth text = .ok tree) :
    tree.callCount ≤ text.count '(' := by
  refine parseAt_induction (motive := fun _ text tree => tree.callCount ≤ text.count '(')
    ?_ ?_ read
  · intro depth text symbol _ _ found
    rw [Tree.leaf, Tree.callCount_node, if_pos (isTerminal_of_terminal? found)]
    exact Nat.zero_le _
  · intro depth name after inner arguments symbol children _ plain closed splitting _ _ below
    have each : List.Forall₂ (· ≤ ·) (children.map Tree.callCount)
        (arguments.map (List.count '(')) := by
      rw [List.forall₂_map_left_iff, List.forall₂_map_right_iff]
      exact below.flip.imp fun child argument both => both.2
    have together := each.sum_le_sum
    have within := (isPrefix_of_body closed).sublist.count_le '('
    rw [count_opening_of_splitArguments splitting] at within
    rw [Tree.callCount_node, count_opening_call plain]
    split
    · omega
    · omega

/-- A tree that is read in strict mode has as many calls as its text has opening parentheses. -/
theorem callCount_eq_of_parseAt (strict : language.settings.strict = true)
    (makes : language.registry.MakesCalls) {depth : Nat} {text : List Char} {tree : Tree}
    (read : language.parseAt context depth text = .ok tree) :
    tree.callCount = text.count '(' := by
  refine parseAt_induction (motive := fun _ text tree => tree.callCount = text.count '(')
    ?_ ?_ read
  · intro depth text symbol _ bare found
    rw [Tree.leaf, Tree.callCount_node, if_pos (isTerminal_of_terminal? found),
      List.count_eq_zero.mpr bare]
    rfl
  · intro depth name after inner arguments symbol children _ plain closed splitting resolved _ below
    have each : children.map Tree.callCount = arguments.map (List.count '(') := by
      rw [← List.forall₂_eq_eq_eq, List.forall₂_map_left_iff, List.forall₂_map_right_iff]
      exact below.flip.imp fun child argument both => both.2
    rw [Tree.callCount_node, makes.resolve resolved, each, count_opening_call plain,
      count_opening_of_body strict closed, count_opening_of_splitArguments splitting]
    rfl

/-- Reading ends on every text, and its source accounts for what is read.  Every argument to which a
reading goes on is a piece of the text of its call and shorter than it, whatever the functions are
and however the text ends.  So going on is well founded, a reading depends on nothing else, and it
is done once it is unfolded more often than the text has characters.  A tree that is read has no
more nodes than the trimmed source has characters, or one, and no more calls than the source has
opening parentheses; in strict mode and with functions that make no terminals it has just as many. -/
theorem reading_measured_by_source (language : Language) (context : Option Context) :
    (∀ call next, language.Descends context call next →
      next.2 <:+: call.2 ∧ next.2.length < call.2.length) ∧
    (WellFounded fun next call => language.Descends context call next) ∧
    (∀ read depth text,
      (∀ next, language.Descends context (depth, text) next →
        read next.1 next.2 = language.parseAt context next.1 next.2) →
      language.parseWith context read depth text = language.parseAt context depth text) ∧
    (∀ start depth text steps, text.length < steps →
      (language.parseWith context)^[steps] start depth text =
        language.parseAt context depth text) ∧
    ∀ source tree, language.parse context source = .ok tree →
      tree.nodeCount ≤ max 1 (Text.trim source.toList).length ∧
      tree.callCount ≤ source.toList.count '(' ∧
      (language.settings.strict = true → language.registry.MakesCalls →
        tree.callCount = source.toList.count '(') := by
  refine ⟨fun call next descends => ⟨descends.isInfix, descends.length_lt⟩,
    wellFounded_descends language context, ?_, ?_, ?_⟩
  · intro read depth text agree
    exact parseWith_eq_of_agree agree
  · intro start depth text steps enough
    exact iterate_parseWith start depth enough
  · intro source tree read
    rw [← count_opening_trim source.toList]
    exact ⟨nodeCount_le_of_parseAt read, callCount_le_of_parseAt read,
      fun strict makes => callCount_eq_of_parseAt strict makes read⟩

/-- Two calls for two opening parentheses, in a source that ends in white space. -/
theorem reading_measured_by_source_and :
    let language := builtin [⟨0, "x"⟩] { strict := true }
    let text := "AND(NOT(x) , x)".toList
    language.registry.MakesCalls ∧ language.Descends none (1, text) (2, "NOT(x)".toList) ∧
      "NOT(x)".toList <:+: text ∧
      ∃ tree, language.parse none "AND(NOT(x) , x)\n" = .ok tree ∧ tree.nodeCount ≤ 15 ∧
        tree.callCount = 2 := by
  intro language text
  have permitted : ∀ depth, language.Permits depth := permits_of_unlimited rfl
  have place : ∀ depth, language.parseAt none depth ['x'] = .ok (.leaf (.variable ⟨0, "x"⟩)) :=
    fun depth => parseAt_eq_ok_iff.mpr ⟨permitted depth, .terminal (by decide) (by decide)⟩
  have negation : language.parseAt none 2 "NOT(x)".toList =
      .ok (.node (.operator .negation) [.leaf (.variable ⟨0, "x"⟩)]) :=
    parseAt_eq_ok_iff.mpr ⟨permitted 2, @Reading.call _ _ _ "NOT".toList "x)".toList ['x'] [['x']]
      _ _ (by decide) rfl rfl rfl rfl (.cons (place 3) .nil)⟩
  have read : language.parse none "AND(NOT(x) , x)\n" = .ok (.node (.operator (.connective .and))
      [.node (.operator .negation) [.leaf (.variable ⟨0, "x"⟩)], .leaf (.variable ⟨0, "x"⟩)]) :=
    parseAt_eq_ok_iff.mpr ⟨permitted 1, @Reading.call _ _ _ "AND".toList "NOT(x) , x)".toList
      "NOT(x) , x".toList ["NOT(x)".toList, ['x']] _ _ (by decide) rfl rfl rfl rfl
      (.cons negation (.cons (place 2) .nil))⟩
  have descends : language.Descends none (1, text) (2, "NOT(x)".toList) :=
    @Descends.argument _ _ 1 "AND".toList "NOT(x) , x)".toList "NOT(x) , x".toList
      "NOT(x)".toList [] [['x']] _ (permitted 1) (by decide) rfl rfl rfl rfl (List.forall_mem_nil _)
  have makes : language.registry.MakesCalls := Registry.namesSymbols_builtin.makesCalls
  obtain ⟨shorter, -, -, -, measured⟩ := reading_measured_by_source language none
  obtain ⟨nodes, -, calls⟩ := measured _ _ read
  exact ⟨makes, descends, (shorter _ _ descends).1, _, read, nodes, calls rfl makes⟩

end Language

end GeneticProgram
