import GeneticProgram.Proofs.ReadTrees
import GeneticProgram.Proofs.WrittenTree

/-!
# Variables shared by programs

A variable that a program names is not copied into its tree: the node is the variable itself, the
first of that name among the variables of the reader.  Variables are only ever added behind the
others, so that a name that has been found is found again.  All occurrences of a name, in whichever
trees a reader has returned and whenever, are therefore one node with one value, and a program
computes what it computes with that value written in their places.
-/

namespace GeneticProgram

/-! ## Names -/

/-- A name that is found is found again behind which variables are added. -/
theorem Environment.lookup?_of_isPrefix {environment longer : Environment} {name : String}
    {place : Variable} (grown : environment <+: longer)
    (found : environment.lookup? name = some place) : longer.lookup? name = some place := by
  obtain ⟨more, rfl⟩ := grown
  rw [lookup?] at found ⊢
  rw [List.find?_append, found, Option.some_or]

/-- A terminal that stands for a variable is the name that gives it. -/
theorem Source.lookup?_of_terminal? {environment : Environment} {text : List Char}
    {place : Variable} (found : terminal? environment text = some (.variable place)) :
    environment.lookup? place.name = some place := by
  rw [terminal?] at found
  split at found
  · cases found
  · split at found
    · rename_i other named
      obtain rfl := Symbol.variable.inj (Option.some.inj found)
      rw [Environment.name_of_lookup? named]
      exact named
    · obtain ⟨number, -, impossible⟩ := Option.map_eq_some_iff.mp found
      cases impossible

/-- The variables of a program over the built-in functions are those that the names give. -/
theorem Language.lookup?_of_parseAt {language : Language} {context : Option Context} {depth : Nat}
    {text : List Char} {tree : Tree} (builtin : language.registry = .builtin)
    (read : language.parseAt context depth text = .ok tree) {place : Variable}
    (member : .variable place ∈ tree.symbols) :
    language.environment.lookup? place.name = some place := by
  rcases source_of_mem_symbols read _ member with ⟨token, found⟩ | ⟨name, resolved⟩
  · exact Source.lookup?_of_terminal? found
  · rw [builtin] at resolved
    cases Symbol.isBuiltin_of_resolve resolved

/-! ## Values in the places of names -/

/-- The constant of a value in the place of a variable. -/
def Symbol.withValue (values : String → Value) : Symbol → Symbol
  | .variable place => .literal (values place.name) place.name
  | symbol => symbol

namespace Tree

/-- The tree with the value of its name in the place of every variable. -/
def withValues (values : String → Value) (tree : Tree) : Tree := tree.relabel (.withValue values)

variable {values : String → Value} {valuation : Variable → Value}

/-- The variables of the tree have the values of their names. -/
def ValuedBy (valuation : Variable → Value) (values : String → Value) (tree : Tree) : Prop :=
  ∀ symbol ∈ tree.symbols, ∀ place, symbol = .variable place → valuation place = values place.name

mutual

/-- A tree has the value that it has with the values of the names in the places of its variables,
whatever the variables are then. -/
theorem evaluate_withValues {tree : Tree} (valued : tree.ValuedBy valuation values)
    (other : Variable → Value) :
    (tree.withValues values).evaluate other = tree.evaluate valuation := by
  match tree with
  | .hole => rfl
  | .node symbol children =>
      obtain ⟨own, others⟩ := forall_symbols_node_iff.mp valued
      rw [withValues, relabel]
      cases symbol with
      | «variable» place =>
          rw [Symbol.withValue, evaluate, evaluate, own place rfl]
      | operator kind =>
          rw [Symbol.withValue, evaluate, evaluate, evaluateAll_withValues others other]
          · nofun
      | conditional =>
          rw [Symbol.withValue, evaluate, evaluate, evaluateChild_withValues others other,
            evaluateChild_withValues others other, evaluateChild_withValues others other]
          · nofun
      | sequence arity =>
          rw [Symbol.withValue, evaluate, evaluate, evaluateAll_withValues others other]
          · nofun
      | foodAhead ant =>
          rw [Symbol.withValue, evaluate, evaluate, evaluateChild_withValues others other,
            evaluateChild_withValues others other]
          · nofun
      | _ => rfl

theorem evaluateChild_withValues {children : List Tree}
    (valued : ∀ child ∈ children, child.ValuedBy valuation values) (other : Variable → Value)
    {name : String} {slot further : Nat} :
    evaluateChild other name slot further (relabelAll (.withValue values) children) =
      evaluateChild valuation name slot further children := by
  match further, children with
  | 0, [] => rfl
  | _ + 1, [] => rfl
  | 0, .hole :: _ => rfl
  | 0, .node symbol below :: _ =>
      exact evaluate_withValues (valued (.node symbol below) List.mem_cons_self) other
  | further + 1, child :: rest =>
      rw [relabelAll, evaluateChild, evaluateChild]
      exact evaluateChild_withValues
        (fun later member => valued later (List.mem_cons_of_mem child member)) other

theorem evaluateAll_withValues {children : List Tree}
    (valued : ∀ child ∈ children, child.ValuedBy valuation values) (other : Variable → Value)
    {name : String} {count slot : Nat} :
    evaluateAll other name count slot (relabelAll (.withValue values) children) =
      evaluateAll valuation name count slot children := by
  match count, children with
  | 0, _ => rw [evaluateAll, evaluateAll]
  | _ + 1, [] => rfl
  | _ + 1, .hole :: _ => rfl
  | count + 1, .node symbol below :: rest =>
      have first := evaluate_withValues (valued (.node symbol below) List.mem_cons_self) other
      have others : evaluateAll other name count (slot + 1) (relabelAll (.withValue values) rest) =
          evaluateAll valuation name count (slot + 1) rest :=
        evaluateAll_withValues (fun later member => valued later (List.mem_cons_of_mem _ member))
          other
      rw [withValues, relabel] at first
      rw [relabelAll, relabel, evaluateAll, evaluateAll, first, others]
      all_goals nofun

end

end Tree

/-! ## Growth of a heap -/

namespace Heap

variable {heap grown : Heap} {root node : Reference} {place : Variable}

/-- A node in a tree on the heap is labelled with a variable. -/
def Mentions (heap : Heap) (root node : Reference) (place : Variable) : Prop :=
  ∃ path cell, heap.follow root path = some node ∧ heap.cell? node = some cell ∧
    cell.symbol = .variable place

/-- The variables that are met in a tree are its own, and each is its own node. -/
theorem Shows.of_mentions {tree : Tree} (shown : heap.Shows root tree)
    (mentioned : heap.Mentions root node place) :
    node = .variable place ∧ .variable place ∈ tree.symbols := by
  obtain ⟨path, cell, reached, found, labelled⟩ := mentioned
  obtain ⟨same_cell, found_again, member, own⟩ := shown path node reached
  obtain rfl := Option.some.inj (found.symm.trans found_again)
  exact ⟨own place labelled, labelled ▸ member⟩

end Heap

/-! ## Work with a reader -/

/-- A step of the work with a reader. -/
inductive Session.Step
  /-- Read a program. -/
  | parse (ant : Option Nat) (source : Option String)
  /-- Add a new variable. -/
  | declare (name : String) (value : Value)
  /-- Add a variable, which may have been added before. -/
  | add (place : Variable)
  /-- Give a variable a value. -/
  | assign (place : Variable) (value : Value)
  /-- Evaluate a node. -/
  | evaluate (root : Reference)

/-- The work with a reader. -/
structure Session where
  /-- The workspace. -/
  workspace : Workspace
  /-- The reader. -/
  reader : Reader
  /-- The programs that it has returned, in their order. -/
  roots : List Reference

namespace Session

/-- Add a variable behind those of the reader. -/
def withVariable (session : Session) (place : Variable) : Session :=
  { session with
    reader := { session.reader with environment := session.reader.environment ++ [place] } }

/-- Take a step.  A program that is refused leaves everything as it is. -/
def perform (session : Session) : Step → Session
  | .parse ant source =>
    match session.workspace.parse session.reader ant source with
    | .error _ => session
    | .ok (after, slot) =>
      { session with workspace := after, roots := session.roots ++ slot.toList }
  | .declare name value =>
    let (after, place) := session.workspace.newVariable name value
    { session with workspace := after }.withVariable place
  | .add place => session.withVariable place
  | .assign place value => { session with workspace := session.workspace.assign place value }
  | .evaluate root => { session with workspace := (session.workspace.evaluate root).2 }

/-- Take several steps. -/
def after (session : Session) (history : List Step) : Session := history.foldl perform session

/-- The value that a name has. -/
def valueOf (session : Session) (name : String) : Value :=
  match session.reader.environment.lookup? name with
  | none => .nothing
  | some place => session.workspace.valueOf place

/-- What steps leave as it is: programs and variables are only added behind the others. -/
structure Extends (session later : Session) : Prop where
  /-- The programs stay. -/
  roots : session.roots <+: later.roots
  /-- The cells stay. -/
  cells : session.workspace.heap.cells <+: later.workspace.heap.cells
  /-- The variables stay. -/
  environment : session.reader.environment <+: later.reader.environment
  /-- The functions stay. -/
  registry : later.workspace.registry later.reader.registry =
    session.workspace.registry session.reader.registry

theorem Extends.refl (session : Session) : session.Extends session :=
  ⟨List.prefix_rfl, List.prefix_rfl, List.prefix_rfl, rfl⟩

theorem Extends.trans {first second third : Session} (near : first.Extends second)
    (far : second.Extends third) : first.Extends third :=
  ⟨near.roots.trans far.roots, near.cells.trans far.cells, near.environment.trans far.environment,
    far.registry.trans near.registry⟩

theorem extends_withVariable (session : Session) (place : Variable) :
    session.Extends (session.withVariable place) :=
  ⟨List.prefix_rfl, List.prefix_rfl, List.prefix_append _ _, rfl⟩

/-- A program that is read is put behind the others. -/
theorem perform_parse {session : Session} {ant : Option Nat} {source : String} (tree : Tree)
    (read : (session.workspace.language session.reader).parse
      (session.workspace.effectiveContext session.reader ant) source = .ok tree) :
    let planted := (session.workspace.log (.parsed source)).plant tree
    session.perform (.parse ant (some source)) =
      { session with workspace := planted.1, roots := session.roots ++ planted.2.toList } := by
  rw [perform, Workspace.parse_some, read]
  rfl

/-- A program that is read is put behind the others, and nothing is done for one that is refused. -/
theorem perform_parse_cases (session : Session) (ant : Option Nat) (source : Option String) :
    session.perform (.parse ant source) = session ∨
      ∃ text after root, session.workspace.parse session.reader ant (some text) =
          .ok (after, some root) ∧
        session.perform (.parse ant source) =
          { session with workspace := after, roots := session.roots ++ [root] } := by
  rw [perform]
  cases source with
  | none =>
      refine .inl ?_
      rw [Workspace.parse]
      simp
  | some text =>
      cases read : session.workspace.parse session.reader ant (some text) with
      | error error => exact .inl rfl
      | ok result =>
          obtain ⟨after, slot⟩ := result
          obtain ⟨tree, root, rfl, -⟩ := Workspace.exists_root_of_parse read
          exact .inr ⟨text, after, root, read, rfl⟩

theorem extends_perform (session : Session) (step : Step) :
    session.Extends (session.perform step) := by
  cases step with
  | parse ant source =>
      rcases session.perform_parse_cases ant source with same | ⟨text, after, root, read, result⟩
      · rw [same]
        exact .refl session
      · obtain ⟨tree, _, -, -, kept, grown, -⟩ := Workspace.exists_root_of_parse read
        rw [result, kept]
        exact ⟨List.prefix_append _ _, grown, List.prefix_rfl, rfl⟩
  | declare name value =>
      have made : session.Extends
          { session with workspace := (session.workspace.newVariable name value).1 } :=
        ⟨List.prefix_rfl, List.prefix_rfl, List.prefix_rfl, rfl⟩
      exact made.trans (extends_withVariable _ _)
  | add place => exact session.extends_withVariable place
  | assign place value => exact ⟨List.prefix_rfl, List.prefix_rfl, List.prefix_rfl, rfl⟩
  | evaluate root => exact ⟨List.prefix_rfl, List.prefix_rfl, List.prefix_rfl, rfl⟩

theorem extends_after (session : Session) (history : List Step) :
    session.Extends (session.after history) := by
  induction history generalizing session with
  | nil => exact .refl session
  | cons step rest induction => exact (session.extends_perform step).trans (induction _)

/-- A program that was returned: it is found wherever the heap has grown, and its variables are the
ones that their names give. -/
structure Returned (session : Session) (root : Reference) (tree : Tree) : Prop where
  /-- The tree is found. -/
  found : ∀ grown : Heap, session.workspace.heap.cells <+: grown.cells →
    grown.tree root = tree ∧ grown.Shows root tree
  /-- The variables are found by their names. -/
  named : ∀ place, .variable place ∈ tree.symbols →
    session.reader.environment.lookup? place.name = some place

/-- What was returned stays so. -/
theorem Returned.extend {session later : Session} {root : Reference} {tree : Tree}
    (returned : session.Returned root tree) (extended : session.Extends later) :
    later.Returned root tree :=
  ⟨fun grown longer => returned.found grown (extended.cells.trans longer),
    fun place member => Environment.lookup?_of_isPrefix extended.environment
      (returned.named place member)⟩

/-- The functions are the built-in ones, and every program has been returned with its tree. -/
structure Consistent (session : Session) : Prop where
  /-- Programs are read over the built-in functions. -/
  builtin : session.workspace.registry session.reader.registry = .builtin
  /-- The programs have their trees. -/
  returned : ∀ root ∈ session.roots, ∃ tree, session.Returned root tree

/-- One step keeps the work consistent. -/
theorem Consistent.perform {session : Session} (consistent : session.Consistent) (step : Step) :
    (session.perform step).Consistent := by
  have extended := session.extends_perform step
  refine ⟨extended.registry.trans consistent.builtin, ?_⟩
  have earlier : ∀ root ∈ session.roots, ∃ tree, (session.perform step).Returned root tree := by
    intro root member
    obtain ⟨tree, returned⟩ := consistent.returned root member
    exact ⟨tree, returned.extend extended⟩
  -- Only a step that reads a program returns one that was not there before.
  cases step with
  | parse ant source =>
      rcases session.perform_parse_cases ant source with same | ⟨text, after, root, read, result⟩
      · rw [same]
        exact consistent.returned
      · intro other member
        have listed : other ∈ session.roots ++ [root] := by
          rw [result] at member
          exact member
        rcases List.mem_append.mp listed with before | last
        · exact earlier other before
        · obtain rfl := List.mem_singleton.mp last
          obtain ⟨tree, _, same, parsed, -, -, found⟩ := Workspace.exists_root_of_parse read
          obtain rfl := Option.some.inj same
          refine ⟨tree, ?_⟩
          rw [result]
          exact ⟨found, fun place mentioned =>
            Language.lookup?_of_parseAt consistent.builtin parsed mentioned⟩
  | declare name value => exact earlier
  | add place => exact earlier
  | assign place value => exact earlier
  | evaluate root => exact earlier

/-- Every step of a history keeps the work consistent. -/
theorem Consistent.after {session : Session} (consistent : session.Consistent)
    (history : List Step) : (session.after history).Consistent := by
  induction history generalizing session with
  | nil => exact consistent
  | cons step rest induction => exact induction (consistent.perform step)

/-- A program computes what it computes with the value of every name in its places. -/
theorem Returned.evaluate_eq {session : Session} {root : Reference} {tree : Tree}
    (returned : session.Returned root tree) :
    session.workspace.evaluate root =
      session.workspace.evaluateTree (tree.withValues session.valueOf) := by
  have valued : tree.ValuedBy session.workspace.valueOf session.valueOf := by
    rintro symbol member place rfl
    rw [valueOf, returned.named place member]
  rw [Workspace.evaluate, (returned.found session.workspace.heap List.prefix_rfl).1,
    Workspace.evaluateTree, Workspace.evaluateTree, Tree.evaluate_withValues valued]

/-- However programs are read and variables added, every variable in a program that was returned is
its own node, the one that its name gives, then and later; two occurrences of one name, in programs
that were returned whenever, are one node; and whatever values the variables have been given since,
a program computes what it computes with the present value of every name in its places. -/
theorem variables_shared_by_name (workspace : Workspace) (reader : Reader)
    (registered : workspace.registry reader.registry = .builtin) (history more : List Step) :
    let session := (Session.mk workspace reader []).after history
    let later := session.after more
    session.roots <+: later.roots ∧
      (∀ root ∈ session.roots, ∀ node place,
        session.workspace.heap.Mentions root node place → node = .variable place ∧
          session.reader.environment.lookup? place.name = some place ∧
          later.reader.environment.lookup? place.name = some place) ∧
      (∀ first ∈ session.roots, ∀ second ∈ later.roots, ∀ node other place same,
        session.workspace.heap.Mentions first node place →
        later.workspace.heap.Mentions second other same → place.name = same.name → node = other) ∧
      ∀ root ∈ session.roots,
        later.workspace.evaluate root = later.workspace.evaluateTree
          ((session.workspace.heap.tree root).withValues later.valueOf) := by
  intro session later
  have consistent : session.Consistent :=
    Consistent.after ⟨registered, List.forall_mem_nil _⟩ history
  have extended : session.Extends later := session.extends_after more
  have shared : ∀ (work : Session), work.Consistent → ∀ root ∈ work.roots, ∀ node place,
      work.workspace.heap.Mentions root node place →
        node = .variable place ∧ work.reader.environment.lookup? place.name = some place := by
    intro work sound root member node place mentioned
    obtain ⟨tree, returned⟩ := sound.returned root member
    have shown := (returned.found work.workspace.heap List.prefix_rfl).2
    obtain ⟨own, listed⟩ := shown.of_mentions mentioned
    exact ⟨own, returned.named place listed⟩
  refine ⟨extended.roots, ?_, ?_, ?_⟩
  · intro root member node place mentioned
    obtain ⟨own, named⟩ := shared session consistent root member node place mentioned
    exact ⟨own, named, Environment.lookup?_of_isPrefix extended.environment named⟩
  · intro first member second listed node other place same mentioned mentioned_later name_eq
    obtain ⟨rfl, named⟩ := shared session consistent first member node place mentioned
    obtain ⟨rfl, named_later⟩ :=
      shared later (consistent.after more) second listed other same mentioned_later
    have again := Environment.lookup?_of_isPrefix extended.environment named
    rw [name_eq, named_later] at again
    rw [Option.some.inj again]
  · intro root member
    obtain ⟨tree, returned⟩ := consistent.returned root member
    rw [(returned.found session.workspace.heap List.prefix_rfl).1]
    exact (returned.extend extended).evaluate_eq

/-- A name is declared twice, and the program read then has the variable of the first declaration,
which is the program read before; its value is the one that was assigned last. -/
theorem variables_shared_by_name_twice :
    let workspace : Workspace := { Workspace.initial with registries := [.builtin] }
    let session := (Session.mk workspace ⟨0, [], none, 0⟩ []).after
      [.declare "x" (.boolean true), .parse none (some "x")]
    let later := session.after [.declare "x" (.boolean true), .parse none (some "NOT(x)"),
      .assign ⟨0, "x"⟩ (.boolean false)]
    workspace.registry 0 = .builtin ∧
      later.roots = [.variable ⟨0, "x"⟩, .cell 0] ∧
      later.workspace.heap.Mentions (.cell 0) (.variable ⟨0, "x"⟩) ⟨0, "x"⟩ ∧
      (∀ node place, later.workspace.heap.Mentions (.cell 0) node place → place.name = "x" →
        node = .variable ⟨0, "x"⟩) ∧
      (later.workspace.evaluate (.variable ⟨0, "x"⟩)).1 = .ok (.boolean false) := by
  intro workspace session later
  have permitted : ∀ (environment : Environment) depth,
      (Language.builtin environment {}).Permits depth :=
    fun environment => Language.permits_of_unlimited rfl
  have read_name : (Language.builtin [⟨0, "x"⟩] {}).parse none "x" =
      .ok (.leaf (.variable ⟨0, "x"⟩)) :=
    Language.parseAt_eq_ok_iff.mpr ⟨permitted _ 1, .terminal (by decide) rfl⟩
  have read_call : (Language.builtin [⟨0, "x"⟩, ⟨1, "x"⟩] {}).parse none "NOT(x)" =
      .ok (.node (.operator .negation) [.leaf (.variable ⟨0, "x"⟩)]) := by
    refine Language.parseAt_eq_ok_iff.mpr ⟨permitted _ 1, ?_⟩
    refine @Language.Reading.call _ _ _ "NOT".toList "x)".toList ['x'] [['x']] _ _ (by decide) rfl
      rfl rfl rfl (.cons ?_ .nil)
    exact Language.parseAt_eq_ok_iff.mpr ⟨permitted _ 2, .terminal (by decide) rfl⟩
  obtain ⟨-, -, shared, computed⟩ : _ ∧ _ ∧
      (∀ first ∈ session.roots, ∀ second ∈ later.roots, ∀ node other place same,
        session.workspace.heap.Mentions first node place →
        later.workspace.heap.Mentions second other same → place.name = same.name → node = other) ∧
      ∀ root ∈ session.roots,
        later.workspace.evaluate root = later.workspace.evaluateTree
          ((session.workspace.heap.tree root).withValues later.valueOf) :=
    variables_shared_by_name workspace ⟨0, [], none, 0⟩ rfl _ _
  have session_eq : session = _ := perform_parse (.leaf (.variable ⟨0, "x"⟩)) read_name
  have later_eq : later = ((session.perform (.declare "x" (.boolean true))).perform
    (.parse none (some "NOT(x)"))).perform (.assign ⟨0, "x"⟩ (.boolean false)) := rfl
  clear_value later session
  subst session_eq
  rw [perform_parse (.node (.operator .negation) [.leaf (.variable ⟨0, "x"⟩)]) ?called] at later_eq
  case called => exact read_call
  subst later_eq
  refine ⟨rfl, rfl, ⟨[0], _, rfl, rfl, rfl⟩, ?_, ?_⟩
  · intro node place mentioned named
    exact (shared (.variable ⟨0, "x"⟩) List.mem_cons_self (.cell 0) (by decide) _ _ _ _
      ⟨[], _, rfl, rfl, rfl⟩ mentioned named.symm).symm
  · rw [computed (.variable ⟨0, "x"⟩) List.mem_cons_self]
    rfl

end Session

end GeneticProgram
