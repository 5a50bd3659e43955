import GeneticProgram.Heap
import GeneticProgram.Proofs.CompleteTree
import GeneticProgram.Proofs.LiteralConversion
import GeneticProgram.Proofs.ParseFailures

/-!
# Assembling a tree slot by slot

Reading a program can be spelled out with operations that fail on their own: literals are converted
step by step, and the tree of a call is made by filling the slots of a bare node one after another,
where a slot that the node does not have is refused.  This assembly gives what reading gives, so
that no failure but those of reading comes out of it: the number of arguments was compared with the
number of slots before the first one is filled, and every numeric literal can be converted.
-/

namespace GeneticProgram

/-- What can fail while a tree is assembled: the reading, the conversion of a literal, or the
filling of a slot. -/
inductive AssemblyError
  | parse (error : ParseError)
  | literal (fault : Literal.ConversionFault)
  | slot (error : SlotError)

namespace Tree

/-- Fill a slot of a node. -/
def setChild (tree : Tree) (index : Nat) (child : Tree) : Except SlotError Tree :=
  match tree with
  | .hole => .error .outOfRange
  | .node symbol children =>
    if index < symbol.arity then .ok (.node symbol (children.set index child))
    else .error (.noSlot symbol.identifier symbol.arity index)

/-- Fill the slots of a node from one on, each with what is read for it. -/
def fillFrom {Item : Type} (read : Item → Except AssemblyError Tree) (node : Tree) (index : Nat) :
    List Item → Except AssemblyError Tree
  | [] => .ok node
  | item :: rest => do
    let child ← read item
    let filled ← (node.setChild index child).mapError .slot
    filled.fillFrom read (index + 1) rest

/-- As many items as a node has unfilled slots fill them in their order. -/
theorem fillFrom_eq {Item : Type} {read : Item → Except AssemblyError Tree}
    {parsed : Item → Except ParseError Tree} {items : List Item}
    (reads : ∀ item ∈ items, read item = (parsed item).mapError .parse) {symbol : Symbol}
    (filled : List Tree) (counted : filled.length + items.length = symbol.arity) :
    fillFrom read (.node symbol (filled ++ List.replicate items.length .hole)) filled.length items =
      ((items.mapM parsed).map fun children => .node symbol (filled ++ children)).mapError
        .parse := by
  induction items generalizing filled with
  | nil => rfl
  | cons item rest induction =>
      rw [fillFrom, reads item List.mem_cons_self, List.mapM_cons]
      cases parsed item with
      | error error => rfl
      | ok child =>
          have slot : filled.length < symbol.arity := by
            rw [← counted, List.length_cons]
            omega
          have placed : (filled ++ List.replicate (item :: rest).length Tree.hole).set filled.length
              child = (filled ++ [child]) ++ List.replicate rest.length .hole := by
            rw [List.length_cons, List.replicate_succ, List.set_append_right _ _ (Nat.le_refl _),
              Nat.sub_self, List.set_cons_zero, List.append_assoc]
            rfl
          have recounted : (filled ++ [child]).length + rest.length = symbol.arity := by
            rw [← counted, List.length_append, List.length_cons, List.length_cons, List.length_nil]
            omega
          have rest_reads := fun other member => reads other (List.mem_cons_of_mem item member)
          have next := induction rest_reads (filled ++ [child]) recounted
          rw [List.length_append] at next
          simp only [Except.mapError, Outcome.ok_bind, setChild, slot, if_true, placed]
          refine next.trans ?_
          cases rest.mapM parsed with
          | error error => rfl
          | ok children =>
              change Except.ok (Tree.node symbol (filled ++ [child] ++ children)) =
                .ok (.node symbol (filled ++ child :: children))
              rw [List.append_assoc]
              rfl

/-- As many items as a symbol has arguments make its node complete. -/
theorem fillFrom_bare {Item : Type} {read : Item → Except AssemblyError Tree}
    {parsed : Item → Except ParseError Tree} {items : List Item}
    (reads : ∀ item ∈ items, read item = (parsed item).mapError .parse) {symbol : Symbol}
    (counted : symbol.arity = items.length) :
    (bare symbol).fillFrom read 0 items =
      ((items.mapM parsed).map (.node symbol)).mapError .parse := by
  have unfilled : bare symbol = .node symbol ([] ++ List.replicate items.length .hole) := by
    rw [← counted]
    rfl
  rw [unfilled]
  exact fillFrom_eq reads [] (by simpa using counted.symm)

end Tree

namespace Source

/-- The symbol that a terminal stands for, its literal converted step by step. -/
def resolveTerminal (environment : Environment) (text : List Char) :
    Except Literal.ConversionFault (Option Symbol) :=
  match Literal.boolean? text with
  | some truth => .ok (some (.boolean truth))
  | none =>
    match environment.lookup? (String.ofList text) with
    | some place => .ok (some (.variable place))
    | none => (Literal.convert text).map fun number => number.map .double

theorem resolveTerminal_eq (environment : Environment) (text : List Char) :
    resolveTerminal environment text = .ok (terminal? environment text) := by
  unfold resolveTerminal terminal?
  rw [Literal.convert_eq]
  cases Literal.boolean? text with
  | some truth => rfl
  | none =>
      cases environment.lookup? (String.ofList text) with
      | some place => rfl
      | none => rfl

end Source

namespace Language

open Source

/-- Assemble the tree of a text that stands at a depth of a program. -/
def assembleAt (language : Language) (context : Option Context) (depth : Nat) (text : List Char) :
    Except AssemblyError Tree :=
  match language.settings.maxDepth.filter fun limit => limit < (depth : Int) with
  | some limit => .error (.parse (.tooDeep limit))
  | none =>
    if '(' ∈ text then
      match language.head context text with
      | .error error => .error (.parse error)
      -- The outermost part of a text with an opening parenthesis is a call.
      | .ok (.terminal symbol) => .ok (.leaf symbol)
      | .ok (.call symbol arguments shorter) =>
        (Tree.bare symbol).fillFrom (fun ⟨argument, listed⟩ =>
          have := shorter argument listed
          language.assembleAt context (depth + 1) argument) 0 arguments.attach
    else
      match resolveTerminal language.environment text with
      | .error fault => .error (.literal fault)
      | .ok none => .error (.parse (.unknownTerminal text))
      | .ok (some symbol) => .ok (.leaf symbol)
termination_by text.length

/-- Assemble the tree of a program. -/
def assemble (language : Language) (context : Option Context) (source : String) :
    Except AssemblyError Tree :=
  language.assembleAt context 1 (Text.trim source.toList)

variable {language : Language} {context : Option Context}

/-- A call that was recognised has as many arguments as its symbol takes. -/
theorem arity_of_head {text : List Char} {symbol : Symbol} {arguments : List (List Char)}
    {shorter : ∀ argument ∈ arguments, argument.length < text.length} (opened : '(' ∈ text)
    (found : language.head context text = .ok (.call symbol arguments shorter)) :
    symbol.arity = arguments.length := by
  obtain ⟨name, after, rfl, plain⟩ := eq_call_of_mem opened
  have parts : (language.head context (name ++ '(' :: after)).map outline = _ := outline_call plain
  rw [found] at parts
  obtain ⟨inner, -, parts⟩ := Outcome.bind_eq_ok_iff.mp parts.symm
  obtain ⟨given, -, parts⟩ := Outcome.bind_eq_ok_iff.mp parts
  obtain ⟨made, resolved, parts⟩ := Outcome.bind_eq_ok_iff.mp parts
  obtain ⟨rfl, given_eq⟩ := Prod.mk.inj (Except.ok.inj parts)
  obtain rfl := Option.some.inj given_eq
  exact (callee_eq_ok_iff.mp resolved).2

/-- Assembling is reading: only the failures of reading come out of it. -/
theorem assembleAt_eq (depth : Nat) (text : List Char) :
    language.assembleAt context depth text =
      (language.parseAt context depth text).mapError .parse := by
  induction size : text.length using Nat.strong_induction_on generalizing depth text with
  | _ size induction =>
      rw [assembleAt]
      by_cases permitted : language.Permits depth
      · rw [filter_eq_none_of_permits permitted]
        by_cases opened : '(' ∈ text
        · rw [parseAt_outline permitted]
          simp only [opened, if_true]
          cases found : language.head context text with
          | error error => rfl
          | ok part =>
              cases part with
              | terminal symbol => rfl
              | call symbol arguments shorter =>
                  have reads : ∀ item ∈ arguments.attach,
                      language.assembleAt context (depth + 1) item.1 =
                        (language.parseAt context (depth + 1) item.1).mapError .parse :=
                    fun item _ => induction item.1.length (size ▸ shorter item.1 item.2) _ _ rfl
                  have counted : symbol.arity = arguments.attach.length := by
                    rw [List.length_attach, arity_of_head opened found]
                  have filled := Tree.fillFrom_bare reads counted
                  rw [mapM_attach arguments (language.parseAt context (depth + 1))] at filled
                  exact filled
        · simp only [opened, if_false]
          rw [resolveTerminal_eq, parseAt_terminal permitted opened]
          cases terminal? language.environment text with
          | none => rfl
          | some symbol => rfl
      · obtain ⟨limit, -, exceeded⟩ := filter_eq_some_of_not_permits permitted
        rw [parseAt_eq, exceeded]
        rfl

/-- Over factories that make symbols, every program is assembled to a complete tree, the one that is
read, or is refused in one of the documented ways.  No slot is ever refused, and no literal fails to
be converted. -/
theorem assemble_complete_or_documented (language : Language)
    (reliable : language.registry.Reliable) (context : Option Context) (source : String) :
    (∃ tree, language.assemble context source = .ok tree ∧
        language.parse context source = .ok tree ∧ tree.Complete ∧ tree.arityViolations = []) ∨
      ∃ error kind, language.assemble context source = .error (.parse error) ∧
        language.parse context source = .error error ∧ error.kind? = some kind := by
  have assembled : language.assemble context source =
      (language.parse context source).mapError .parse := assembleAt_eq 1 _
  cases outcome : language.parse context source with
  | ok tree =>
      have complete : tree.Complete := parseAt_complete outcome
      rw [outcome] at assembled
      exact .inl ⟨tree, assembled, rfl, complete, complete.arityViolations⟩
  | error error =>
      obtain ⟨kind, documented⟩ := language.parseAt_error_kind reliable outcome
      rw [outcome] at assembled
      exact .inr ⟨error, kind, assembled, rfl, documented⟩

/-- A registered function beside a built-in one, and a hexadecimal literal that overflows. -/
theorem assemble_pick_complete :
    (Registry.builtin.register "PICK" (.free (.ok (.function "PICK" 2)))).Reliable ∧
      (⟨Registry.builtin.register "PICK" (.free (.ok (.function "PICK" 2))), [], {}⟩ :
          Language).assemble (some ⟨3, 400⟩) "PICK(0x1p2000f, MOVE())" =
        .ok (.node (.function "PICK" 2)
          [.leaf (.double .infinity), .node (.action .move 3) []]) ∧
      (Tree.node (.function "PICK" 2)
        [.leaf (.double .infinity), .node (.action .move 3) []]).Complete := by
  let registry := Registry.builtin.register "PICK" (.free (.ok (.function "PICK" 2)))
  let language : Language := ⟨registry, [], {}⟩
  let picked : Tree := .node (.function "PICK" 2)
    [.leaf (.double .infinity), .node (.action .move 3) []]
  have reliable : registry.Reliable := Registry.reliable_builtin.register "PICK" ⟨_, rfl⟩
  have permitted : ∀ depth, language.Permits depth := permits_of_unlimited rfl
  have read : language.parse (some ⟨3, 400⟩) "PICK(0x1p2000f, MOVE())" = .ok picked := by
    refine parseAt_eq_ok_iff.mpr ⟨permitted 1, ?_⟩
    refine @Reading.call _ _ _ "PICK".toList "0x1p2000f, MOVE())".toList
      "0x1p2000f, MOVE()".toList ["0x1p2000f".toList, "MOVE()".toList] _ _ (by decide)
      rfl rfl rfl rfl (.cons ?_ (.cons ?_ .nil))
    · exact parseAt_eq_ok_iff.mpr ⟨permitted 2, .terminal (by decide) rfl⟩
    · refine parseAt_eq_ok_iff.mpr ⟨permitted 2, ?_⟩
      exact @Reading.call _ _ _ "MOVE".toList [')'] [] [] _ _ (by decide) rfl rfl rfl rfl .nil
  refine ⟨reliable, ?_⟩
  obtain ⟨tree, assembled, read_again, complete, -⟩ | ⟨error, kind, -, failed, -⟩ :=
    assemble_complete_or_documented language reliable (some ⟨3, 400⟩) "PICK(0x1p2000f, MOVE())"
  · obtain rfl : tree = picked := Except.ok.inj (read_again.symm.trans read)
    exact ⟨assembled, complete⟩
  · rw [read] at failed
    cases failed

end Language

end GeneticProgram
