import GeneticProgram.Parser
import GeneticProgram.Proofs.ArgumentGrammar
import GeneticProgram.Registry.Builtin

/-!
# The steps of reading a program

Reading a text looks at its first opening parenthesis only: without one the text is a terminal, with
one it is a call, whose arguments are read one level deeper.  Everything a reading can do is said
here once, as an equation for each of the two forms, as the one way in which a reading succeeds, and
as an induction over successful readings.
-/

namespace GeneticProgram

open Source

/-- A registered function gives a symbol when its entry does. -/
theorem Registry.resolve_eq_some_iff {registry : Registry} {context : Option Context}
    {name : String} {symbol : Symbol} :
    registry.resolve context name = .ok (some symbol) ↔
      ∃ entry, registry.entry? name = some entry ∧ entry.create context = .ok symbol := by
  rw [resolve]
  cases registry.entry? name with
  | none => simp
  | some entry =>
      simp only [Option.some.injEq, exists_eq_left', Outcome.map_eq_ok_iff]
      exact ⟨fun ⟨_, made, equal⟩ => equal ▸ made, fun made => ⟨symbol, made, rfl⟩⟩

theorem Environment.name_of_lookup? {environment : Environment} {name : String} {place : Variable}
    (found : environment.lookup? name = some place) : place.name = name := by
  simpa using List.find?_some found

/-- A terminal is a boolean literal, a variable of the name, or a numeric literal. -/
theorem Source.terminal?_cases {environment : Environment} {text : List Char} {symbol : Symbol}
    (found : terminal? environment text = some symbol) :
    (∃ truth, symbol = .boolean truth) ∨
      (∃ place, symbol = .variable place ∧ place.name.toList = text) ∨
      ∃ number, symbol = .double number := by
  rw [terminal?] at found
  split at found
  · rename_i truth _
    exact .inl ⟨truth, (Option.some.inj found).symm⟩
  · split at found
    · rename_i place bound
      have name_eq := Environment.name_of_lookup? bound
      exact .inr (.inl ⟨place, (Option.some.inj found).symm, by rw [name_eq, String.toList_ofList]⟩)
    · obtain ⟨number, -, symbol_eq⟩ := Option.map_eq_some_iff.mp found
      exact .inr (.inr ⟨number, symbol_eq.symm⟩)

namespace Language

variable {language : Language} {context : Option Context}

/-- The built-in functions with some variables. -/
def builtin (environment : Environment) (settings : ParserSettings) : Language :=
  ⟨Registry.builtin, environment, settings⟩

/-- A depth is within the limit, if there is one. -/
def Permits (language : Language) (depth : Nat) : Prop :=
  ∀ limit ∈ language.settings.maxDepth, (depth : Int) ≤ limit

theorem permits_of_unlimited (unlimited : language.settings.maxDepth = none) (depth : Nat) :
    language.Permits depth := by
  intro limit listed
  rw [unlimited] at listed
  cases listed

theorem callee_eq_ok_iff {name : String} {given : Nat} {symbol : Symbol} :
    language.callee context name given = .ok symbol ↔
      language.registry.resolve context name = .ok (some symbol) ∧ symbol.arity = given := by
  rw [callee]
  split
  · rename_i error resolved
    simp [resolved]
  · rename_i resolved
    simp [resolved]
  · rename_i other resolved
    rw [resolved, Except.ok.injEq, Option.some.injEq]
    by_cases counted : other.arity = given
    · rw [if_pos counted, Except.ok.injEq]
      exact ⟨fun equal => ⟨equal, equal ▸ counted⟩, fun both => both.1⟩
    · rw [if_neg counted]
      simp only [reduceCtorEq, false_iff, not_and]
      rintro rfl
      exact counted

section Body

variable {text after inner : List Char}

theorem body_strict_iff (strict : language.settings.strict = true) :
    language.body text after = .ok inner ↔
      ∃ tail, after = inner ++ ')' :: tail ∧ Balanced inner ∧ Text.trim tail = [] := by
  rw [body]
  rw [if_pos strict]
  cases cut : cutAtClosing 1 after with
  | none =>
      simp only [reduceCtorEq, false_iff, not_exists, not_and]
      intro tail after_eq balanced _
      rw [cutAtClosing_one_iff.mpr ⟨after_eq, balanced⟩] at cut
      cases cut
  | some parts =>
      obtain ⟨found, tail⟩ := parts
      obtain ⟨after_eq, balanced⟩ := cutAtClosing_one_iff.mp cut
      simp only [List.isEmpty_iff]
      constructor
      · intro closed
        split at closed
        · rename_i blank
          obtain rfl := Except.ok.inj closed
          exact ⟨tail, after_eq, balanced, blank⟩
        · cases closed
      · rintro ⟨other, other_eq, other_balanced, blank⟩
        rw [cutAtClosing_one_iff.mpr ⟨other_eq, other_balanced⟩] at cut
        obtain ⟨rfl, rfl⟩ := Prod.mk.inj (Option.some.inj cut)
        rw [if_pos blank]

theorem body_lenient_iff (lenient : language.settings.strict = false) :
    language.body text after = .ok inner ↔
      ∃ tail, after = inner ++ ')' :: tail ∧ ')' ∉ tail := by
  rw [body]
  rw [if_neg (by simp [lenient]), ← beforeLastClosing_eq_some_iff]
  cases beforeLastClosing after with
  | none => simp
  | some found => simp

end Body

section Equations

theorem filter_eq_none_of_permits {depth : Nat} (permitted : language.Permits depth) :
    (language.settings.maxDepth.filter fun limit => limit < (depth : Int)) = none := by
  rw [Option.filter_eq_none_iff]
  intro limit listed
  have within := permitted limit listed
  simpa using within

theorem filter_eq_some_of_not_permits {depth : Nat} (refused : ¬language.Permits depth) :
    ∃ limit, language.settings.maxDepth = some limit ∧
      (language.settings.maxDepth.filter fun limit => limit < (depth : Int)) = some limit := by
  simp only [Permits, not_forall, Int.not_le] at refused
  obtain ⟨limit, listed, exceeded⟩ := refused
  refine ⟨limit, listed, ?_⟩
  rw [Option.mem_def.mp listed]
  simp only [Option.filter, exceeded, decide_true, ↓reduceIte]

theorem parseAt_tooDeep (context : Option Context) {depth : Nat}
    (refused : ¬language.Permits depth) (text : List Char) :
    ∃ limit, language.settings.maxDepth = some limit ∧
      language.parseAt context depth text = .error (.tooDeep limit) := by
  obtain ⟨limit, limited, exceeded⟩ := filter_eq_some_of_not_permits refused
  refine ⟨limit, limited, ?_⟩
  rw [parseAt_eq, exceeded]

/-- The outermost part of a program, without the sizes of the arguments. -/
def outline {text : List Char} : Head text → Symbol × Option (List (List Char))
  | .terminal symbol => (symbol, none)
  | .call symbol arguments _ => (symbol, some arguments)

theorem parseAt_outline {depth : Nat} (permitted : language.Permits depth) (text : List Char) :
    language.parseAt context depth text =
      (language.head context text).map outline >>= fun part =>
        match part.2 with
        | none => .ok (.leaf part.1)
        | some arguments =>
            (arguments.mapM (language.parseAt context (depth + 1))).map (.node part.1) := by
  rw [parseAt_eq]
  simp only [filter_eq_none_of_permits permitted]
  rcases language.head context text with error | ⟨symbol⟩ | ⟨symbol, arguments, shorter⟩
  · rfl
  · rfl
  · rfl

theorem ne_opening_of_mem {text : List Char} (bare : '(' ∉ text) :
    ∀ character ∈ text, (character != '(') = true := by
  intro character member
  have different : character ≠ '(' := fun equal => bare (equal ▸ member)
  simpa using different

theorem outline_terminal {text : List Char} (bare : '(' ∉ text) :
    (language.head context text).map outline =
      match terminal? language.environment text with
      | some symbol => .ok (symbol, none)
      | none => .error (.unknownTerminal text) := by
  have nothing : text.dropWhile (· != '(') = [] :=
    List.dropWhile_eq_nil_iff.mpr (ne_opening_of_mem bare)
  rw [head]
  split
  · cases terminal? language.environment text with
    | none => rfl
    | some symbol => rfl
  · rename_i opening
    rw [nothing] at opening
    cases opening

theorem outline_call {name after : List Char} (plain : '(' ∉ name) :
    (language.head context (name ++ '(' :: after)).map outline = (do
      let inner ← language.body (name ++ '(' :: after) after
      let arguments ← (splitArguments inner).mapError .arguments
      let symbol ← language.callee context (String.ofList name) arguments.length
      pure (symbol, some arguments)) := by
  have free := ne_opening_of_mem plain
  have opening : (name ++ '(' :: after).dropWhile (· != '(') = '(' :: after := by
    rw [List.dropWhile_append_of_pos free]
    rfl
  have named : (name ++ '(' :: after).takeWhile (· != '(') = name := by
    rw [List.takeWhile_append_of_pos free]
    simp
  rw [head]
  split
  · rename_i nothing
    rw [opening] at nothing
    cases nothing
  · rename_i first rest found
    rw [opening] at found
    obtain ⟨rfl, rfl⟩ := List.cons.inj found
    rw [named]
    split
    · rename_i error closing
      rw [closing]
      rfl
    · rename_i inner closing
      split
      · rename_i error splitting
        rw [closing, Outcome.ok_bind, splitting]
        rfl
      · rename_i arguments splitting
        dsimp only
        cases found : language.callee context (String.ofList name) arguments.length with
        | error error =>
            simp only [Except.map]
            rw [closing, Outcome.ok_bind, splitting]
            simp only [Except.mapError, Outcome.ok_bind, found]
            rfl
        | ok symbol =>
            -- The sizes of the arguments are forgotten before anything is rewritten.
            simp only [Except.map, outline]
            rw [closing, Outcome.ok_bind, splitting]
            simp only [Except.mapError, Outcome.ok_bind, found]
            rfl

theorem parseAt_terminal {depth : Nat} {text : List Char} (permitted : language.Permits depth)
    (bare : '(' ∉ text) :
    language.parseAt context depth text =
      match terminal? language.environment text with
      | some symbol => .ok (.leaf symbol)
      | none => .error (.unknownTerminal text) := by
  rw [parseAt_outline permitted, outline_terminal bare]
  cases terminal? language.environment text with
  | none => rfl
  | some symbol => rfl

theorem parseAt_call {depth : Nat} {name after : List Char} (permitted : language.Permits depth)
    (plain : '(' ∉ name) :
    language.parseAt context depth (name ++ '(' :: after) = (do
      let inner ← language.body (name ++ '(' :: after) after
      let arguments ← (splitArguments inner).mapError .arguments
      let symbol ← language.callee context (String.ofList name) arguments.length
      (arguments.mapM (language.parseAt context (depth + 1))).map (.node symbol)) := by
  rw [parseAt_outline permitted, outline_call plain]
  simp only [bind_assoc, pure_bind]

/-- A text without an opening parenthesis is a terminal, every other one a call. -/
theorem eq_call_of_mem {text : List Char} (opened : '(' ∈ text) :
    ∃ name after, text = name ++ '(' :: after ∧ '(' ∉ name :=
  List.eq_append_cons_of_mem opened

end Equations

section Success

/-- How a reading succeeds: with a terminal, or with a call whose arguments are read one level
deeper. -/
inductive Reading (language : Language) (context : Option Context) (depth : Nat) :
    List Char → Tree → Prop
  | terminal {text : List Char} {symbol : Symbol} (bare : '(' ∉ text)
      (found : terminal? language.environment text = some symbol) :
      Reading language context depth text (.leaf symbol)
  | call {name after inner : List Char} {arguments : List (List Char)} {symbol : Symbol}
      {children : List Tree} (plain : '(' ∉ name)
      (closed : language.body (name ++ '(' :: after) after = .ok inner)
      (splitting : splitArguments inner = .ok arguments)
      (resolved : language.registry.resolve context (String.ofList name) = .ok (some symbol))
      (counted : symbol.arity = arguments.length)
      (below : List.Forall₂
        (fun argument child => language.parseAt context (depth + 1) argument = .ok child)
        arguments children) :
      Reading language context depth (name ++ '(' :: after) (.node symbol children)

theorem parseAt_eq_ok_iff {depth : Nat} {text : List Char} {tree : Tree} :
    language.parseAt context depth text = .ok tree ↔
      language.Permits depth ∧ Reading language context depth text tree := by
  constructor
  · intro read
    by_cases permitted : language.Permits depth
    · refine ⟨permitted, ?_⟩
      by_cases opened : '(' ∈ text
      · obtain ⟨name, after, rfl, plain⟩ := eq_call_of_mem opened
        rw [parseAt_call permitted plain] at read
        obtain ⟨inner, closed, read⟩ := Outcome.bind_eq_ok_iff.mp read
        obtain ⟨arguments, splitting, read⟩ := Outcome.bind_eq_ok_iff.mp read
        obtain ⟨symbol, found, read⟩ := Outcome.bind_eq_ok_iff.mp read
        obtain ⟨children, below, rfl⟩ := Outcome.map_eq_ok_iff.mp read
        obtain ⟨resolved, counted⟩ := callee_eq_ok_iff.mp found
        exact .call plain closed (Outcome.mapError_eq_ok_iff.mp splitting) resolved counted
          (Outcome.mapM_eq_ok_iff.mp below)
      · rw [parseAt_terminal permitted opened] at read
        split at read
        · rename_i symbol found
          obtain rfl := Except.ok.inj read
          exact .terminal opened found
        · cases read
    · obtain ⟨limit, -, refused⟩ := parseAt_tooDeep context permitted text
      rw [refused] at read
      cases read
  · rintro ⟨permitted, reading⟩
    cases reading with
    | terminal bare found => rw [parseAt_terminal permitted bare, found]
    | call plain closed splitting resolved counted below =>
        rw [parseAt_call permitted plain, closed, Outcome.ok_bind, splitting]
        simp only [Except.mapError, Outcome.ok_bind]
        rw [callee_eq_ok_iff.mpr ⟨resolved, counted⟩, Outcome.ok_bind,
          Outcome.mapM_eq_ok_iff.mpr below]
        rfl

/-- The arguments of a call are shorter than its text. -/
theorem length_lt_of_argument {name after inner argument : List Char}
    {arguments : List (List Char)}
    (closed : language.body (name ++ '(' :: after) after = .ok inner)
    (splitting : splitArguments inner = .ok arguments) (listed : argument ∈ arguments) :
    argument.length < (name ++ '(' :: after).length := by
  have short := length_body closed
  have part := length_le_of_mem_splitArguments splitting listed
  simp
  omega

/-- What holds of every terminal, and of every call whose arguments have it, holds of everything
that is read. -/
theorem parseAt_induction {motive : Nat → List Char → Tree → Prop}
    (terminal : ∀ {depth text symbol}, language.Permits depth → '(' ∉ text →
      terminal? language.environment text = some symbol → motive depth text (.leaf symbol))
    (call : ∀ {depth name after inner arguments symbol children}, language.Permits depth →
      '(' ∉ name → language.body (name ++ '(' :: after) after = .ok inner →
      splitArguments inner = .ok arguments →
      language.registry.resolve context (String.ofList name) = .ok (some symbol) →
      symbol.arity = arguments.length →
      List.Forall₂ (fun argument child =>
        language.parseAt context (depth + 1) argument = .ok child ∧
          motive (depth + 1) argument child) arguments children →
      motive depth (name ++ '(' :: after) (.node symbol children))
    {depth : Nat} {text : List Char} {tree : Tree}
    (read : language.parseAt context depth text = .ok tree) : motive depth text tree := by
  -- The arguments of a call are shorter than the call.
  induction size : text.length using Nat.strong_induction_on generalizing depth text tree with
  | _ size induction =>
      obtain ⟨permitted, reading⟩ := parseAt_eq_ok_iff.mp read
      cases reading with
      | terminal bare found => exact terminal permitted bare found
      | call plain closed splitting resolved counted below =>
          refine call permitted plain closed splitting resolved counted ?_
          refine (Outcome.forall₂_and_mem below).imp ?_
          rintro argument child ⟨listed, read_argument⟩
          have shorter := length_lt_of_argument closed splitting listed
          exact ⟨read_argument, induction argument.length (size ▸ shorter) read_argument rfl⟩

/-- Every symbol of a tree that is read stands for a terminal or is made for a call. -/
theorem source_of_mem_symbols {depth : Nat} {text : List Char} {tree : Tree}
    (read : language.parseAt context depth text = .ok tree) :
    ∀ symbol ∈ tree.symbols, (∃ token, terminal? language.environment token = some symbol) ∨
      ∃ name, language.registry.resolve context name = .ok (some symbol) := by
  refine parseAt_induction (motive := fun _ _ tree => ∀ symbol ∈ tree.symbols,
    (∃ token, terminal? language.environment token = some symbol) ∨
      ∃ name, language.registry.resolve context name = .ok (some symbol)) ?_ ?_ read
  · intro depth text symbol _ _ found
    exact Tree.forall_symbols_node_iff.mpr ⟨.inl ⟨text, found⟩, List.forall_mem_nil _⟩
  · intro depth name after inner arguments symbol children _ _ _ _ resolved _ below
    refine Tree.forall_symbols_node_iff.mpr ⟨.inr ⟨_, resolved⟩, ?_⟩
    intro child member
    obtain ⟨argument, -, -, known⟩ := Outcome.exists_of_forall₂ below member
    exact known

end Success

end Language
end GeneticProgram
