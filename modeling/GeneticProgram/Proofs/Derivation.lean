import GeneticProgram.Proofs.ParseFailures

/-!
# The grammar of strict programs

A text derives a tree when it is a terminal, or a name with an argument list between parentheses and
nothing but white space behind it, each argument deriving one child.  The rules speak of the text
alone: they find no parenthesis and split no list.  Strict reading without a limit on the depth
finds exactly the derived trees, so that a text derives at most one.
-/

namespace GeneticProgram

open Source

/-- A text derives a tree. -/
inductive Derives (registry : Registry) (environment : Environment) (context : Option Context) :
    List Char → Tree → Prop
  /-- A text without an opening parenthesis is what it stands for as a terminal. -/
  | terminal {text : List Char} {symbol : Symbol} (bare : '(' ∉ text)
      (found : terminal? environment text = some symbol) :
      Derives registry environment context text (.leaf symbol)
  /-- A registered name with as many arguments as its symbol has is a call. -/
  | call {name body blanks : List Char} {entry : Entry} {symbol : Symbol}
      {arguments : List (List Char)} {children : List Tree} (plain : '(' ∉ name)
      (white : ∀ character ∈ blanks, Text.isBlank character = true)
      (registered : registry.entry? (String.ofList name) = some entry)
      (made : entry.create context = .ok symbol)
      (list : ArgumentList (Text.trim body) arguments)
      (counted : arguments.length = symbol.arity)
      (below : List.Forall₂ (Derives registry environment context) arguments children) :
      Derives registry environment context (name ++ '(' :: (body ++ ')' :: blanks))
        (.node symbol children)

namespace Language

variable (language : Language) {context : Option Context}

/-- What is read strictly is derived. -/
theorem derives_of_parseAt (strict : language.settings.strict = true) {depth : Nat}
    {text : List Char} {tree : Tree} (read : language.parseAt context depth text = .ok tree) :
    Derives language.registry language.environment context text tree := by
  refine parseAt_induction
    (motive := fun _ => Derives language.registry language.environment context) ?_ ?_ read
  · intro depth text symbol _ bare found
    exact .terminal bare found
  · intro depth name after inner arguments symbol children _ plain closed splitting resolved counted
      below
    obtain ⟨tail, rfl, -, blank⟩ := (body_strict_iff strict).mp closed
    obtain ⟨entry, registered, made⟩ := Registry.resolve_eq_some_iff.mp resolved
    exact .call plain (Text.trim_eq_nil_iff.mp blank) registered made
      (splitArguments_eq_ok_iff.mp splitting) counted.symm
      (below.imp fun argument child both => both.2)

/-- What is derived is read strictly, if the depth is not limited. -/
theorem parseAt_of_derives (strict : language.settings.strict = true)
    (unlimited : language.settings.maxDepth = none) (depth : Nat) {text : List Char} {tree : Tree}
    (derived : Derives language.registry language.environment context text tree) :
    language.parseAt context depth text = .ok tree := by
  -- The arguments of a call are shorter than the call, whatever the derivation of them is.
  induction size : text.length using Nat.strong_induction_on generalizing depth text tree with
  | _ size induction =>
      refine parseAt_eq_ok_iff.mpr ⟨permits_of_unlimited unlimited depth, ?_⟩
      cases derived with
      | terminal bare found => exact .terminal bare found
      | @call name body blanks entry symbol arguments children plain white registered made list
          counted below =>
          have splitting := splitArguments_eq_ok_iff.mpr list
          have closed : language.body (name ++ '(' :: (body ++ ')' :: blanks))
              (body ++ ')' :: blanks) = .ok body :=
            (body_strict_iff strict).mpr
              ⟨blanks, rfl, balanced_of_splitArguments splitting, Text.trim_eq_nil_iff.mpr white⟩
          have resolved := Registry.resolve_eq_some_iff.mpr ⟨entry, registered, made⟩
          refine .call plain closed splitting resolved counted.symm ?_
          refine (Outcome.forall₂_and_mem below).imp ?_
          rintro argument child ⟨listed, derived_argument⟩
          have shorter := length_lt_of_argument closed splitting listed
          exact induction argument.length (size ▸ shorter) (depth + 1) derived_argument rfl

/-- Strict reading without a limit on the depth accepts exactly the grammar: it gives the one tree
that the trimmed text derives, and a documented failure where there is none. -/
theorem strict_parse_iff_derives (registry : Registry) (environment : Environment)
    (context : Option Context) (reliable : registry.Reliable) :
    let language : Language := ⟨registry, environment, { strict := true, maxDepth := none }⟩
    (∀ (source : String) (tree : Tree),
        language.parse context source = .ok tree ↔
          Derives registry environment context (Text.trim source.toList) tree) ∧
      (∀ (text : List Char) (first second : Tree),
        Derives registry environment context text first →
          Derives registry environment context text second → first = second) ∧
      ∀ source : String,
        (¬∃ tree, Derives registry environment context (Text.trim source.toList) tree) →
          ∃ error kind, language.parse context source = .error error ∧
            error.kind? = some kind := by
  intro language
  have reads : ∀ (text : List Char) (tree : Tree),
      language.parseAt context 1 text = .ok tree ↔
        Derives registry environment context text tree := by
    intro text tree
    exact ⟨language.derives_of_parseAt rfl,
      language.parseAt_of_derives rfl rfl 1⟩
  refine ⟨fun source tree => reads (Text.trim source.toList) tree, ?_, ?_⟩
  · intro text first second first_derived second_derived
    have first_read := (reads text first).mpr first_derived
    have second_read := (reads text second).mpr second_derived
    exact Except.ok.inj (first_read.symm.trans second_read)
  · intro source underivable
    cases outcome : language.parse context source with
    | ok tree => exact absurd ⟨tree, (reads _ tree).mp outcome⟩ underivable
    | error error =>
        obtain ⟨kind, documented⟩ := language.parseAt_error_kind reliable outcome
        exact ⟨error, kind, rfl, documented⟩

/-- A call inside a call, with a space and a comma between the arguments, an empty list of
arguments, and white space around and behind the calls. -/
theorem strict_parse_and_move_variable :
    Registry.builtin.Reliable ∧
      (builtin [⟨0, "x"⟩] { strict := true, maxDepth := none }).parse (some ⟨3, 400⟩)
          " AND(\tMOVE( ) ,x\n)\n" =
        .ok (.node (.operator (.connective .and))
          [.node (.action .move 3) [], .leaf (.variable ⟨0, "x"⟩)]) := by
  refine ⟨Registry.reliable_builtin, ?_⟩
  refine ((strict_parse_iff_derives _ _ _ Registry.reliable_builtin).1 _ _).mpr ?_
  have move_whole : IsArgument ("MOVE".toList ++ '(' :: ([' '] ++ [')'])) :=
    isArgument_call (Text.forall_mem_of_all (by decide)) (Text.forall_mem_of_all (by decide))
      (by decide)
  have variable_whole : IsArgument ['x'] :=
    ⟨by decide, by decide, solid_of_forall (Text.forall_mem_of_all (by decide)) 0⟩
  have list : ArgumentList (Text.trim "\tMOVE( ) ,x\n".toList) ["MOVE( )".toList, ['x']] :=
    .inr (.cons move_whole (.comma 1 0) (.last variable_whole))
  refine @Derives.call _ _ _ "AND".toList "\tMOVE( ) ,x\n".toList [] _ _ _ _
    (by decide) (Text.forall_mem_of_all (by decide)) rfl rfl list rfl (.cons ?_ (.cons ?_ .nil))
  · exact @Derives.call _ _ _ "MOVE".toList [' '] [] _ _ _ _
      (by decide) (Text.forall_mem_of_all (by decide)) rfl rfl (.inl ⟨rfl, rfl⟩) rfl .nil
  · exact .terminal (by decide) (by decide)

end Language
end GeneticProgram
