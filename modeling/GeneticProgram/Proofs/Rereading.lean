import GeneticProgram.Proofs.ParserSteps
import GeneticProgram.Proofs.WrittenLiteral
import GeneticProgram.Registry.Builtin
import GeneticProgram.Tree.Printer

/-!
# Reading a written program

The source of a tree that was read is read again, with the same settings, as the same tree.  The one
exception is a number that is hidden by a variable: written out, `1` is `1.0`, and where a variable
has that name the variable is read.  The result has the same source, so that writing and reading it
once more changes nothing.

Three things have to survive the writing of an argument: that it is one argument, that it does not
begin with white space at the front of its list, and that it does not end with white space at the
back.  They are carried through the reading of the whole tree.
-/

namespace GeneticProgram

namespace Tree

mutual

/-- The tree with every symbol changed in its place. -/
def relabel (change : Symbol → Symbol) : Tree → Tree
  | .hole => .hole
  | .node symbol children => .node (change symbol) (relabelAll change children)

/-- Several trees with every symbol changed in its place. -/
def relabelAll (change : Symbol → Symbol) : List Tree → List Tree
  | [] => []
  | child :: rest => child.relabel change :: relabelAll change rest

end

theorem relabelAll_eq_map (change : Symbol → Symbol) (trees : List Tree) :
    relabelAll change trees = trees.map (relabel change) := by
  induction trees with
  | nil => rfl
  | cons child rest induction => rw [relabelAll, induction, List.map_cons]

theorem argumentText_cons_cons (child next : Tree) (rest : List Tree) :
    argumentText (child :: next :: rest) =
      child.text ++ ',' :: ' ' :: argumentText (next :: rest) := by
  rw [argumentText]
  simp

/-- The arguments of a call are written with a comma and a space between any two neighbours. -/
theorem argumentText_eq_intercalate (trees : List Tree) :
    argumentText trees = [',', ' '].intercalate (trees.map text) := by
  induction trees with
  | nil => rfl
  | cons child rest induction =>
      cases rest with
      | nil =>
          rw [List.map_singleton, List.intercalate_singleton]
          rfl
      | cons next rest =>
          rw [argumentText_cons_cons, induction]
          simp [List.intercalate_cons_cons]

/-- A change of symbols that keeps how they are written. -/
structure KeepsNames (change : Symbol → Symbol) : Prop where
  /-- The name stays. -/
  identifier : ∀ symbol, (change symbol).identifier = symbol.identifier
  /-- A terminal stays a terminal. -/
  isTerminal : ∀ symbol, (change symbol).isTerminal = symbol.isTerminal

mutual

/-- Symbols of the same name leave the text of a tree as it is. -/
theorem text_relabel {change : Symbol → Symbol} (keeps : KeepsNames change) (tree : Tree) :
    (tree.relabel change).text = tree.text := by
  cases tree with
  | hole => rfl
  | node symbol children =>
      rw [relabel, text, text, keeps.isTerminal, keeps.identifier,
        argumentText_relabelAll keeps children]

theorem argumentText_relabelAll {change : Symbol → Symbol} (keeps : KeepsNames change)
    (trees : List Tree) : argumentText (relabelAll change trees) = argumentText trees := by
  match trees with
  | [] => rfl
  | [child] => exact text_relabel keeps child
  | child :: next :: rest =>
      have others := argumentText_relabelAll keeps (next :: rest)
      rw [relabelAll] at others
      rw [relabelAll, relabelAll, argumentText_cons_cons, argumentText_cons_cons,
        text_relabel keeps child, others]

end

end Tree

namespace Symbol

/-- What a written symbol is read as: a number of the name of a variable as the variable. -/
def reread (environment : Environment) : Symbol → Symbol
  | .double number =>
    match environment.lookup? number.literalText with
    | some place => .variable place
    | none => .double number
  | symbol => symbol

theorem keepsNames_reread (environment : Environment) :
    Tree.KeepsNames (reread environment) := by
  have numbers : ∀ number : Double,
      (reread environment (.double number)).identifier = number.literalText ∧
        (reread environment (.double number)).isTerminal = true := by
    intro number
    cases found : environment.lookup? number.literalText with
    | none => simp [reread, found, identifier, isTerminal]
    | some place => simp [reread, found, identifier, isTerminal, Environment.name_of_lookup? found]
  refine ⟨fun symbol => ?_, fun symbol => ?_⟩
  · cases symbol <;> first | exact (numbers _).1 | rfl
  · cases symbol <;> first | exact (numbers _).2 | rfl

end Symbol

/-- What the source of a tree is read as. -/
def Tree.reread (environment : Environment) (tree : Tree) : Tree :=
  tree.relabel (Symbol.reread environment)

namespace Source

/-- One text can take the place of another in a program: it is an argument where the other is one,
and it has white space at an end only where the other has. -/
structure Replaces (written text : List Char) : Prop where
  /-- An argument takes the place of an argument. -/
  isArgument : IsArgument text → IsArgument written
  /-- The first character is blank only if it was. -/
  first : (∀ character ∈ text.head?, Text.isBlank character = false) →
    ∀ character ∈ written.head?, Text.isBlank character = false
  /-- The last character is blank only if it was. -/
  last : (∀ character ∈ text.getLast?, Text.isBlank character = false) →
    ∀ character ∈ written.getLast?, Text.isBlank character = false

theorem Replaces.trimmed {written text : List Char} (replaces : Replaces written text)
    (trimmed : Text.Trimmed Text.isBlank text) : Text.Trimmed Text.isBlank written :=
  ⟨replaces.first trimmed.first, replaces.last trimmed.last⟩

/-- A text without any structure can take the place of every text. -/
theorem replaces_of_inert {written : List Char} (nonempty : written ≠ [])
    (inert : ∀ character ∈ written, isPlain character = true ∧ isSeparating character = false ∧
      Text.isBlank character = false) (text : List Char) : Replaces written text where
  isArgument _ :=
    { nonempty
      balanced := balanced_plain fun character member => (inert character member).1
      solid := solid_of_forall (fun character member => (inert character member).2.1) 0 }
  first _ character member := (inert character (List.mem_of_head? member)).2.2
  last _ character member := (inert character (List.mem_of_getLast? member)).2.2

/-- A written number is read as the number, or as the variable of its name. -/
theorem terminal?_text (environment : Environment) (number : Double) :
    terminal? environment (number.text Double.literalSpelling) =
      some (Symbol.reread environment (.double number)) := by
  have lookup : environment.lookup? (String.ofList (number.text Double.literalSpelling)) =
      environment.lookup? number.literalText := rfl
  simp only [terminal?, Literal.boolean?_text, lookup, Symbol.reread, Literal.double?_text]
  cases environment.lookup? number.literalText with
  | none => rfl
  | some place => rfl

/-- The name of a terminal that was read can stand in the place of its text, and is read as the
symbol once more. -/
theorem terminal?_identifier {environment : Environment} {text : List Char} {symbol : Symbol}
    (bare : '(' ∉ text) (found : terminal? environment text = some symbol) :
    symbol.isTerminal = true ∧ '(' ∉ symbol.identifier.toList ∧
      Replaces symbol.identifier.toList text ∧
      terminal? environment symbol.identifier.toList = some (symbol.reread environment) := by
  rcases terminal?_cases found with ⟨truth, rfl⟩ | ⟨place, rfl, rfl⟩ | ⟨number, rfl⟩
  · cases truth with
    | false =>
        refine ⟨rfl, by decide, replaces_of_inert (by decide) ?_ text, rfl⟩
        exact Text.forall_mem_of_all (by decide)
    | true =>
        refine ⟨rfl, by decide, replaces_of_inert (by decide) ?_ text, rfl⟩
        exact Text.forall_mem_of_all (by decide)
  · exact ⟨rfl, bare, ⟨id, id, id⟩, found⟩
  · have written : (Symbol.double number).identifier.toList =
        number.text Double.literalSpelling := String.toList_ofList
    have inert : ∀ character ∈ number.text Double.literalSpelling,
        isPlain character = true ∧ isSeparating character = false ∧
          Text.isBlank character = false := by
      intro character member
      obtain ⟨plain, free, visible, -⟩ :=
        Double.alphabet_inert character (Double.mem_alphabet_of_mem_text character member)
      exact ⟨plain, free, visible⟩
    rw [written]
    refine ⟨rfl, fun opened => ?_, replaces_of_inert number.text_ne_nil inert text,
      terminal?_text environment number⟩
    exact absurd (inert _ opened).1 (by decide)

/-- Arguments with a comma and a space between any two neighbours are separated. -/
theorem separated_intercalate {arguments : List (List Char)} (nonempty : arguments ≠ [])
    (whole : ∀ argument ∈ arguments, IsArgument argument) :
    Separated ([',', ' '].intercalate arguments) arguments := by
  induction arguments with
  | nil => exact absurd rfl nonempty
  | cons argument rest induction =>
      obtain ⟨whole_first, whole_rest⟩ := List.forall_mem_cons.mp whole
      cases rest with
      | nil =>
          rw [List.intercalate_singleton]
          exact .last whole_first
      | cons next rest =>
          rw [List.intercalate_cons_cons]
          exact .cons whole_first (.comma 0 1) (induction (List.cons_ne_nil next rest) whole_rest)

/-- The written text of several arguments separates them again. -/
theorem separated_argumentText {trees : List Tree} (nonempty : trees ≠ [])
    (whole : ∀ tree ∈ trees, IsArgument tree.text) :
    Separated (Tree.argumentText trees) (trees.map Tree.text) := by
  rw [Tree.argumentText_eq_intercalate]
  exact separated_intercalate (by simpa using nonempty) (List.forall_mem_map.mpr whole)

/-- Texts that take the places of separated arguments have no white space at the ends of their list
either. -/
theorem Separated.trimmed {text other : List Char} {arguments written : List (List Char)}
    (separated : Separated text arguments) (separated_again : Separated other written)
    (replaces : List.Forall₂ Replaces written arguments)
    (trimmed : Text.Trimmed Text.isBlank text) : Text.Trimmed Text.isBlank other where
  first := by
    cases replaces with
    | nil => exact absurd rfl separated.ne_nil
    | cons head _ =>
        rw [separated_again.head?_eq]
        exact head.first (separated.head?_eq ▸ trimmed.first)
  last := by
    obtain ⟨front, argument, rfl⟩ :=
      (List.eq_nil_or_concat' arguments).resolve_left separated.ne_nil
    obtain ⟨rest, final, rfl⟩ :=
      (List.eq_nil_or_concat' written).resolve_left separated_again.ne_nil
    have reversed := List.rel_reverse replaces
    rw [List.reverse_concat, List.reverse_concat] at reversed
    rw [separated_again.getLast?_eq List.getLast?_concat]
    refine (List.forall₂_cons.mp reversed).1.last ?_
    exact separated.getLast?_eq List.getLast?_concat ▸ trimmed.last

/-- The written text of the arguments of a call is split into their texts. -/
theorem splitArguments_argumentText {inner : List Char} {arguments : List (List Char)}
    {children : List Tree} (splitting : splitArguments inner = .ok arguments)
    (replaces : List.Forall₂ (fun argument child => Replaces child.text argument)
      arguments children) :
    splitArguments (Tree.argumentText children) = .ok (children.map Tree.text) := by
  have list := splitArguments_eq_ok_iff.mp splitting
  refine splitArguments_eq_ok_iff.mpr ?_
  rcases list with ⟨-, rfl⟩ | separated
  · cases replaces
    exact .inl ⟨rfl, rfl⟩
  · have whole : ∀ tree ∈ children, IsArgument tree.text := by
      intro tree member
      obtain ⟨argument, listed, kept⟩ := Outcome.exists_of_forall₂ replaces member
      exact kept.isArgument (separated.isArgument argument listed)
    have nonempty : children ≠ [] := by
      rintro rfl
      exact separated.ne_nil (List.forall₂_nil_right_iff.mp replaces)
    have again := separated_argumentText nonempty whole
    have texts : List.Forall₂ Replaces (children.map Tree.text) arguments :=
      List.forall₂_map_left_iff.mpr replaces.flip
    have trimmed := separated.trimmed again texts (Text.trimmed_trimWhere Text.isBlank inner)
    rw [Text.trim, Text.trimWhere_eq_self trimmed]
    exact .inr again

/-- A call written without anything behind it can take the place of the call. -/
theorem replaces_call {name after inner : List Char} (unopened : '(' ∉ name)
    (balanced : Balanced inner) :
    Replaces (name ++ '(' :: (inner ++ [')'])) (name ++ '(' :: after) where
  isArgument whole := isArgument_call (whole.name unopened).1 (whole.name unopened).2 balanced
  first visible := by
    have same : (name ++ '(' :: (inner ++ [')'])).head? = (name ++ '(' :: after).head? := by
      rw [List.head?_append, List.head?_append]
      rfl
    rw [same]
    exact visible
  last _ := by
    intro character member
    obtain rfl : ')' = character := by
      rw [← List.cons_append, ← List.append_assoc, List.getLast?_concat] at member
      exact Option.some.inj member
    decide

end Source

namespace Entry

/-- The symbols that an entry makes have its name, and none of them is a terminal. -/
def NamesSymbol (entry : Entry) : Prop :=
  ∀ context symbol, entry.create context = .ok symbol →
    symbol.identifier = entry.name ∧ symbol.isTerminal = false

theorem namesSymbol_ofSymbol {symbol : Symbol} (called : symbol.isTerminal = false) :
    (ofSymbol symbol).NamesSymbol := by
  intro context made equal
  obtain rfl := Except.ok.inj equal
  exact ⟨rfl, called⟩

theorem namesSymbol_ofAntSymbol {make : Nat → Symbol}
    (named : ∀ ant, (make ant).identifier = (make 0).identifier)
    (called : ∀ ant, (make ant).isTerminal = false) : (ofAntSymbol make).NamesSymbol := by
  intro context made equal
  cases context with
  | none => cases equal
  | some given =>
      obtain rfl := Except.ok.inj equal
      exact ⟨named given.ant, called given.ant⟩

end Entry

namespace Registry

/-- The registry calls every function by the name of its symbol, and no symbol that it makes is a
terminal. -/
def NamesSymbols (registry : Registry) : Prop := ∀ entry ∈ registry.entries, entry.NamesSymbol

theorem namesSymbols_builtin : builtin.NamesSymbols := by
  intro entry member
  simp only [builtin, List.mem_append, List.mem_map, List.mem_cons, List.not_mem_nil,
    or_false] at member
  rcases member with (⟨kind, -, rfl⟩ | rfl | rfl | rfl | rfl | rfl) | ⟨kind, -, rfl⟩
  all_goals first
    | exact Entry.namesSymbol_ofSymbol rfl
    | exact Entry.namesSymbol_ofAntSymbol (fun ant => rfl) (fun ant => rfl)

theorem NamesSymbols.resolve {registry : Registry} (names : registry.NamesSymbols)
    {context : Option Context} {name : String} {symbol : Symbol}
    (resolved : registry.resolve context name = .ok (some symbol)) :
    symbol.identifier = name ∧ symbol.isTerminal = false := by
  obtain ⟨entry, found, made⟩ := resolve_eq_some_iff.mp resolved
  have name_eq : entry.name = name := by simpa using List.find?_some found
  have written := names entry (List.mem_of_find?_eq_some found) context symbol made
  exact ⟨written.1.trans name_eq, written.2⟩

end Registry

namespace Language

open Source

variable {language : Language} {context : Option Context}

/-- A balanced argument list is found between its parentheses in both modes. -/
theorem body_of_balanced {inner : List Char} (balanced : Balanced inner) (text : List Char) :
    language.body text (inner ++ [')']) = .ok inner := by
  cases strict : language.settings.strict with
  | true => exact (body_strict_iff strict).mpr ⟨[], rfl, balanced, rfl⟩
  | false => exact (body_lenient_iff strict).mpr ⟨[], rfl, by simp⟩

/-- The text of a tree that was read can stand in the place of what was read, and is read as the
same tree up to hidden numbers. -/
theorem parseAt_text (names : language.registry.NamesSymbols) {depth : Nat} {text : List Char}
    {tree : Tree} (read : language.parseAt context depth text = .ok tree) :
    Replaces tree.text text ∧
      language.parseAt context depth tree.text = .ok (tree.reread language.environment) := by
  refine parseAt_induction (motive := fun depth text tree => Replaces tree.text text ∧
    language.parseAt context depth tree.text = .ok (tree.reread language.environment)) ?_ ?_ read
  · intro depth text symbol permitted bare found
    obtain ⟨terminal, bare_name, replaces, found_again⟩ := terminal?_identifier bare found
    have written : (Tree.leaf symbol).text = symbol.identifier.toList := by
      rw [Tree.leaf, Tree.text, if_pos terminal]
    rw [written]
    exact ⟨replaces, parseAt_eq_ok_iff.mpr ⟨permitted, .terminal bare_name found_again⟩⟩
  · intro depth name after inner arguments symbol children permitted plain closed splitting resolved
      counted below
    obtain ⟨identifier, not_terminal⟩ := names.resolve resolved
    have written : (Tree.node symbol children).text =
        name ++ '(' :: (Tree.argumentText children ++ [')']) := by
      rw [Tree.text, not_terminal, identifier, String.toList_ofList]
      simp
    have same_symbol : symbol.reread language.environment = symbol := by
      cases symbol <;> first | rfl | cases not_terminal
    have split_again := splitArguments_argumentText splitting (below.imp fun _ _ both => both.2.1)
    have balanced := balanced_of_splitArguments split_again
    rw [written]
    refine ⟨replaces_call plain balanced, parseAt_eq_ok_iff.mpr ⟨permitted, ?_⟩⟩
    have children_eq : (Tree.node symbol children).reread language.environment =
        .node symbol (children.map (Tree.reread language.environment)) := by
      rw [Tree.reread, Tree.relabel, same_symbol, Tree.relabelAll_eq_map]
      rfl
    rw [children_eq]
    refine .call plain (body_of_balanced balanced _) split_again resolved ?_ ?_
    · rw [counted, List.length_map, below.length_eq]
    · rw [List.forall₂_map_left_iff, List.forall₂_map_right_iff, List.forall₂_same]
      intro child member
      obtain ⟨argument, -, both⟩ := Outcome.exists_of_forall₂ below member
      exact both.2.2

/-- The source of a program that was read is read again as the same tree, except that a number of
the name of a variable is read as that variable, and the tree has the same source again. -/
theorem parse_source_of_parse (language : Language) (names : language.registry.NamesSymbols)
    (context : Option Context) {source : String} {tree : Tree}
    (read : language.parse context source = .ok tree) :
    language.parse context tree.source = .ok (tree.reread language.environment) ∧
      (tree.reread language.environment).source = tree.source := by
  obtain ⟨replaces, read_again⟩ := parseAt_text names read
  have trimmed : Text.trim tree.source.toList = tree.text := by
    rw [Tree.source, String.toList_ofList]
    exact Text.trimWhere_eq_self
      (replaces.trimmed (Text.trimmed_trimWhere Text.isBlank source.toList))
  constructor
  · rw [parse, trimmed]
    exact read_again
  · rw [Tree.source, Tree.reread, Tree.text_relabel (Symbol.keepsNames_reread _)]
    rfl

/-- The hexadecimal zero is written as `-0.0`, which the first variable of that name hides; the tab
in front of the other variable is part of its name, and what follows the call is ignored. -/
theorem parse_source_of_parse_or :
    Registry.builtin.NamesSymbols ∧
      (builtin [⟨4, "-0.0"⟩, ⟨5, "-0.0"⟩, ⟨6, "\ty"⟩] {}).parse none "OR(-0x0p3,\ty)z" =
        .ok (.node (.operator (.connective .or))
          [.leaf (.double (.signed true .zero)), .leaf (.variable ⟨6, "\ty"⟩)]) ∧
      (builtin [⟨4, "-0.0"⟩, ⟨5, "-0.0"⟩, ⟨6, "\ty"⟩] {}).parse none "OR(-0.0, \ty)" =
        .ok (.node (.operator (.connective .or))
          [.leaf (.variable ⟨4, "-0.0"⟩), .leaf (.variable ⟨6, "\ty"⟩)]) := by
  let language := builtin [⟨4, "-0.0"⟩, ⟨5, "-0.0"⟩, ⟨6, "\ty"⟩] {}
  have permitted : ∀ depth, language.Permits depth := permits_of_unlimited rfl
  have read : language.parse none "OR(-0x0p3,\ty)z" =
      .ok (.node (.operator (.connective .or))
        [.leaf (.double (.signed true .zero)), .leaf (.variable ⟨6, "\ty"⟩)]) := by
    refine parseAt_eq_ok_iff.mpr ⟨permitted 1, ?_⟩
    refine @Reading.call _ _ _ "OR".toList "-0x0p3,\ty)z".toList "-0x0p3,\ty".toList
      ["-0x0p3".toList, "\ty".toList] _ _ (by decide) rfl rfl rfl rfl (.cons ?_ (.cons ?_ .nil))
    · exact parseAt_eq_ok_iff.mpr ⟨permitted 2, .terminal (by decide) (by decide)⟩
    · exact parseAt_eq_ok_iff.mpr ⟨permitted 2, .terminal (by decide) (by decide)⟩
  exact ⟨Registry.namesSymbols_builtin, read,
    (parse_source_of_parse language Registry.namesSymbols_builtin none read).1⟩

end Language

end GeneticProgram
