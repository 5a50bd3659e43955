import GeneticProgram.Proofs.CompleteTree
import GeneticProgram.Proofs.DepthLimit
import GeneticProgram.Proofs.Rereading

/-!
# Reading the source of an assembled tree

A tree need not come from a reading to have a source that can be read: it may be assembled by hand.
If it is complete, made of built-in functions bound to the ant of the program, of literals and of
variables that programs can name, then its source is read as the tree itself.

Every text of such a tree is one argument without white space at its ends, so that the argument list
of a call is split into the texts of its children, and the name in front of it finds the function
again, because no two built-in functions share a name.
-/

namespace GeneticProgram

open Source

namespace Registry

/-- Where no two functions share a name, an entry is found under its own. -/
theorem entry?_name {registry : Registry} (distinct : (registry.entries.map Entry.name).Nodup)
    {entry : Entry} (listed : entry ∈ registry.entries) :
    registry.entry? entry.name = some entry := by
  obtain ⟨front, back, entries_eq⟩ := List.append_of_mem listed
  rw [entries_eq, List.map_append, List.map_cons, List.nodup_middle, List.nodup_cons] at distinct
  have earlier : ∀ other ∈ front, (other.name == entry.name) = false := by
    intro other member
    have different : other.name ≠ entry.name := by
      intro same
      exact distinct.1 (List.mem_append_left _ (List.mem_map.mpr ⟨other, member, same⟩))
    simpa using different
  rw [ entry?, entries_eq, List.find?_append, List.find?_eq_none.mpr (by simpa using earlier)]
  simp

theorem nodup_names_builtin : (builtin.entries.map Entry.name).Nodup := by
  decide +kernel

end Registry

namespace Operator

theorem mem_all (kind : Operator) : kind ∈ all := by
  cases kind with
  | negation => decide
  | connective kind => cases kind <;> decide
  | unary kind => cases kind <;> decide
  | binary kind => cases kind <;> decide
  | comparison kind => cases kind <;> decide
  | factorial => decide
  | scaledPower => decide

end Operator

namespace Symbol

/-- The symbol of a built-in function; one that acts on an ant is bound to that of the context. -/
def IsBuiltin (context : Option Context) : Symbol → Prop
  | .operator _ | .conditional => True
  | .sequence arity => arity = 2 ∨ arity = 3 ∨ arity = 4
  | .foodAhead ant | .action _ ant => context.map Context.ant = some ant
  | _ => False

variable {context : Option Context} {symbol : Symbol}

/-- The symbol of a built-in function is made by a built-in entry. -/
theorem IsBuiltin.exists_entry (builtin : symbol.IsBuiltin context) :
    ∃ entry ∈ Registry.builtin.entries, entry.create context = .ok symbol := by
  have bound : ∀ {make : Nat → Symbol} {ant : Nat}, context.map Context.ant = some ant →
      (Entry.ofAntSymbol make).create context = .ok (make ant) := by
    intro make ant found
    obtain ⟨given, rfl, rfl⟩ := Option.map_eq_some_iff.mp found
    rfl
  cases symbol with
  | operator kind =>
      refine ⟨.ofSymbol (.operator kind), ?_, rfl⟩
      simp [Registry.builtin, Operator.mem_all]
  | conditional => exact ⟨.ofSymbol .conditional, by simp [Registry.builtin], rfl⟩
  | sequence arity =>
      rcases builtin with rfl | rfl | rfl
      · exact ⟨.ofSymbol (.sequence 2), by simp [Registry.builtin], rfl⟩
      · exact ⟨.ofSymbol (.sequence 3), by simp [Registry.builtin], rfl⟩
      · exact ⟨.ofSymbol (.sequence 4), by simp [Registry.builtin], rfl⟩
  | foodAhead ant => exact ⟨.ofAntSymbol .foodAhead, by simp [Registry.builtin], bound builtin⟩
  | action kind ant =>
      refine ⟨.ofAntSymbol (.action kind), ?_, bound builtin⟩
      cases kind <;> simp [Registry.builtin, Action.all]
  | _ => cases builtin

/-- A built-in function is found under the name of its symbol. -/
theorem IsBuiltin.resolve (builtin : symbol.IsBuiltin context) :
    Registry.builtin.resolve context symbol.identifier = .ok (some symbol) := by
  obtain ⟨entry, listed, made⟩ := builtin.exists_entry
  have named := (Registry.namesSymbols_builtin entry listed context symbol made).1
  refine Registry.resolve_eq_some_iff.mpr ⟨entry, ?_, made⟩
  rw [named]
  exact Registry.entry?_name Registry.nodup_names_builtin listed

/-- What is found under a name is the symbol of a built-in function. -/
theorem isBuiltin_of_resolve {name : String}
    (resolved : Registry.builtin.resolve context name = .ok (some symbol)) :
    symbol.IsBuiltin context := by
  obtain ⟨entry, found, created⟩ := Registry.resolve_eq_some_iff.mp resolved
  have constant : ∀ made : Symbol, made.IsBuiltin context → entry = .ofSymbol made →
      symbol.IsBuiltin context := by
    rintro made known rfl
    obtain rfl := Except.ok.inj created
    exact known
  have bound : ∀ make : Nat → Symbol,
      (∀ ant, context.map Context.ant = some ant → (make ant).IsBuiltin context) →
      entry = .ofAntSymbol make → symbol.IsBuiltin context := by
    rintro make acting rfl
    cases context with
    | none => cases created
    | some given =>
        obtain rfl := Except.ok.inj created
        exact acting given.ant rfl
  have member := List.mem_of_find?_eq_some found
  simp only [Registry.builtin, List.mem_append, List.mem_map, List.mem_cons, List.not_mem_nil,
    or_false] at member
  rcases member with (⟨kind, -, made⟩ | rfl | rfl | rfl | rfl | rfl) | ⟨kind, -, made⟩
  · exact constant (.operator kind) trivial made.symm
  · exact constant .conditional trivial rfl
  · exact constant (.sequence 2) (.inl rfl) rfl
  · exact constant (.sequence 3) (.inr (.inl rfl)) rfl
  · exact constant (.sequence 4) (.inr (.inr rfl)) rfl
  · exact bound .foodAhead (fun _ given => given) rfl
  · exact bound (.action kind) (fun _ given => given) made.symm

/-- The symbol of a built-in function is written as a call. -/
theorem IsBuiltin.isTerminal (builtin : symbol.IsBuiltin context) : symbol.isTerminal = false := by
  obtain ⟨entry, listed, made⟩ := builtin.exists_entry
  exact (Registry.namesSymbols_builtin entry listed context symbol made).2

/-- The name of a built-in function takes no part in the structure of a program. -/
theorem IsBuiltin.inert (builtin : symbol.IsBuiltin context) :
    ∀ character ∈ symbol.identifier.toList, isPlain character = true ∧
      isSeparating character = false ∧ Text.isBlank character = false := by
  obtain ⟨entry, listed, made⟩ := builtin.exists_entry
  have names : ∀ entry ∈ Registry.builtin.entries, (entry.name.toList.all fun character =>
      decide (isPlain character = true ∧ isSeparating character = false ∧
        Text.isBlank character = false)) = true := by
    decide +kernel
  rw [(Registry.namesSymbols_builtin entry listed context symbol made).1]
  exact Text.forall_mem_of_all (names entry listed)

end Symbol

/-- A variable that programs can name: its name is not empty, is not a boolean literal in any case,
has no parenthesis, space or comma and no white space at its ends, and leads to the variable. -/
structure Variable.Nameable (environment : Environment) (place : Variable) : Prop where
  /-- The name has a character. -/
  nonempty : place.name ≠ ""
  /-- No character of the name takes part in the structure of a program. -/
  free : ∀ character ∈ place.name.toList, character ∉ ['(', ')', ' ', ',']
  /-- The name has no white space at its ends. -/
  trimmed : Text.Trimmed Text.isBlank place.name.toList
  /-- The name is not a boolean literal. -/
  not_boolean : place.name.toList.map Char.toLower ∉ ["true".toList, "false".toList]
  /-- The name leads to the variable. -/
  found : environment.lookup? place.name = some place

/-- A symbol that can be written in a program: a boolean literal, a numeric literal that no variable
hides, a variable that programs can name, or a built-in function. -/
def Symbol.Writable (environment : Environment) (context : Option Context) : Symbol → Prop
  | .boolean _ => True
  | .double number => ∀ place ∈ environment, place.name ≠ number.literalText
  | .variable place => place.Nameable environment
  | symbol => symbol.IsBuiltin context

namespace Source

/-- A text without parentheses and separators is one argument. -/
theorem isArgument_of_free {text : List Char} (nonempty : text ≠ [])
    (free : ∀ character ∈ text, isPlain character = true ∧ isSeparating character = false) :
    IsArgument text where
  nonempty := nonempty
  balanced := balanced_plain fun character member => (free character member).1
  solid := solid_of_forall (fun character member => (free character member).2) 0

/-- A text whose characters are all written out has no white space at its ends. -/
theorem trimmed_of_visible {text : List Char}
    (visible : ∀ character ∈ text, Text.isBlank character = false) :
    Text.Trimmed Text.isBlank text where
  first character member := visible character (List.mem_of_head? member)
  last character member := visible character (List.mem_of_getLast? member)

/-- Separated arguments without white space at their ends have none at the ends of their list. -/
theorem Separated.trimmed_of_forall {text : List Char} {arguments : List (List Char)}
    (separated : Separated text arguments)
    (each : ∀ argument ∈ arguments, Text.Trimmed Text.isBlank argument) :
    Text.Trimmed Text.isBlank text where
  first := by
    obtain ⟨first, rest, rfl⟩ := List.exists_cons_of_ne_nil separated.ne_nil
    rw [separated.head?_eq]
    exact (each first List.mem_cons_self).first
  last := by
    have final := List.getLast?_eq_some_getLast separated.ne_nil
    rw [separated.getLast?_eq final]
    exact (each _ (List.mem_of_getLast? final)).last

/-- Arguments without white space at their ends are what splitting their list gives. -/
theorem splitArguments_intercalate {arguments : List (List Char)}
    (whole : ∀ argument ∈ arguments, IsArgument argument)
    (trimmed : ∀ argument ∈ arguments, Text.Trimmed Text.isBlank argument) :
    splitArguments ([',', ' '].intercalate arguments) = .ok arguments := by
  refine splitArguments_eq_ok_iff.mpr ?_
  by_cases nonempty : arguments = []
  · subst nonempty
    exact .inl ⟨rfl, rfl⟩
  · have separated := separated_intercalate nonempty whole
    rw [Text.trim, Text.trimWhere_eq_self (separated.trimmed_of_forall trimmed)]
    exact .inr separated

/-- A call has no white space at its ends if there is none in front of its name. -/
theorem trimmed_call {name : List Char}
    (leads : ∀ character ∈ name.head?, Text.isBlank character = false) (inner : List Char) :
    Text.Trimmed Text.isBlank (name ++ '(' :: (inner ++ [')'])) where
  first := by
    cases name with
    | nil =>
        intro character member
        obtain rfl := Option.some.inj member
        decide
    | cons first rest => exact leads
  last := by
    intro character member
    rw [← List.cons_append, ← List.append_assoc, List.getLast?_concat] at member
    obtain rfl := Option.some.inj member
    decide

end Source

namespace Symbol

variable {environment : Environment} {context : Option Context}

/-- The name of a terminal that can be written is one argument and is read as the terminal. -/
structure ReadAsTerminal (environment : Environment) (symbol : Symbol) : Prop where
  /-- The name has a character. -/
  nonempty : symbol.identifier.toList ≠ []
  /-- The name has no parentheses and separators. -/
  free : ∀ character ∈ symbol.identifier.toList,
    isPlain character = true ∧ isSeparating character = false
  /-- The name has no white space at its ends. -/
  trimmed : Text.Trimmed Text.isBlank symbol.identifier.toList
  /-- The name stands for the symbol. -/
  found : terminal? environment symbol.identifier.toList = some symbol

theorem readAsTerminal_boolean (truth : Bool) :
    ReadAsTerminal environment (.boolean truth) := by
  have inert : ∀ character ∈ (Symbol.boolean truth).identifier.toList,
      isPlain character = true ∧ isSeparating character = false ∧
        Text.isBlank character = false := by
    cases truth <;> exact Text.forall_mem_of_all (by decide)
  refine ⟨by cases truth <;> decide, fun character member => ?_, trimmed_of_visible ?_, ?_⟩
  · exact ⟨(inert character member).1, (inert character member).2.1⟩
  · exact fun character member => (inert character member).2.2
  · cases truth <;> rfl

theorem readAsTerminal_double {number : Double}
    (hidden_by_none : ∀ place ∈ environment, place.name ≠ number.literalText) :
    ReadAsTerminal environment (.double number) := by
  have written : (Symbol.double number).identifier.toList =
      number.text Double.literalSpelling := String.toList_ofList
  have inert := fun character (member : character ∈ number.text Double.literalSpelling) =>
    Double.alphabet_inert character (Double.mem_alphabet_of_mem_text character member)
  have unbound : environment.lookup? number.literalText = none := by
    refine List.find?_eq_none.mpr fun place listed => ?_
    simpa using hidden_by_none place listed
  refine ⟨?_, ?_, ?_, ?_⟩
  · rw [written]
    exact number.text_ne_nil
  · rw [written]
    exact fun character member => ⟨(inert character member).1, (inert character member).2.1⟩
  · rw [written]
    exact trimmed_of_visible fun character member => (inert character member).2.2.1
  · rw [written, terminal?_text, Symbol.reread, unbound]

theorem readAsTerminal_variable {place : Variable} (nameable : place.Nameable environment) :
    ReadAsTerminal environment (.variable place) := by
  refine ⟨?_, fun character member => ?_, nameable.trimmed, ?_⟩
  · simpa [identifier] using nameable.nonempty
  · have free := nameable.free character member
    simp only [List.mem_cons, List.not_mem_nil, or_false, not_or] at free
    obtain ⟨not_opening, not_closing, not_space, not_comma⟩ := free
    simp [isPlain, isSeparating, not_opening, not_closing, not_space, not_comma]
  · have named : Literal.boolean? place.name.toList = none := by
      obtain ⟨not_true, not_false⟩ :
          place.name.toList.map Char.toLower ≠ ['t', 'r', 'u', 'e'] ∧
            place.name.toList.map Char.toLower ≠ ['f', 'a', 'l', 's', 'e'] := by
        simpa using nameable.not_boolean
      rw [Literal.boolean?]
      rw [if_neg not_true, if_neg not_false]
    simp only [terminal?, identifier, named, String.ofList_toList, nameable.found]

/-- A symbol that can be written is a terminal that is read as itself, or a built-in function. -/
theorem Writable.cases {symbol : Symbol} (writable : symbol.Writable environment context) :
    (symbol.isTerminal = true ∧ symbol.arity = 0 ∧ symbol.ReadAsTerminal environment) ∨
      symbol.IsBuiltin context := by
  cases symbol with
  | boolean truth => exact .inl ⟨rfl, rfl, readAsTerminal_boolean truth⟩
  | double number => exact .inl ⟨rfl, rfl, readAsTerminal_double writable⟩
  | «variable» place => exact .inl ⟨rfl, rfl, readAsTerminal_variable writable⟩
  | _ => exact .inr writable

end Symbol

namespace Language

variable {language : Language} {context : Option Context}

/-- The text of a tree stands as one argument, and at every depth it is read as the tree. -/
structure ReadsBack (language : Language) (context : Option Context) (tree : Tree) : Prop where
  /-- The text is one argument. -/
  isArgument : IsArgument tree.text
  /-- The text has no white space at its ends. -/
  trimmed : Text.Trimmed Text.isBlank tree.text
  /-- The text is read as the tree. -/
  read : ∀ depth, language.parseAt context depth tree.text = .ok tree

theorem readsBack_leaf (permitted : ∀ depth, language.Permits depth) {symbol : Symbol}
    (terminal : symbol.isTerminal = true)
    (reads : symbol.ReadAsTerminal language.environment) :
    language.ReadsBack context (.leaf symbol) := by
  have written : (Tree.leaf symbol).text = symbol.identifier.toList := by
    rw [Tree.leaf, Tree.text, if_pos terminal]
  have bare : '(' ∉ symbol.identifier.toList := fun opened =>
    absurd (reads.free _ opened).1 (by decide)
  refine ⟨?_, ?_, fun depth => ?_⟩
  · rw [written]
    exact isArgument_of_free reads.nonempty reads.free
  · rw [written]
    exact reads.trimmed
  · rw [written]
    exact parseAt_eq_ok_iff.mpr ⟨permitted depth, .terminal bare reads.found⟩

/-- A call of a built-in function is read back if its arguments are. -/
theorem readsBack_call (permitted : ∀ depth, language.Permits depth)
    (registered : language.registry = .builtin) {symbol : Symbol} {children : List Tree}
    (builtin : symbol.IsBuiltin context) (filled : children.length = symbol.arity)
    (below : ∀ child ∈ children, language.ReadsBack context child) :
    language.ReadsBack context (.node symbol children) := by
  have splitting :
      splitArguments (Tree.argumentText children) = .ok (children.map Tree.text) := by
    rw [Tree.argumentText_eq_intercalate]
    exact splitArguments_intercalate
      (List.forall_mem_map.mpr fun child member => (below child member).isArgument)
      (List.forall_mem_map.mpr fun child member => (below child member).trimmed)
  have balanced := balanced_of_splitArguments splitting
  have inert := builtin.inert
  have written : (Tree.node symbol children).text =
      symbol.identifier.toList ++ '(' :: (Tree.argumentText children ++ [')']) := by
    rw [Tree.text, builtin.isTerminal]
    simp
  have bare : '(' ∉ symbol.identifier.toList := fun opened =>
    absurd (inert _ opened).1 (by decide)
  refine ⟨?_, ?_, fun depth => ?_⟩
  · rw [written]
    exact isArgument_call (fun character member => (inert character member).1)
      (fun character member => (inert character member).2.1) balanced
  · rw [written]
    exact trimmed_call
      (fun character member => (inert character (List.mem_of_head? member)).2.2) _
  · rw [written]
    refine parseAt_eq_ok_iff.mpr ⟨permitted depth, ?_⟩
    refine .call bare (body_of_balanced balanced _) splitting ?_ ?_ ?_
    · rw [String.ofList_toList, registered]
      exact builtin.resolve
    · rw [List.length_map, filled]
    · rw [List.forall₂_map_left_iff, List.forall₂_same]
      exact fun child member => (below child member).read (depth + 1)

/-- A complete tree of symbols that can be written is read back. -/
theorem readsBack_of_complete (permitted : ∀ depth, language.Permits depth)
    (registered : language.registry = .builtin) {tree : Tree} (complete : tree.Complete)
    (writable : ∀ symbol ∈ tree.symbols, symbol.Writable language.environment context) :
    language.ReadsBack context tree := by
  induction complete with
  | @node symbol children filled _ induction =>
      obtain ⟨own, others⟩ := Tree.forall_symbols_node_iff.mp writable
      rcases own.cases with ⟨terminal, nullary, reads⟩ | builtin
      · obtain rfl := List.length_eq_zero_iff.mp (filled.trans nullary)
        exact readsBack_leaf permitted terminal reads
      · exact readsBack_call permitted registered builtin filled fun child member =>
          induction child member (others child member)

/-- Reading undoes writing: the source of a complete tree of literals, variables that programs can
name and built-in functions bound to the ant of the program is read, strictly or leniently, as the
tree itself, unless the tree is deeper than the limit. -/
theorem parse_source_of_assembled (environment : Environment) (settings : ParserSettings)
    (context : Option Context) {tree : Tree} (complete : tree.Complete)
    (writable : ∀ symbol ∈ tree.symbols, symbol.Writable environment context)
    (within : ∀ limit ∈ settings.maxDepth, (tree.depth : Int) ≤ limit) :
    (builtin environment settings).parse context tree.source = .ok tree := by
  let language := builtin environment settings
  have reads : language.unlimited.ReadsBack context tree :=
    readsBack_of_complete (permits_of_unlimited rfl) rfl complete writable
  have trimmed : Text.trim tree.source.toList = tree.text := by
    rw [Tree.source, String.toList_ofList]
    exact Text.trimWhere_eq_self reads.trimmed
  have unlimited_read := reads.read 1
  rw [parse, trimmed]
  obtain ⟨strict, maxDepth⟩ := settings
  cases maxDepth with
  | none => exact unlimited_read
  | some limit =>
      have bounded := within limit rfl
      refine language.limitedTo_parseAt_of_fits unlimited_read ?_
      rw [Tree.Fits]
      omega

/-- Of two variables with the name of a numeral the first is found, the other number is not a
number, and the tree is as deep as the limit allows. -/
theorem parse_source_of_assembled_sequence :
    let tree : Tree := .node (.sequence 2)
      [.node (.foodAhead 3) [.node (.action .move 3) [], .leaf (.double .nan)],
        .leaf (.variable ⟨2, "7"⟩)]
    tree.Complete ∧
      (∀ symbol ∈ tree.symbols, symbol.Writable [⟨2, "7"⟩, ⟨5, "7"⟩] (some ⟨3, 600⟩)) ∧
      tree.depth = 3 ∧
      (builtin [⟨2, "7"⟩, ⟨5, "7"⟩] ⟨true, some 3⟩).parse (some ⟨3, 600⟩)
        "SEQ2(IF-FOOD-AHEAD(MOVE(), NaN), 7)" = .ok tree := by
  intro tree
  have complete : tree.Complete := by
    have single : ∀ {symbol : Symbol}, symbol.arity = 0 → (Tree.leaf symbol).Complete :=
      fun nullary => .node nullary.symm (by simp)
    have pair : ∀ {symbol : Symbol} {first second : Tree}, symbol.arity = 2 → first.Complete →
        second.Complete → (Tree.node symbol [first, second]).Complete :=
      fun binary first second => .node binary.symm (by simp [first, second])
    exact pair rfl (pair rfl (single rfl) (single rfl)) (single rfl)
  have nameable : (⟨2, "7"⟩ : Variable).Nameable [⟨2, "7"⟩, ⟨5, "7"⟩] :=
    { nonempty := by decide
      free := Text.forall_mem_of_all (by decide)
      trimmed := trimmed_of_visible (Text.forall_mem_of_all (by decide))
      not_boolean := by decide
      found := by decide }
  have hidden_by_none : ∀ place ∈ ([⟨2, "7"⟩, ⟨5, "7"⟩] : Environment),
      place.name ≠ Double.nan.literalText := by decide
  have writable : ∀ symbol ∈ tree.symbols,
      symbol.Writable [⟨2, "7"⟩, ⟨5, "7"⟩] (some ⟨3, 600⟩) := by
    have symbols_eq : tree.symbols = [.sequence 2, .foodAhead 3, .action .move 3, .double .nan,
        .variable ⟨2, "7"⟩] := rfl
    rw [symbols_eq]
    simp only [List.forall_mem_cons]
    exact ⟨.inl rfl, rfl, rfl, hidden_by_none, nameable, by simp⟩
  have source_eq : tree.source = "SEQ2(IF-FOOD-AHEAD(MOVE(), NaN), 7)" := rfl
  refine ⟨complete, writable, rfl, ?_⟩
  rw [← source_eq]
  exact parse_source_of_assembled _ _ _ complete writable (by decide)

end Language

end GeneticProgram
