import GeneticProgram.Proofs.ParserSteps
import Mathlib.Data.List.Induction

/-!
# Names and what is read

A reading asks for the meaning of pieces of its text only.  Two languages that are read in the same
way and give the same meaning to every piece of a text read it alike, whatever amendments have led
to them.  For a function the last amendment of its name counts, for a variable the first of its
name; a variable that no terminal can ask for changes nothing.
-/

namespace GeneticProgram

open Source

/-! ## Amendments -/

namespace Registry

theorem name_of_found {registry : Registry} {name : String} {entry : Entry}
    (found : registry.entry? name = some entry) : entry.name = name := by
  simpa using List.find?_some found

/-- A function that is registered takes the place of the entry of its name. -/
theorem entry?_register (registry : Registry) (name : String) (factory : Factory)
    (asked : String) :
    Registry.entry? (registry.register name factory) asked =
      if name = asked then some ⟨name, factory⟩ else registry.entry? asked := by
  rw [register]
  by_cases known : registry.contains name = true
  · rw [if_pos known]
    -- The names of the entries stay, so that the entry of a name stays in its place.
    let replace : Entry → Entry := fun entry =>
      if entry.name == name then ⟨name, factory⟩ else entry
    have replaced : Registry.entry? ⟨registry.entries.map replace⟩ asked =
        Option.map replace ( registry.entry? asked) := by
      rw [ entry?, entry?, List.find?_map]
      congr 2
      funext entry
      simp only [Function.comp, replace]
      split
      · rename_i same
        rw [beq_iff_eq] at same
        rw [same]
      · rfl
    refine replaced.trans ?_
    by_cases same : name = asked
    · subst same
      obtain ⟨entry, found⟩ := Option.isSome_iff_exists.mp known
      rw [if_pos rfl, found, Option.map_some]
      simp [replace, name_of_found found]
    · rw [if_neg same]
      cases found : registry.entry? asked with
      | none => rfl
      | some entry =>
          rw [Option.map_some]
          simp [replace, name_of_found found, Ne.symm same]
  · rw [if_neg known, entry?, List.find?_append]
    by_cases same : name = asked
    · subst same
      have missing : registry.entry? name = none := by simpa [contains] using known
      rw [ entry?] at missing
      simp [missing]
    · simp [same, entry?]

/-- A name that is unregistered has no entry. -/
theorem entry?_unregister (registry : Registry) (name asked : String) :
    Registry.entry? (registry.unregister name) asked =
      if name = asked then none else registry.entry? asked := by
  rw [unregister, entry?, List.find?_filter]
  by_cases same : name = asked
  · subst same
    simp
  · rw [if_neg same, entry?]
    congr 1
    funext entry
    by_cases named : entry.name = asked
    · simp [named, Ne.symm same]
    · simp [named]

end Registry

/-- A change of what the names in a program mean. -/
inductive Amendment
  | register (name : String) (factory : Factory)
  | unregister (name : String)
  | addVariable (place : Variable)
  | setVariables (environment : Environment)
  | clearVariables

namespace Amendment

/-- The amendment is one of the function of a name. -/
def names (asked : String) : Amendment → Bool
  | .register name _ => name == asked
  | .unregister name => name == asked
  | _ => false

/-- The entry that an amendment of a function leaves. -/
def written? : Amendment → Option Entry
  | .register name factory => some ⟨name, factory⟩
  | _ => none

end Amendment

namespace Language

/-- The language after an amendment. -/
def amend (language : Language) : Amendment → Language
  | .register name factory =>
    { language with registry := language.registry.register name factory }
  | .unregister name => { language with registry := language.registry.unregister name }
  | .addVariable place => { language with environment := language.environment ++ [place] }
  | .setVariables environment => { language with environment }
  | .clearVariables => { language with environment := [] }

/-- The language after a history of amendments. -/
def after (language : Language) (history : List Amendment) : Language :=
  history.foldl amend language

theorem entry?_amend (language : Language) (amendment : Amendment) (asked : String) :
    Registry.entry? (language.amend amendment).registry asked =
      if amendment.names asked then amendment.written? else language.registry.entry? asked := by
  cases amendment with
  | register name factory =>
      rw [amend, Registry.entry?_register]
      simp [Amendment.names, Amendment.written?]
  | unregister name =>
      rw [amend, Registry.entry?_unregister]
      simp [Amendment.names, Amendment.written?]
  | addVariable place => rfl
  | setVariables environment => rfl
  | clearVariables => rfl

/-- The entry of a name is that of the last amendment of its function. -/
theorem entry?_after (language : Language) (history : List Amendment) (asked : String) :
    Registry.entry? (language.after history).registry asked =
      match history.reverse.find? (Amendment.names asked) with
      | some last => last.written?
      | none => language.registry.entry? asked := by
  induction history using List.reverseRecOn with
  | nil => rfl
  | append_singleton earlier last induction =>
      rw [after, List.foldl_append, List.foldl_cons, List.foldl_nil, entry?_amend,
        List.reverse_append, List.reverse_singleton, List.singleton_append, List.find?_cons]
      split
      · rename_i named
        simp [named]
      · rename_i unnamed
        simp only [unnamed]
        exact induction

theorem settings_after (language : Language) (history : List Amendment) :
    (language.after history).settings = language.settings := by
  induction history generalizing language with
  | nil => rfl
  | cons first rest induction =>
      rw [after, List.foldl_cons]
      refine (induction (language.amend first)).trans ?_
      cases first <;> rfl

end Language

/-! ## Pieces of a text -/

theorem Text.trim_isInfix (text : List Char) : trim text <:+: text := by
  obtain ⟨front, back, pieces, -, -⟩ := eq_margins_trimWhere isBlank text
  exact ⟨front, back, pieces.symm⟩

theorem Source.Separated.isInfix {text : List Char} {arguments : List (List Char)}
    (separated : Separated text arguments) {argument : List Char} (listed : argument ∈ arguments) :
    argument <:+: text := by
  induction separated with
  | last whole =>
      obtain rfl := List.mem_singleton.mp listed
      exact List.infix_rfl
  | @cons first gap rest comma others whole between later induction =>
      rcases List.mem_cons.mp listed with rfl | member
      · rw [List.append_assoc]
        exact (List.prefix_append _ _).isInfix
      · exact (induction member).trans (List.suffix_append _ _).isInfix

/-- An argument is a piece of the list it stands in. -/
theorem Source.isInfix_of_splitArguments {text argument : List Char} {arguments : List (List Char)}
    (splitting : splitArguments text = .ok arguments) (listed : argument ∈ arguments) :
    argument <:+: text := by
  rcases splitArguments_eq_ok_iff.mp splitting with ⟨-, rfl⟩ | separated
  · cases listed
  · exact (separated.isInfix listed).trans (Text.trim_isInfix text)

namespace Language

variable {first second : Language} {context : Option Context}

/-- An argument list is a piece of the text that follows its opening parenthesis. -/
theorem isPrefix_of_body {text after inner : List Char}
    (closed : first.body text after = .ok inner) : inner <+: after := by
  cases mode : first.settings.strict with
  | true =>
      obtain ⟨tail, after_eq, -, -⟩ := (body_strict_iff mode).mp closed
      exact ⟨')' :: tail, after_eq.symm⟩
  | false =>
      obtain ⟨tail, after_eq, -⟩ := (body_lenient_iff mode).mp closed
      exact ⟨')' :: tail, after_eq.symm⟩

/-- An argument of a call is a piece of the call. -/
theorem isInfix_of_argument {name after inner argument : List Char} {arguments : List (List Char)}
    (closed : first.body (name ++ '(' :: after) after = .ok inner)
    (splitting : splitArguments inner = .ok arguments) (listed : argument ∈ arguments) :
    argument <:+: name ++ '(' :: after := by
  have behind : after <:+ name ++ '(' :: after := ⟨name ++ ['('], by simp⟩
  exact ((isInfix_of_splitArguments splitting listed).trans (isPrefix_of_body closed).isInfix).trans
    behind.isInfix

/-! ## Locality -/

/-- Two languages that are read in the same way give the same meaning to every piece of a text: to a
piece that is a name its function, and to one without an opening parenthesis its terminal. -/
structure AgreeOn (first second : Language) (text : List Char) : Prop where
  /-- They are read in the same way. -/
  settings : first.settings = second.settings
  /-- The functions are the same. -/
  functions : ∀ name, name <:+: text →
    first.registry.entry? (String.ofList name) = second.registry.entry? (String.ofList name)
  /-- The terminals are the same. -/
  terminals : ∀ token, token <:+: text → '(' ∉ token →
    terminal? first.environment token = terminal? second.environment token

theorem AgreeOn.piece {text part : List Char} (agree : AgreeOn first second text)
    (piece : part <:+: text) : AgreeOn first second part where
  settings := agree.settings
  functions name inside := agree.functions name (inside.trans piece)
  terminals token inside := agree.terminals token (inside.trans piece)

theorem permits_congr (settings : first.settings = second.settings) (depth : Nat) :
    first.Permits depth ↔ second.Permits depth := by
  rw [Permits, Permits, settings]

theorem body_congr (settings : first.settings = second.settings) (text after : List Char) :
    first.body text after = second.body text after := by
  rw [body, body, settings]

theorem callee_congr {name : String}
    (same : first.registry.entry? name = second.registry.entry? name) (given : Nat) :
    first.callee context name given = second.callee context name given := by
  rw [callee, callee, Registry.resolve, Registry.resolve, same]

/-- Languages that agree on a text read it alike. -/
theorem AgreeOn.parseAt_eq {text : List Char} (agree : AgreeOn first second text) (depth : Nat) :
    first.parseAt context depth text = second.parseAt context depth text := by
  -- The arguments of a call are shorter pieces of it.
  induction size : text.length using Nat.strong_induction_on generalizing depth text with
  | _ size induction =>
      by_cases permitted : first.Permits depth
      · have permitted_too := (permits_congr agree.settings depth).mp permitted
        by_cases opened : '(' ∈ text
        · obtain ⟨name, after, rfl, plain⟩ := eq_call_of_mem opened
          rw [parseAt_call permitted plain, parseAt_call permitted_too plain,
            body_congr agree.settings]
          cases closed : second.body (name ++ '(' :: after) after with
          | error error => rfl
          | ok inner =>
              rw [Outcome.ok_bind, Outcome.ok_bind]
              cases splitting : splitArguments inner with
              | error error => rfl
              | ok arguments =>
                  have same := agree.functions name (List.prefix_append _ _).isInfix
                  have below : arguments.mapM (first.parseAt context (depth + 1)) =
                      arguments.mapM (second.parseAt context (depth + 1)) := by
                    apply Outcome.mapM_congr
                    intro argument listed
                    have shorter := length_lt_of_argument closed splitting listed
                    have piece := isInfix_of_argument closed splitting listed
                    exact induction argument.length (size ▸ shorter) (agree.piece piece) _ rfl
                  simp only [Except.mapError, Outcome.ok_bind, callee_congr same, below]
        · rw [parseAt_terminal permitted opened, parseAt_terminal permitted_too opened,
            agree.terminals text List.infix_rfl opened]
      · have refused := mt (permits_congr agree.settings depth).mpr permitted
        obtain ⟨limit, limited, failed⟩ := parseAt_tooDeep context permitted text
        obtain ⟨other, limited_too, failed_too⟩ := parseAt_tooDeep context refused text
        rw [agree.settings, limited_too] at limited
        obtain rfl := Option.some.inj limited
        rw [failed, failed_too]

/-- Languages that agree on the source of a program read it alike. -/
theorem AgreeOn.parse_eq {source : String} (agree : AgreeOn first second source.toList) :
    first.parse context source = second.parse context source :=
  (agree.piece (Text.trim_isInfix source.toList)).parseAt_eq 1

end Language

/-- A variable of another name is not found. -/
theorem Environment.lookup?_append_of_ne (environment : Environment) {place : Variable}
    {name : String} (other : place.name ≠ name) :
    Environment.lookup? (environment ++ [place]) name = environment.lookup? name := by
  have unnamed : (place.name == name) = false := by simpa using other
  rw [lookup?, lookup?, List.find?_append, List.find?_singleton, unnamed]
  simp

namespace Source

theorem terminal?_congr {first second : Environment} {token : List Char}
    (same : first.lookup? (String.ofList token) = second.lookup? (String.ofList token)) :
    terminal? first token = terminal? second token := by
  rw [terminal?, terminal?, same]

/-- A variable that is named like one before it or like a truth value, or that has a parenthesis in
its name, is never found. -/
theorem terminal?_append {environment : Environment} {place : Variable} {token : List Char}
    (hidden : (environment.lookup? place.name).isSome ∨
      place.name.toList.map Char.toLower ∈ ["true".toList, "false".toList] ∨
      '(' ∈ place.name.toList)
    (bare : '(' ∉ token) :
    terminal? (environment ++ [place]) token = terminal? environment token := by
  by_cases named : place.name = String.ofList token
  · have name_eq : place.name.toList = token := by rw [named, String.toList_ofList]
    rcases hidden with bound | truth | opened
    · apply terminal?_congr
      obtain ⟨earlier, found⟩ := Option.isSome_iff_exists.mp bound
      rw [named, Environment.lookup?] at found
      rw [Environment.lookup?, Environment.lookup?, List.find?_append, found, Option.some_or]
    · have literal : (Literal.boolean? token).isSome := by
        rw [name_eq] at truth
        rw [Literal.boolean?]
        rcases List.mem_pair.mp truth with lowered | lowered
        · simp [lowered]
        · simp [lowered]
      obtain ⟨value, read⟩ := Option.isSome_iff_exists.mp literal
      rw [terminal?, terminal?, read]
    · exact absurd (name_eq ▸ opened) bare
  · apply terminal?_congr
    exact environment.lookup?_append_of_ne named

end Source

namespace Language

/-- The entry of a function is that of the last amendment of its name, or the one of the beginning.
Two languages that are read in the same way and have the same entry and the same first variable for
every piece of a source read it alike, with the same tree or the same error.  A variable that is
added behind one of its name, or named like a truth value, or with an opening parenthesis in its
name, changes no reading. -/
theorem parse_local_to_names (context : Option Context) :
    (∀ (seed : Language) (history : List Amendment) (name : String),
      Registry.entry? (seed.after history).registry name =
        match history.reverse.find? (Amendment.names name) with
        | some last => last.written?
        | none => seed.registry.entry? name) ∧
    (∀ (first second : Language) (history other : List Amendment) (source : String),
      first.settings = second.settings →
      (∀ name : String, name.toList <:+: source.toList →
        Registry.entry? (first.after history).registry name =
            Registry.entry? (second.after other).registry name ∧
          (first.after history).environment.lookup? name =
            (second.after other).environment.lookup? name) →
      (first.after history).parse context source = (second.after other).parse context source) ∧
    ∀ (language : Language) (place : Variable),
      (language.environment.lookup? place.name).isSome ∨
        place.name.toList.map Char.toLower ∈ ["true".toList, "false".toList] ∨
        '(' ∈ place.name.toList →
      ∀ source : String, (language.amend (.addVariable place)).parse context source =
        language.parse context source := by
  refine ⟨entry?_after, ?_, ?_⟩
  · intro first second history other source settings same
    apply AgreeOn.parse_eq
    constructor
    · rw [settings_after, settings_after, settings]
    · intro name piece
      exact (same (String.ofList name) (by rwa [String.toList_ofList])).1
    · intro token piece bare
      exact terminal?_congr (same (String.ofList token) (by rwa [String.toList_ofList])).2
  · intro language place hidden source
    apply AgreeOn.parse_eq
    constructor
    · rfl
    · intro name piece
      rfl
    · intro token piece bare
      exact terminal?_append hidden bare

theorem parse_local_to_names_and :
    ((builtin [⟨0, "x"⟩] {}).after
        [.register "OR" (.free (.ok .conditional)), .unregister "IF"]).parse none "AND(x, true)" =
      ((builtin [⟨0, "x"⟩] {}).after [.addVariable ⟨1, "spare"⟩]).parse none "AND(x, true)" ∧
    ((builtin [⟨0, "x"⟩] {}).amend (.addVariable ⟨1, "True"⟩)).parse none "AND(x, true)" =
      (builtin [⟨0, "x"⟩] {}).parse none "AND(x, true)" := by
  obtain ⟨-, locality, unseen⟩ := parse_local_to_names none
  constructor
  · apply locality
    · rfl
    · intro name piece
      have different : ∀ other : String,
          (∃ character ∈ other.toList, character ∉ "AND(x, true)".toList) → other ≠ name := by
        rintro other ⟨character, member, absent⟩ rfl
        exact absent (piece.subset member)
      have other_or := different "OR" ⟨'O', by decide, by decide⟩
      have other_if := different "IF" ⟨'I', by decide, by decide⟩
      have other_spare := different "spare" ⟨'s', by decide, by decide⟩
      constructor
      · rw [entry?_after, entry?_after]
        simp [Amendment.names, other_or, other_if]
      · exact (Environment.lookup?_append_of_ne [⟨0, "x"⟩] other_spare).symm
  · apply unseen
    exact .inr (.inl (by decide))

end Language

end GeneticProgram
