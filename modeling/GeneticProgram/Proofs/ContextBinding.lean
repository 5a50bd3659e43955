import GeneticProgram.Proofs.ParseFailures
import GeneticProgram.Proofs.ReadTrees
import GeneticProgram.Proofs.WrittenTree

/-!
# Contexts of programs

The context of a program matters to its reading in two ways only.  A function that needs a context
is refused without one, and with one its symbol acts on the ant of the context.  So a reading
without a context that does not ask for one is the reading with any context, and every symbol of an
ant in a tree that is read acts on the same ant.
-/

namespace GeneticProgram

open Source

/-! ## Registries -/

namespace Registry

/-- The built-in functions with others registered, beside them or in their place, that need no
context. -/
def extended (additions : List (String × Except BuildError Symbol)) : Registry :=
  additions.foldl (fun registry addition => registry.register addition.1 (.free addition.2)) builtin

/-- Symbols of ants are made for the ant of the context only. -/
def BindsContext (registry : Registry) : Prop :=
  ∀ context name symbol, registry.resolve context name = .ok (some symbol) →
    ∀ ant, symbol.ant? = some ant → ∃ given, context = some given ∧ given.ant = ant

theorem bindsContext_builtin : builtin.BindsContext := by
  intro context name symbol resolved ant acts
  have known := Symbol.isBuiltin_of_resolve resolved
  have bound : context.map Context.ant = some ant := by
    cases symbol with
    | foodAhead number =>
        obtain rfl := Option.some.inj acts
        exact known
    | action kind number =>
        obtain rfl := Option.some.inj acts
        exact known
    | _ => cases acts
  exact Option.map_eq_some_iff.mp bound

/-- A function that makes no symbol of an ant may be registered. -/
theorem BindsContext.register {registry : Registry} (binds : registry.BindsContext) (name : String)
    {make : Except BuildError Symbol} (unbound : ∀ symbol, make = .ok symbol → symbol.ant? = none) :
    (registry.register name (.free make)).BindsContext := by
  intro context asked symbol resolved ant acts
  rw [resolve, entry?_register] at resolved
  by_cases same : name = asked
  · rw [if_pos same] at resolved
    obtain ⟨made, created, equal⟩ := Outcome.map_eq_ok_iff.mp resolved
    obtain rfl := Option.some.inj equal
    rw [unbound made (Outcome.mapError_eq_ok_iff.mp created)] at acts
    cases acts
  · rw [if_neg same] at resolved
    exact binds context asked symbol resolved ant acts

theorem bindsContext_extended {additions : List (String × Except BuildError Symbol)}
    (unbound : ∀ addition ∈ additions, ∀ symbol, addition.2 = .ok symbol → symbol.ant? = none) :
    (extended additions).BindsContext := by
  have run : ∀ registry : Registry, registry.BindsContext →
      (additions.foldl (fun registry addition =>
        registry.register addition.1 (.free addition.2)) registry).BindsContext := by
    induction additions with
    | nil => exact fun registry binds => binds
    | cons addition rest induction =>
        intro registry binds
        obtain ⟨first, others⟩ := List.forall_mem_cons.mp unbound
        exact induction others _ (binds.register addition.1 first)
  exact run builtin bindsContext_builtin

/-- Only a function that needs a context is refused for want of one, and only without one. -/
theorem of_resolve_missing {registry : Registry} {context : Option Context} {name missing : String}
    (refused : registry.resolve context name = .error (.missingContext missing)) :
    context = none ∧ missing = name ∧
      ∃ entry, registry.entry? name = some entry ∧ entry.factory.needsContext = true := by
  rw [resolve] at refused
  cases found : registry.entry? name with
  | none =>
      rw [found] at refused
      cases refused
  | some entry =>
      rw [found] at refused
      have created := Outcome.map_eq_error_iff.mp refused
      rw [Entry.create] at created
      cases factory : entry.factory with
      | free make =>
          simp only [factory] at created
          obtain ⟨failure, -, impossible⟩ := Outcome.mapError_eq_error_iff.mp created
          cases impossible
      | bound make =>
          simp only [factory] at created
          cases context with
          | none =>
              obtain rfl := ResolveError.missingContext.inj (Except.error.inj created)
              exact ⟨rfl, name_of_found found, entry, rfl, by rw [factory]; rfl⟩
          | some given =>
              obtain ⟨failure, -, impossible⟩ := Outcome.mapError_eq_error_iff.mp created
              cases impossible

/-- What does not need a context is resolved alike with every context. -/
theorem resolve_eq_of_not_missing {registry : Registry} {name : String}
    (fine : ∀ missing, registry.resolve none name ≠ .error (.missingContext missing))
    (context : Option Context) : registry.resolve context name = registry.resolve none name := by
  rw [resolve, resolve]
  cases found : registry.entry? name with
  | none => rfl
  | some entry =>
      cases factory : entry.factory with
      | free make => simp only [Entry.create, factory]
      | bound make =>
          have refused : registry.resolve none name = .error (.missingContext entry.name) := by
            simp only [resolve, found, Entry.create, factory]
            rfl
          exact absurd refused (fine entry.name)

end Registry

/-! ## Readings -/

namespace Language

variable {language : Language} {context : Option Context}

/-- The symbols of ants in a tree that is read act on the ant of the context. -/
theorem ant_of_parseAt (binds : language.registry.BindsContext) {depth : Nat} {text : List Char}
    {tree : Tree} (read : language.parseAt context depth text = .ok tree) :
    ∀ symbol ∈ tree.symbols, ∀ ant, symbol.ant? = some ant →
      ∃ given, context = some given ∧ given.ant = ant := by
  intro symbol member ant acts
  rcases source_of_mem_symbols read symbol member with ⟨token, found⟩ | ⟨name, resolved⟩
  · rcases terminal?_cases found with ⟨truth, rfl⟩ | ⟨place, rfl, -⟩ | ⟨number, rfl⟩
    all_goals cases acts
  · exact binds context name symbol resolved ant acts

/-- A function that needs a context is called where the reading of a text without one comes to. -/
def CallsBound (language : Language) (depth : Nat) (text : List Char) (name : String) : Prop :=
  ∃ final after entry, Visits language none depth text final (name.toList ++ '(' :: after) ∧
    '(' ∉ name.toList ∧ language.registry.entry? name = some entry ∧
    entry.factory.needsContext = true

theorem CallsBound.isInfix {depth : Nat} {text : List Char} {name : String}
    (calls : language.CallsBound depth text name) : name.toList ++ ['('] <:+: text := by
  obtain ⟨final, after, entry, visits, -, -, -⟩ := calls
  have front : name.toList ++ ['('] <+: name.toList ++ '(' :: after := ⟨after, by simp⟩
  exact front.isInfix.trans visits.isInfix

/-- A context is missing only where there is none and a function that needs it is called. -/
theorem of_parseAt_missing {depth : Nat} {text : List Char} {missing : String}
    (refused : language.parseAt context depth text = .error (.resolve (.missingContext missing))) :
    context = none ∧ language.CallsBound depth text missing := by
  obtain ⟨final, piece, visits, ⟨limit, -, impossible⟩ | failed⟩ := exists_visit_of_failure refused
  · cases impossible
  by_cases opened : '(' ∈ piece
  · obtain ⟨name, after, rfl, plain⟩ := eq_call_of_mem opened
    rw [outline_call plain] at failed
    rcases Outcome.bind_eq_error failed with unclosed | ⟨inner, -, failed⟩
    · cases body_error unclosed
    rcases Outcome.bind_eq_error failed with unsplit | ⟨arguments, -, failed⟩
    · obtain ⟨fault, -, impossible⟩ := Outcome.mapError_eq_error_iff.mp unsplit
      cases impossible
    rcases Outcome.bind_eq_error failed with unresolved | ⟨symbol, -, impossible⟩
    · have missed : language.registry.resolve context (String.ofList name) =
          .error (.missingContext missing) := by
        rw [callee] at unresolved
        split at unresolved
        · rename_i error resolved
          rw [resolved, ParseError.resolve.inj (Except.error.inj unresolved)]
        · cases unresolved
        · split at unresolved
          · cases unresolved
          · cases unresolved
      obtain ⟨rfl, rfl, entry, found, needs⟩ := Registry.of_resolve_missing missed
      refine ⟨rfl, final, after, entry, ?_, ?_, found, needs⟩
      · rw [String.toList_ofList]
        exact visits
      · rw [String.toList_ofList]
        exact plain
    · cases impossible
  · rw [outline_terminal opened] at failed
    split at failed
    · cases failed
    · cases failed

theorem callee_eq_of_not_missing {name : String} {given : Nat}
    (fine : ∀ missing,
      language.callee none name given ≠ .error (.resolve (.missingContext missing)))
    (context : Option Context) :
    language.callee context name given = language.callee none name given := by
  have resolved : language.registry.resolve context name = language.registry.resolve none name := by
    refine Registry.resolve_eq_of_not_missing (fun missing refused => fine missing ?_) context
    rw [callee, refused]
  rw [callee, callee, resolved]

/-- A reading without a context that does not miss one is the reading with any context. -/
theorem parseAt_eq_of_not_missing (context : Option Context) {depth : Nat} {text : List Char}
    (fine : ∀ missing,
      language.parseAt none depth text ≠ .error (.resolve (.missingContext missing))) :
    language.parseAt none depth text = language.parseAt context depth text := by
  -- The arguments of a call are shorter than the call, and the first that misses a context ends it.
  induction size : text.length using Nat.strong_induction_on generalizing depth text with
  | _ size induction =>
      by_cases permitted : language.Permits depth
      · by_cases opened : '(' ∈ text
        · obtain ⟨name, after, rfl, plain⟩ := eq_call_of_mem opened
          rw [parseAt_call permitted plain] at fine
          rw [parseAt_call permitted plain, parseAt_call permitted plain]
          cases closed : language.body (name ++ '(' :: after) after with
          | error error => rfl
          | ok inner =>
              rw [closed, Outcome.ok_bind] at fine
              rw [Outcome.ok_bind, Outcome.ok_bind]
              cases splitting : splitArguments inner with
              | error error => rfl
              | ok arguments =>
                  rw [splitting] at fine
                  simp only [Except.mapError, Outcome.ok_bind] at fine ⊢
                  have known : language.callee context (String.ofList name) arguments.length =
                      language.callee none (String.ofList name) arguments.length := by
                    refine callee_eq_of_not_missing (fun missing refused => fine missing ?_) context
                    rw [refused, Outcome.error_bind]
                  rw [known]
                  cases called : language.callee none (String.ofList name) arguments.length with
                  | error error => rfl
                  | ok symbol =>
                      rw [called] at fine
                      simp only [Outcome.ok_bind] at fine ⊢
                      refine congrArg (Except.map (Tree.node symbol)) ?_
                      refine Outcome.mapM_congr_of_not_error
                        (fun error => ∃ missing, error = .resolve (.missingContext missing)) ?_ ?_
                      · intro argument listed fine_argument
                        have shorter := length_lt_of_argument closed splitting listed
                        refine induction argument.length (size ▸ shorter) ?_ rfl
                        exact fun missing refused => fine_argument _ refused ⟨missing, rfl⟩
                      · rintro failure failed ⟨missing, rfl⟩
                        exact fine missing (Outcome.map_eq_error_iff.mpr failed)
        · rw [parseAt_terminal permitted opened, parseAt_terminal permitted opened]
      · obtain ⟨limit, limited, refused⟩ := parseAt_tooDeep none permitted text
        obtain ⟨other, limited_too, refused_too⟩ := parseAt_tooDeep context permitted text
        obtain rfl := Option.some.inj (limited.symm.trans limited_too)
        rw [refused, refused_too]

end Language

/-! ## Readers -/

namespace Workspace

/-- A program is bound to the given ant, or else to the reader's own.  Every symbol of an ant in its
tree acts on that ant; with an ant no context is missing, and without one there is no such symbol.
Without an ant a function that needs a context and is called in the source is refused, or else the
outcome is that with any ant, given or the reader's own. -/
theorem context_bound_or_missing (additions : List (String × Except BuildError Symbol))
    (unbound : ∀ addition ∈ additions, ∀ symbol, addition.2 = .ok symbol → symbol.ant? = none)
    (workspace : Workspace) (reader : Reader)
    (registered : workspace.registry reader.registry = Registry.extended additions)
    (source : String) :
    (∀ ant after slot, workspace.parse reader ant (some source) = .ok (after, slot) →
        ∃ root, slot = some root ∧ ∀ symbol ∈ (after.heap.tree root).symbols,
          ∀ number, symbol.ant? = some number → ant.or reader.ant = some number) ∧
      (∀ ant, ant.or reader.ant ≠ none → ∀ name,
        workspace.parse reader ant (some source) ≠ .error (.resolve (.missingContext name))) ∧
      (∀ ant after root, ant.or reader.ant = none →
        workspace.parse reader ant (some source) = .ok (after, some root) →
          ∀ symbol ∈ (after.heap.tree root).symbols, symbol.ant? = none) ∧
      ((∃ name, workspace.parse { reader with ant := none } none (some source) =
            .error (.resolve (.missingContext name)) ∧
          (workspace.language reader).CallsBound 1 (Text.trim source.toList) name ∧
          name.toList ++ ['('] <:+: source.toList) ∨
        ∀ own ant, workspace.parse { reader with ant := own } ant (some source) =
          workspace.parse { reader with ant := none } none (some source)) := by
  have binds : (workspace.language reader).registry.BindsContext := by
    change (workspace.registry reader.registry).BindsContext
    rw [registered]
    exact Registry.bindsContext_extended unbound
  have acting : ∀ ant after slot, workspace.parse reader ant (some source) = .ok (after, slot) →
      ∃ root, slot = some root ∧ ∀ symbol ∈ (after.heap.tree root).symbols,
        ∀ number, symbol.ant? = some number → ant.or reader.ant = some number := by
    intro ant after slot read
    obtain ⟨tree, root, rfl, parsed, -, -, found⟩ := exists_root_of_parse read
    refine ⟨root, rfl, fun symbol member number acts => ?_⟩
    rw [(found after.heap List.prefix_rfl).1] at member
    obtain ⟨given, bound, rfl⟩ := Language.ant_of_parseAt binds parsed symbol member number acts
    obtain ⟨chosen, effective, rfl⟩ := Option.map_eq_some_iff.mp bound
    exact effective
  refine ⟨acting, ?_, ?_, ?_⟩
  · intro ant present name refused
    rw [parse_some] at refused
    have none_given := (Language.of_parseAt_missing (Outcome.map_eq_error_iff.mp refused)).1
    exact present (Option.map_eq_none_iff.mp none_given)
  · intro ant after root absent read symbol member
    obtain ⟨found, slot_eq, bound⟩ := acting ant after (some root) read
    obtain rfl := Option.some.inj slot_eq
    cases acts : symbol.ant? with
    | none => rfl
    | some number =>
        rw [bound symbol member number acts] at absent
        cases absent
  · by_cases missed : ∃ name, (workspace.language reader).parse none source =
        .error (.resolve (.missingContext name))
    · obtain ⟨name, refused⟩ := missed
      have calls := (Language.of_parseAt_missing refused).2
      refine .inl ⟨name, ?_, calls, calls.isInfix.trans (Text.trim_isInfix source.toList)⟩
      rw [parse_some]
      exact Outcome.map_eq_error_iff.mpr refused
    · refine .inr fun own ant => ?_
      have same : (workspace.language reader).parse none source = (workspace.language reader).parse
          (workspace.effectiveContext { reader with ant := own } ant) source :=
        Language.parseAt_eq_of_not_missing _ fun missing refused => missed ⟨missing, refused⟩
      rw [parse_some, parse_some]
      exact congrArg (Except.map (workspace.log (.parsed source)).plant) same.symm

/-- An ant is given in place of the reader's own, and without any ant the call of an action is
refused; the function beside it is registered and needs no context. -/
theorem context_bound_or_missing_pick :
    let workspace : Workspace :=
      { initial with registries := [Registry.extended [("PICK", .ok (.function "PICK" 2))]] }
    let reader : Reader := ⟨0, [], some 3, 0⟩
    (∃ after root, workspace.parse reader (some 4) (some "PICK(MOVE(), true)") =
          .ok (after, some root) ∧
        .action .move 4 ∈ (after.heap.tree root).symbols ∧
        ∀ symbol ∈ (after.heap.tree root).symbols, ∀ number, symbol.ant? = some number →
          number = 4) ∧
      ∃ name, workspace.parse { reader with ant := none } none (some "PICK(MOVE(), true)") =
        .error (.resolve (.missingContext name)) := by
  intro workspace reader
  let language := workspace.language reader
  have unbound : ∀ addition ∈ [("PICK", (.ok (.function "PICK" 2) : Except BuildError Symbol))],
      ∀ symbol, addition.2 = .ok symbol → symbol.ant? = none := by
    intro addition member symbol made
    obtain rfl := List.mem_singleton.mp member
    obtain rfl := Except.ok.inj made
    rfl
  obtain ⟨acting, -, -, missing_or_same⟩ :=
    context_bound_or_missing _ unbound workspace reader rfl "PICK(MOVE(), true)"
  have permitted : ∀ depth, language.Permits depth := Language.permits_of_unlimited rfl
  have read : language.parse (workspace.effectiveContext reader (some 4)) "PICK(MOVE(), true)" =
      .ok (.node (.function "PICK" 2) [.node (.action .move 4) [], .leaf (.boolean true)]) := by
    refine Language.parseAt_eq_ok_iff.mpr ⟨permitted 1, ?_⟩
    refine @Language.Reading.call _ _ _ "PICK".toList "MOVE(), true)".toList "MOVE(), true".toList
      ["MOVE()".toList, "true".toList] _ _ (by decide) rfl rfl rfl rfl (.cons ?_ (.cons ?_ .nil))
    · refine Language.parseAt_eq_ok_iff.mpr ⟨permitted 2, ?_⟩
      exact @Language.Reading.call _ _ _ "MOVE".toList [')'] [] [] _ _ (by decide) rfl rfl rfl rfl
        .nil
    · exact Language.parseAt_eq_ok_iff.mpr ⟨permitted 2, .terminal (by decide) rfl⟩
  cases outcome : workspace.parse reader (some 4) (some "PICK(MOVE(), true)") with
  | error error =>
      rw [parse_some] at outcome
      cases read.symm.trans (Outcome.map_eq_error_iff.mp outcome)
  | ok result =>
      obtain ⟨after, slot⟩ := result
      obtain ⟨root, rfl, bound⟩ := acting (some 4) after slot outcome
      obtain ⟨tree, same_root, slot_eq, parsed, -, -, found⟩ := exists_root_of_parse outcome
      obtain rfl := Option.some.inj slot_eq
      obtain rfl := Except.ok.inj (read.symm.trans parsed)
      have moves : .action .move 4 ∈ (after.heap.tree root).symbols := by
        rw [(found after.heap List.prefix_rfl).1]
        simp [Tree.symbols_node, Tree.leaf]
      refine ⟨⟨after, root, rfl, moves, fun symbol member number acts => ?_⟩, ?_⟩
      · exact (Option.some.inj (bound symbol member number acts)).symm
      · obtain ⟨name, refused, -, -⟩ | same := missing_or_same
        · exact ⟨name, refused⟩
        · have bare : workspace.parse { reader with ant := none } none (some "PICK(MOVE(), true)") =
              .ok (after, some root) := (same (some 3) (some 4)).symm.trans outcome
          have idle := (context_bound_or_missing _ unbound workspace { reader with ant := none } rfl
            "PICK(MOVE(), true)").2.2.1 none after root rfl bare _ moves
          cases idle

end Workspace

end GeneticProgram
