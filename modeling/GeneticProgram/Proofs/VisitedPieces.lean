import GeneticProgram.Proofs.NameLocality

/-!
# The pieces that a reading comes to

Reading a text comes to the text itself and, where it is a call of a known function with the right
number of arguments, to what the readings of the arguments come to, from left to right up to the
first argument that is not read.  A reading that fails does so at one of these pieces.
-/

namespace GeneticProgram.Language

open Source

variable {language : Language} {context : Option Context}

/-- Reading a text at a depth comes to a piece of it at another depth. -/
inductive Visits (language : Language) (context : Option Context) :
    Nat → List Char → Nat → List Char → Prop
  /-- The text itself is such a piece. -/
  | here (depth : Nat) (text : List Char) : Visits language context depth text depth text
  /-- So is a piece that reading an argument comes to, if the arguments before it are read. -/
  | argument {depth final : Nat} {name after inner argument piece : List Char}
      {before behind : List (List Char)} {symbol : Symbol} (permitted : language.Permits depth)
      (plain : '(' ∉ name) (closed : language.body (name ++ '(' :: after) after = .ok inner)
      (splitting : splitArguments inner = .ok (before ++ argument :: behind))
      (resolved : language.registry.resolve context (String.ofList name) = .ok (some symbol))
      (counted : symbol.arity = (before ++ argument :: behind).length)
      (earlier : ∀ other ∈ before, ∃ tree, language.parseAt context (depth + 1) other = .ok tree)
      (within : Visits language context (depth + 1) argument final piece) :
      Visits language context depth (name ++ '(' :: after) final piece

/-- What a reading comes to is a piece of its text. -/
theorem Visits.isInfix {depth final : Nat} {text piece : List Char}
    (visits : Visits language context depth text final piece) : piece <:+: text := by
  induction visits with
  | here depth text => exact List.infix_rfl
  | argument _ _ closed splitting _ _ _ _ induction =>
      exact induction.trans (isInfix_of_argument closed splitting (by simp))

/-- What is recognised as a call has a name, an argument list and a function of that name. -/
theorem call_of_outline {text : List Char} {symbol : Symbol} {arguments : List (List Char)}
    (found : (language.head context text).map outline = .ok (symbol, some arguments)) :
    ∃ name after inner, text = name ++ '(' :: after ∧ '(' ∉ name ∧
      language.body text after = .ok inner ∧ splitArguments inner = .ok arguments ∧
      language.registry.resolve context (String.ofList name) = .ok (some symbol) ∧
      symbol.arity = arguments.length := by
  by_cases opened : '(' ∈ text
  · obtain ⟨name, after, rfl, plain⟩ := eq_call_of_mem opened
    rw [outline_call plain] at found
    obtain ⟨inner, closed, found⟩ := Outcome.bind_eq_ok_iff.mp found
    obtain ⟨given, splitting, found⟩ := Outcome.bind_eq_ok_iff.mp found
    obtain ⟨made, called, found⟩ := Outcome.bind_eq_ok_iff.mp found
    obtain ⟨rfl, given_eq⟩ := Prod.mk.inj (Except.ok.inj found)
    obtain rfl := Option.some.inj given_eq
    obtain ⟨resolved, counted⟩ := callee_eq_ok_iff.mp called
    exact ⟨name, after, inner, rfl, plain, closed, Outcome.mapError_eq_ok_iff.mp splitting,
      resolved, counted⟩
  · rw [outline_terminal opened] at found
    split at found
    · cases (Prod.mk.inj (Except.ok.inj found)).2
    · cases found

/-- A call of a known function with the right number of arguments is recognised as such. -/
theorem outline_of_call {name after inner : List Char} {symbol : Symbol}
    {arguments : List (List Char)} (plain : '(' ∉ name)
    (closed : language.body (name ++ '(' :: after) after = .ok inner)
    (splitting : splitArguments inner = .ok arguments)
    (resolved : language.registry.resolve context (String.ofList name) = .ok (some symbol))
    (counted : symbol.arity = arguments.length) :
    (language.head context (name ++ '(' :: after)).map outline = .ok (symbol, some arguments) := by
  rw [outline_call plain, closed, Outcome.ok_bind, splitting]
  simp only [Except.mapError, Outcome.ok_bind]
  rw [callee_eq_ok_iff.mpr ⟨resolved, counted⟩]
  rfl

/-- A reading comes to what the readings of its arguments come to. -/
theorem visits_of_outline {depth final : Nat} {text piece argument : List Char} {symbol : Symbol}
    {before behind : List (List Char)} (permitted : language.Permits depth)
    (found : (language.head context text).map outline =
      .ok (symbol, some (before ++ argument :: behind)))
    (earlier : ∀ other ∈ before, ∃ tree, language.parseAt context (depth + 1) other = .ok tree)
    (within : Visits language context (depth + 1) argument final piece) :
    Visits language context depth text final piece := by
  obtain ⟨name, after, inner, rfl, plain, closed, splitting, resolved, counted⟩ :=
    call_of_outline found
  exact .argument permitted plain closed splitting resolved counted earlier within

/-! ## Failures -/

/-- A reading fails at a piece that it comes to: the piece is too deep, or its outermost part is not
recognised. -/
theorem exists_visit_of_failure {depth : Nat} {text : List Char} {error : ParseError}
    (failed : language.parseAt context depth text = .error error) :
    ∃ final piece, Visits language context depth text final piece ∧
      ((∃ limit, language.settings.maxDepth = some limit ∧ error = .tooDeep limit) ∨
        (language.head context piece).map outline = .error error) := by
  induction size : text.length using Nat.strong_induction_on generalizing depth text with
  | _ size induction =>
      by_cases permitted : language.Permits depth
      · rw [parseAt_outline permitted] at failed
        cases outer : language.head context text with
        | error other =>
            rw [outer] at failed
            obtain rfl := Except.error.inj failed
            exact ⟨depth, text, .here depth text, .inr (by rw [outer]; rfl)⟩
        | ok part =>
            rw [outer] at failed
            cases part with
            | terminal symbol => cases failed
            | call symbol arguments shorter =>
                change Except.map (Tree.node symbol)
                  (arguments.mapM (language.parseAt context (depth + 1))) = _ at failed
                obtain ⟨before, argument, behind, rfl, earlier, failed_argument⟩ :=
                  Outcome.mapM_eq_error_first (Outcome.map_eq_error_iff.mp failed)
                have found : (language.head context text).map outline =
                    .ok (symbol, some (before ++ argument :: behind)) := by
                  rw [outer]
                  rfl
                have short := shorter argument (by simp)
                obtain ⟨final, piece, visits, reason⟩ :=
                  induction argument.length (size ▸ short) failed_argument rfl
                exact ⟨final, piece, visits_of_outline permitted found earlier visits, reason⟩
      · obtain ⟨limit, limited, refused⟩ := parseAt_tooDeep context permitted text
        rw [refused] at failed
        exact ⟨depth, text, .here depth text,
          .inl ⟨limit, limited, (Except.error.inj failed).symm⟩⟩

/-- What holds of the depth error and of every failure of an outermost part holds of every
failure. -/
theorem parseAt_failure {motive : ParseError → Prop}
    (deep : ∀ limit, language.settings.maxDepth = some limit → motive (.tooDeep limit))
    (outermost : ∀ text error, (language.head context text).map outline = .error error →
      motive error)
    {depth : Nat} {text : List Char} {error : ParseError}
    (failed : language.parseAt context depth text = .error error) : motive error := by
  obtain ⟨final, piece, -, ⟨limit, limited, rfl⟩ | refused⟩ := exists_visit_of_failure failed
  · exact deep limit limited
  · exact outermost piece error refused

end GeneticProgram.Language
