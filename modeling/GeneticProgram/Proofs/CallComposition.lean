import GeneticProgram.Proofs.WrittenTree

/-!
# Calls are read argument by argument

A call is a name and, between parentheses, texts with a comma and a space between any two of them.
If each text is one argument without white space at its ends, then splitting gives the texts back,
whatever is wrong inside of them.  Without a limit on the depth a text is read inside of a call as
it is read on its own.  So the reading of a call is put together from the readings of its arguments,
and its failure is that of the first argument that fails.
-/

namespace GeneticProgram

namespace Language

open Source

variable {language : Language} {context : Option Context}

/-- Without a limit the depth at which a text stands does not matter. -/
theorem parseAt_depth_irrelevant (unlimited : language.settings.maxDepth = none)
    (depth other : Nat) (text : List Char) :
    language.parseAt context depth text = language.parseAt context other text := by
  -- The arguments of a call are shorter than the call.
  induction size : text.length using Nat.strong_induction_on generalizing depth other text with
  | _ size induction =>
      rw [parseAt_outline (permits_of_unlimited unlimited depth),
        parseAt_outline (permits_of_unlimited unlimited other)]
      rcases language.head context text with error | ⟨symbol⟩ | ⟨symbol, arguments, shorter⟩
      · rfl
      · rfl
      · have each := fun argument (listed : argument ∈ arguments) =>
          induction argument.length (size ▸ shorter argument listed) (depth + 1) (other + 1)
            argument rfl
        exact congrArg (Except.map (Tree.node symbol)) (Outcome.mapM_congr each)

/-- A text without white space at its ends is read inside of a call as it is read on its own. -/
theorem parseAt_eq_parse (unlimited : language.settings.maxDepth = none) (depth : Nat)
    {text : String} (trimmed : Text.Trimmed Text.isBlank text.toList) :
    language.parseAt context depth text.toList = language.parse context text := by
  rw [parse, Text.trim, Text.trimWhere_eq_self trimmed]
  exact parseAt_depth_irrelevant unlimited depth 1 text.toList

/-- The reading of a call is that of its arguments, one after another. -/
theorem parse_call_eq (unlimited : language.settings.maxDepth = none) {name : String}
    {symbol : Symbol} {arguments : List String} (plain : '(' ∉ name.toList)
    (leads : ∀ character ∈ name.toList.head?, Text.isBlank character = false)
    (resolved : language.registry.resolve context name = .ok (some symbol))
    (counted : symbol.arity = arguments.length)
    (whole : ∀ argument ∈ arguments, IsArgument argument.toList)
    (trimmed : ∀ argument ∈ arguments, Text.Trimmed Text.isBlank argument.toList) :
    language.parse context (name ++ "(" ++ ", ".intercalate arguments ++ ")") =
      (arguments.mapM (language.parse context)).map (.node symbol) := by
  let texts := arguments.map String.toList
  let inner := [',', ' '].intercalate texts
  have written : (name ++ "(" ++ ", ".intercalate arguments ++ ")").toList =
      name.toList ++ '(' :: (inner ++ [')']) := by
    simp [inner, texts]
  have splitting : splitArguments inner = .ok texts :=
    splitArguments_intercalate (List.forall_mem_map.mpr whole) (List.forall_mem_map.mpr trimmed)
  have called : language.callee context (String.ofList name.toList) texts.length = .ok symbol := by
    rw [String.ofList_toList, List.length_map]
    exact callee_eq_ok_iff.mpr ⟨resolved, counted⟩
  have read :
      texts.mapM (language.parseAt context 2) = arguments.mapM (language.parse context) := by
    rw [List.mapM_map]
    exact Outcome.mapM_congr fun argument listed =>
      parseAt_eq_parse unlimited 2 (trimmed argument listed)
  rw [parse, written, Text.trim, Text.trimWhere_eq_self (trimmed_call leads inner),
    parseAt_call (permits_of_unlimited unlimited 1) plain,
    body_of_balanced (balanced_of_splitArguments splitting), Outcome.ok_bind, splitting]
  simp only [Except.mapError, Outcome.ok_bind, called]
  rw [read]

/-- Reading a call is compositional, failures included.  A registered name that does not begin with
white space, with as many arguments as its symbol takes, is read as the node of the symbol over what
the arguments are read as on their own; and if not all of them are read, the call fails as the first
of them that is not. -/
theorem call_reading_is_compositional (language : Language) (context : Option Context)
    (unlimited : language.settings.maxDepth = none) {name : String} {symbol : Symbol}
    {arguments : List String} (plain : '(' ∉ name.toList)
    (leads : ∀ character ∈ name.toList.head?, Text.isBlank character = false)
    (resolved : language.registry.resolve context name = .ok (some symbol))
    (counted : symbol.arity = arguments.length)
    (whole : ∀ argument ∈ arguments, IsArgument argument.toList)
    (trimmed : ∀ argument ∈ arguments, Text.Trimmed Text.isBlank argument.toList) :
    let call := name ++ "(" ++ ", ".intercalate arguments ++ ")"
    (∀ tree, language.parse context call = .ok tree ↔
        ∃ children, tree = .node symbol children ∧
          List.Forall₂ (fun argument child => language.parse context argument = .ok child)
            arguments children) ∧
      ∀ error, language.parse context call = .error error ↔
        ∃ before argument behind, arguments = before ++ argument :: behind ∧
          (∀ earlier ∈ before, ∃ tree, language.parse context earlier = .ok tree) ∧
          language.parse context argument = .error error := by
  intro call
  have composed : language.parse context call =
      (arguments.mapM (language.parse context)).map (.node symbol) :=
    parse_call_eq unlimited plain leads resolved counted whole trimmed
  rw [composed]
  refine ⟨fun tree => ?_, fun error => ?_⟩
  · rw [Outcome.map_eq_ok_iff]
    constructor
    · rintro ⟨children, read, rfl⟩
      exact ⟨children, rfl, Outcome.mapM_eq_ok_iff.mp read⟩
    · rintro ⟨children, rfl, each⟩
      exact ⟨children, Outcome.mapM_eq_ok_iff.mpr each, rfl⟩
  · rw [Outcome.map_eq_error_iff, Outcome.mapM_eq_error_iff]

/-- The second argument fails inside of a call of its own, whose list is quoted, and the third one,
which would fail too, is not looked at. -/
theorem call_reading_is_compositional_if :
    let language := builtin [⟨0, "x"⟩] {}
    language.parse none "AND(x,,true)" =
        .error (.arguments ⟨.emptyArgument, "x,,true".toList⟩) ∧
      language.parse none "IF(x, AND(x,,true), y)" =
        .error (.arguments ⟨.emptyArgument, "x,,true".toList⟩) := by
  intro language
  have permitted : language.Permits 1 := permits_of_unlimited rfl 1
  have read : language.parse none "x" = .ok (.leaf (.variable ⟨0, "x"⟩)) :=
    parseAt_eq_ok_iff.mpr ⟨permitted, .terminal (by decide) (by decide)⟩
  have refused : language.parse none "AND(x,,true)" =
      .error (.arguments ⟨.emptyArgument, "x,,true".toList⟩) :=
    @parseAt_call language none 1 "AND".toList "x,,true)".toList permitted (by decide)
  have whole : ∀ argument ∈ ["x", "AND(x,,true)", "y"], IsArgument argument.toList := by
    simp only [List.forall_mem_cons]
    refine ⟨isArgument_of_free (by decide) (Text.forall_mem_of_all (by decide)), ?_,
      isArgument_of_free (by decide) (Text.forall_mem_of_all (by decide)), by simp⟩
    exact @isArgument_call "AND".toList "x,,true".toList (Text.forall_mem_of_all (by decide))
      (Text.forall_mem_of_all (by decide)) (by decide)
  have trimmed : ∀ argument ∈ ["x", "AND(x,,true)", "y"],
      Text.Trimmed Text.isBlank argument.toList := by
    simp only [List.forall_mem_cons]
    exact ⟨trimmed_of_visible (Text.forall_mem_of_all (by decide)),
      trimmed_of_visible (Text.forall_mem_of_all (by decide)),
      trimmed_of_visible (Text.forall_mem_of_all (by decide)), by simp⟩
  have leads : ∀ character ∈ "IF".toList.head?, Text.isBlank character = false := by
    intro character member
    obtain rfl : 'I' = character := Option.some.inj member
    decide
  have composed := (@call_reading_is_compositional language none rfl "IF" .conditional
    ["x", "AND(x,,true)", "y"] (by decide) leads rfl rfl whole trimmed).2
  refine ⟨refused, (composed _).mpr ⟨["x"], "AND(x,,true)", ["y"], rfl, ?_, refused⟩⟩
  exact List.forall_mem_singleton.mpr ⟨_, read⟩

end Language
end GeneticProgram
