import GeneticProgram.Proofs.ParserSteps

/-!
# Strict and lenient reading

Lenient reading ends an argument list at the last closing parenthesis, strict reading at the
matching one, behind which only white space may follow.  A list that can be split is balanced, so
that the last parenthesis of a text that is read leniently is the matching one.  The two ways of
reading therefore differ in nothing but the text behind the calls: strict reading fails at the first
call, in the order in which the calls begin, that has more than white space behind it.
-/

namespace GeneticProgram

open Source

/-- The trimmed texts behind the closing parentheses of the calls in a text, each call before the
calls in its arguments and the arguments from left to right. -/
inductive CallTails : List Char → List (List Char) → Prop
  | terminal {text : List Char} (bare : '(' ∉ text) : CallTails text []
  | call {name body tail : List Char} {arguments : List (List Char)}
      {inner : List (List (List Char))} (plain : '(' ∉ name)
      (list : ArgumentList (Text.trim body) arguments)
      (below : List.Forall₂ CallTails arguments inner) :
      CallTails (name ++ '(' :: (body ++ ')' :: tail)) (Text.trim tail :: inner.flatten)

/-- A text determines its first opening parenthesis. -/
theorem eq_of_first_opening {name other after behind : List Char} (plain : '(' ∉ name)
    (other_plain : '(' ∉ other) (equal : name ++ '(' :: after = other ++ '(' :: behind) :
    name = other ∧ after = behind := by
  rcases List.append_eq_append_iff.mp equal with
    ⟨inner, other_eq, rest_eq⟩ | ⟨inner, name_eq, rest_eq⟩
  · cases inner with
    | nil => exact ⟨by simpa using other_eq.symm, by simpa using rest_eq⟩
    | cons character inner =>
        obtain ⟨rfl, -⟩ := List.cons.inj rest_eq
        exact absurd (by simp [other_eq]) other_plain
  · cases inner with
    | nil => exact ⟨by simpa using name_eq, by simpa using rest_eq.symm⟩
    | cons character inner =>
        obtain ⟨rfl, -⟩ := List.cons.inj rest_eq
        exact absurd (by simp [name_eq]) plain

/-- The texts behind the calls are determined by the text. -/
theorem CallTails.unique {text : List Char} {first second : List (List Char)}
    (one : CallTails text first) (other : CallTails text second) : first = second := by
  induction size : text.length using Nat.strong_induction_on generalizing text first second with
  | _ size induction =>
      cases one with
      | terminal bare =>
          cases other with
          | terminal _ => rfl
          | call => exact absurd (by simp) bare
      | @call name body tail arguments inner plain list below =>
          generalize text_eq : name ++ '(' :: (body ++ ')' :: tail) = text at other size
          cases other with
          | terminal bare => exact absurd (by simp [← text_eq]) bare
          | @call _ other_body other_tail _ other_inner other_plain other_list other_below =>
              obtain ⟨rfl, after_eq⟩ := eq_of_first_opening plain other_plain text_eq
              have closing : ∀ {inner arguments}, ArgumentList (Text.trim inner) arguments →
                  ∀ rest, cutAtClosing 1 (inner ++ ')' :: rest) = some (inner, rest) := by
                intro inner arguments listed rest
                exact cutAtClosing_one_iff.mpr ⟨rfl, balanced_trim_iff.mp listed.balanced⟩
              have cuts := (closing list tail).symm.trans (after_eq ▸ closing other_list other_tail)
              obtain ⟨rfl, rfl⟩ := Prod.mk.inj (Option.some.inj cuts)
              have splits := (splitArguments_eq_ok_iff.mpr list).symm.trans
                (splitArguments_eq_ok_iff.mpr other_list)
              obtain rfl := Except.ok.inj splits
              have determined : Relator.RightUnique fun argument tails =>
                  argument ∈ arguments ∧ CallTails argument tails := by
                rintro argument tails others ⟨listed, behind⟩ ⟨-, other_behind⟩
                have part := length_le_of_mem_splitArguments
                  (splitArguments_eq_ok_iff.mpr list) listed
                refine induction argument.length ?_ behind other_behind rfl
                rw [← size, ← text_eq]
                simp
                omega
              rw [List.right_unique_forall₂' determined (Outcome.forall₂_and_mem below)
                (Outcome.forall₂_and_mem other_below)]

/-- The outcome of a reading that fails at the first call with a text behind it, if there is one. -/
def judge {Result : Type} (tails : List (List Char)) (result : Result) :
    Except ParseError Result :=
  match tails.find? fun tail => !tail.isEmpty with
  | none => .ok result
  | some tail => .error (.trailing tail)

theorem judge_cons {Result : Type} (tail : List Char) (tails : List (List Char))
    (result : Result) :
    judge (tail :: tails) result =
      if tail = [] then judge tails result else .error (.trailing tail) := by
  cases tail with
  | nil => simp [judge]
  | cons character rest => simp [judge]

/-- Two readings one after the other fail at the first text behind a call of either. -/
theorem judge_append {First Second Result : Type} (tails others : List (List Char)) (first : First)
    (second : Second) (combine : First → Second → Result) :
    (do
      let left ← judge tails first
      let right ← judge others second
      pure (combine left right)) = judge (tails ++ others) (combine first second) := by
  induction tails with
  | nil =>
      change (judge others second >>= fun right => pure (combine first right)) = _
      rw [List.nil_append]
      unfold judge
      cases others.find? fun tail => !tail.isEmpty with
      | none => rfl
      | some tail => rfl
  | cons tail tails induction =>
      rw [List.cons_append, judge_cons, judge_cons]
      split
      · exact induction
      · rfl

namespace Language

variable (language : Language) {context : Option Context}

/-- The language, read strictly. -/
def strictly : Language :=
  { language with settings := { language.settings with strict := true } }

/-- The language, read leniently. -/
def leniently : Language :=
  { language with settings := { language.settings with strict := false } }

/-- A text before white space is closed by the last parenthesis if it is closed by the matching
one. -/
theorem leniently_body_of_strictly {text after inner : List Char}
    (closed : language.strictly.body text after = .ok inner) :
    language.leniently.body text after = .ok inner := by
  obtain ⟨tail, after_eq, -, blank⟩ := (body_strict_iff rfl).mp closed
  refine (body_lenient_iff rfl).mpr ⟨tail, after_eq, ?_⟩
  intro listed
  have white := Text.trim_eq_nil_iff.mp blank ')' listed
  exact absurd white (by decide)

/-- What is read strictly is read leniently, with the same tree. -/
theorem leniently_parseAt_of_strictly {depth : Nat} {text : List Char} {tree : Tree}
    (read : language.strictly.parseAt context depth text = .ok tree) :
    language.leniently.parseAt context depth text = .ok tree := by
  refine parseAt_induction (motive := fun depth text tree =>
    language.leniently.parseAt context depth text = .ok tree) ?_ ?_ read
  · intro depth text symbol permitted bare found
    exact parseAt_eq_ok_iff.mpr ⟨permitted, .terminal bare found⟩
  · intro depth name after inner arguments symbol children permitted plain closed splitting resolved
      counted below
    refine parseAt_eq_ok_iff.mpr ⟨permitted, ?_⟩
    exact .call plain (language.leniently_body_of_strictly closed) splitting resolved counted
      (below.imp fun argument child both => both.2)

/-- Behind a balanced argument list strict reading looks at the rest of the text. -/
theorem strictly_body_eq {inner : List Char} (balanced : Balanced inner) (text tail : List Char) :
    language.strictly.body text (inner ++ ')' :: tail) =
      judge [Text.trim tail] inner := by
  have strict : language.strictly.settings.strict = true := rfl
  rw [body]
  rw [if_pos strict, cutAtClosing_one_iff.mpr ⟨rfl, balanced⟩, judge_cons]
  simp only [List.isEmpty_iff]
  rfl

/-- Arguments that are read up to the first text behind a call are read so as a list. -/
theorem mapM_eq_judge {read : List Char → Except ParseError Tree} {arguments : List (List Char)}
    {children : List Tree}
    (judged : List.Forall₂ (fun argument child => ∃ tails, CallTails argument tails ∧
      read argument = judge tails child) arguments children) :
    ∃ inner, List.Forall₂ CallTails arguments inner ∧
      arguments.mapM read = judge inner.flatten children := by
  induction judged with
  | nil => exact ⟨[], .nil, rfl⟩
  | @cons argument child arguments children first _ induction =>
      obtain ⟨tails, behind, read_first⟩ := first
      obtain ⟨inner, below, read_others⟩ := induction
      refine ⟨tails :: inner, .cons behind below, ?_⟩
      rw [List.mapM_cons, read_first, read_others, List.flatten_cons]
      exact judge_append tails inner.flatten child children List.cons

/-- What is read leniently is read strictly up to the first text behind a call. -/
theorem strictly_parseAt_of_leniently {depth : Nat} {text : List Char} {tree : Tree}
    (read : language.leniently.parseAt context depth text = .ok tree) :
    ∃ tails, CallTails text tails ∧
      language.strictly.parseAt context depth text = judge tails tree := by
  refine parseAt_induction (motive := fun depth text tree => ∃ tails, CallTails text tails ∧
    language.strictly.parseAt context depth text = judge tails tree) ?_ ?_ read
  · intro depth text symbol permitted bare found
    exact ⟨[], .terminal bare, parseAt_eq_ok_iff.mpr ⟨permitted, .terminal bare found⟩⟩
  · intro depth name after inner arguments symbol children permitted plain closed splitting resolved
      counted below
    obtain ⟨tail, rfl, -⟩ := (body_lenient_iff rfl).mp closed
    obtain ⟨tails, behind, read_arguments⟩ :=
      mapM_eq_judge (below.imp fun argument child both => both.2)
    refine ⟨_, .call plain (splitArguments_eq_ok_iff.mp splitting) behind, ?_⟩
    -- The list could be split, so it is balanced and the last parenthesis is the matching one.
    have strictly_permitted : language.strictly.Permits depth := permitted
    have called : language.strictly.callee context (String.ofList name) arguments.length =
        .ok symbol := callee_eq_ok_iff.mpr ⟨resolved, counted⟩
    rw [parseAt_call strictly_permitted plain,
      language.strictly_body_eq (balanced_of_splitArguments splitting), judge_cons, judge_cons]
    split
    · change ((splitArguments inner).mapError ParseError.arguments >>= _) = _
      rw [splitting]
      simp only [Except.mapError, Outcome.ok_bind, called]
      rw [read_arguments]
      unfold judge
      cases tails.flatten.find? fun tail => !tail.isEmpty with
      | none => rfl
      | some tail => rfl
    · rfl

/-- The two ways of reading differ only on the text behind calls.  What is read strictly is read
leniently, with the same tree; what is read leniently is read strictly, with the same tree, unless a
call has more than white space behind it, and then the first such call is the error; and what is
refused leniently is refused strictly. -/
theorem strict_and_lenient_parse (language : Language) (context : Option Context)
    (source : String) :
    (∀ tree, language.strictly.parse context source = .ok tree →
        language.leniently.parse context source = .ok tree) ∧
      (∀ tree, language.leniently.parse context source = .ok tree →
        ∃ tails, (∀ others, CallTails (Text.trim source.toList) others ↔ others = tails) ∧
          language.strictly.parse context source =
            match tails.find? fun tail => !tail.isEmpty with
            | none => .ok tree
            | some tail => .error (.trailing tail)) ∧
      (∀ error, language.leniently.parse context source = .error error →
        ∃ refusal, language.strictly.parse context source = .error refusal) ∧
      ∀ tail, (ParseError.trailing tail).message =
        "Unexpected text after closing parenthesis: " ++ String.ofList (Text.quote tail) := by
  refine ⟨fun tree => language.leniently_parseAt_of_strictly, ?_, ?_, fun tail => rfl⟩
  · intro tree read
    obtain ⟨tails, behind, judged⟩ := language.strictly_parseAt_of_leniently read
    refine ⟨tails, fun others => ⟨fun other => other.unique behind, ?_⟩, judged⟩
    rintro rfl
    exact behind
  · intro error refused
    cases outcome : language.strictly.parse context source with
    | error refusal => exact ⟨refusal, rfl⟩
    | ok tree =>
        have read := language.leniently_parseAt_of_strictly outcome
        exact absurd (read.symm.trans refused) (by simp)

/-- Behind the call in the first argument stands white space, behind the one in the second a letter,
at which strict reading fails. -/
theorem strict_and_lenient_parse_or :
    (builtin [⟨0, "x"⟩] {}).leniently.parse none "OR(NOT(x)\t, NOT(x)z)" =
        .ok (.node (.operator (.connective .or))
          [.node (.operator .negation) [.leaf (.variable ⟨0, "x"⟩)],
            .node (.operator .negation) [.leaf (.variable ⟨0, "x"⟩)]]) ∧
      (builtin [⟨0, "x"⟩] {}).strictly.parse none "OR(NOT(x)\t, NOT(x)z)" =
        .error (.trailing ['z']) := by
  let language := (builtin [⟨0, "x"⟩] {}).leniently
  let negated : Tree := .node (.operator .negation) [.leaf (.variable ⟨0, "x"⟩)]
  have permitted : ∀ depth, language.Permits depth := permits_of_unlimited rfl
  have place : ∀ depth, language.parseAt none depth ['x'] = .ok (.leaf (.variable ⟨0, "x"⟩)) :=
    fun depth => parseAt_eq_ok_iff.mpr ⟨permitted depth, .terminal (by decide) (by decide)⟩
  have negation : ∀ tail : List Char, ')' ∉ tail →
      language.parseAt none 2 ("NOT(x)".toList ++ tail) = .ok negated := by
    intro tail last
    refine parseAt_eq_ok_iff.mpr ⟨permitted 2, ?_⟩
    exact @Reading.call _ _ _ "NOT".toList ("x)".toList ++ tail) ['x'] [['x']] _ _ (by decide)
      ((body_lenient_iff rfl).mpr ⟨tail, rfl, last⟩) rfl rfl rfl (.cons (place 3) .nil)
  have read : language.parse none "OR(NOT(x)\t, NOT(x)z)" =
      .ok (.node (.operator (.connective .or)) [negated, negated]) := by
    refine parseAt_eq_ok_iff.mpr ⟨permitted 1, ?_⟩
    exact @Reading.call _ _ _ "OR".toList "NOT(x)\t, NOT(x)z)".toList
      "NOT(x)\t, NOT(x)z".toList ["NOT(x)\t".toList, "NOT(x)z".toList] _ _ (by decide)
      rfl rfl rfl rfl
      (.cons (negation ['\t'] (by decide)) (.cons (negation ['z'] (by decide)) .nil))
  refine ⟨read, ?_⟩
  obtain ⟨tails, tails_iff, outcome⟩ :=
    (strict_and_lenient_parse (builtin [⟨0, "x"⟩] {}) none _).2.1 _ read
  have behind : ∀ tail : List Char, CallTails ("NOT(x)".toList ++ tail) [Text.trim tail] :=
    fun tail => @CallTails.call "NOT".toList ['x'] tail [['x']] [[]] (by decide)
      (splitArguments_eq_ok_iff.mp rfl) (.cons (.terminal (by decide)) .nil)
  have tails_eq : [[], [], ['z']] = tails := by
    refine (tails_iff _).mp ?_
    exact @CallTails.call "OR".toList "NOT(x)\t, NOT(x)z".toList []
      ["NOT(x)\t".toList, "NOT(x)z".toList] [[[]], [['z']]] (by decide)
      (splitArguments_eq_ok_iff.mp rfl) (.cons (behind ['\t']) (.cons (behind ['z']) .nil))
  rw [outcome, ← tails_eq]
  rfl

end Language
end GeneticProgram
