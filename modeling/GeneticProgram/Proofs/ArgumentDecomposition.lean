import GeneticProgram.Proofs.ParseFailures

/-!
# Decompositions of argument lists

An argument list falls into its arguments and the separators between them, and it does so in one
way only.  The arguments are determined because the splitter finds those of every decomposition.
The separators are determined because an argument does not begin with a separating character, so
that a separator goes as far as such characters follow each other.
-/

namespace GeneticProgram.Source

/-- A first argument and further ones, each behind its separator, written one after another. -/
def writeOut (first : List Char) : List (List Char × List Char) → List Char
  | [] => first
  | (gap, next) :: rest => first ++ gap ++ writeOut next rest

/-- A text falls into a first argument and further ones, each behind a separator. -/
structure Decomposition (text first : List Char) (others : List (List Char × List Char)) :
    Prop where
  /-- The pieces make up the text. -/
  pieces : text = writeOut first others
  /-- The first piece is an argument. -/
  leads : IsArgument first
  /-- The further pieces are separators and arguments. -/
  follows : ∀ part ∈ others, (∃ comma, Separator comma part.1) ∧ IsArgument part.2

/-- A text is made of separated arguments when it can be decomposed into them. -/
theorem separated_iff_decomposition {text : List Char} {arguments : List (List Char)} :
    Separated text arguments ↔
      ∃ first others, arguments = first :: others.map Prod.snd ∧
        Decomposition text first others := by
  constructor
  · intro separated
    induction separated with
    | last whole => exact ⟨_, [], rfl, rfl, whole, List.forall_mem_nil _⟩
    | @cons argument gap rest comma arguments whole between _ induction =>
        obtain ⟨first, others, rfl, pieces, leads, follows⟩ := induction
        refine ⟨argument, (gap, first) :: others, rfl, by rw [pieces, writeOut], whole, ?_⟩
        exact List.forall_mem_cons.mpr ⟨⟨⟨comma, between⟩, leads⟩, follows⟩
  · rintro ⟨first, others, rfl, pieces, leads, follows⟩
    subst pieces
    induction others generalizing first with
    | nil => exact .last leads
    | cons part rest induction =>
        obtain ⟨gap, next⟩ := part
        obtain ⟨⟨⟨comma, between⟩, whole⟩, later⟩ := List.forall_mem_cons.mp follows
        exact .cons leads between (induction next whole later)

/-- A text is made of separated arguments in one way only: the splitter finds them. -/
theorem Separated.unique {text : List Char} {arguments others : List (List Char)}
    (one : Separated text arguments) (other : Separated text others) : arguments = others := by
  have found := Splitter.foldlM_read_separated one [] false
  rw [Splitter.foldlM_read_separated other [] false] at found
  exact (Except.ok.inj found).symm

theorem Separator.isSeparating {comma : Bool} {gap : List Char} (between : Separator comma gap) :
    ∀ character ∈ gap, isSeparating character = true := by
  intro character member
  have spaces : ∀ count, character ∈ List.replicate count ' ' →
      Source.isSeparating character = true := by
    intro count listed
    obtain rfl := List.eq_of_mem_replicate listed
    rfl
  cases between with
  | spaces count => exact spaces _ member
  | comma before after =>
      rcases List.mem_append.mp member with inFront | inBack
      · exact spaces _ inFront
      · rcases List.mem_cons.mp inBack with rfl | behind
        · rfl
        · exact spaces _ behind

/-- A written list does not begin with a separating character. -/
theorem takeWhile_writeOut {first : List Char} (leads : IsArgument first)
    (others : List (List Char × List Char)) :
    (writeOut first others).takeWhile isSeparating = [] := by
  obtain ⟨character, rest, rfl⟩ := List.exists_cons_of_ne_nil leads.nonempty
  have free : isSeparating character = false := leads.solid [] character rest rfl rfl
  cases others with
  | nil => simp [writeOut, free]
  | cons part others => simp [writeOut, free]

/-- The separator in front of a written list is the run of separating characters there. -/
theorem takeWhile_gap {comma : Bool} {gap first : List Char} (between : Separator comma gap)
    (leads : IsArgument first) (others : List (List Char × List Char)) :
    (gap ++ writeOut first others).takeWhile isSeparating = gap := by
  rw [List.takeWhile_append_of_pos between.isSeparating, takeWhile_writeOut leads, List.append_nil]

/-- Decompositions of one text with the same arguments have the same separators. -/
theorem Decomposition.separators_unique {text first : List Char}
    {others more : List (List Char × List Char)} (one : Decomposition text first others)
    (other : Decomposition text first more) (same : others.map Prod.snd = more.map Prod.snd) :
    others = more := by
  induction others generalizing text first more with
  | nil => exact (List.map_eq_nil_iff.mp same.symm).symm
  | cons part rest induction =>
      cases more with
      | nil => cases same
      | cons part_too rest_too =>
          obtain ⟨gap, next⟩ := part
          obtain ⟨gap_too, next_too⟩ := part_too
          simp only [List.map_cons, List.cons.injEq] at same
          obtain ⟨rfl, same_rest⟩ := same
          obtain ⟨⟨⟨comma, between⟩, whole⟩, later⟩ := List.forall_mem_cons.mp one.follows
          obtain ⟨⟨⟨comma_too, between_too⟩, -⟩, later_too⟩ := List.forall_mem_cons.mp other.follows
          have pieces := one.pieces.symm.trans other.pieces
          rw [writeOut, writeOut, List.append_assoc, List.append_assoc] at pieces
          have behind := List.append_cancel_left pieces
          obtain rfl : gap = gap_too :=
            calc
              gap = (gap ++ writeOut next rest).takeWhile isSeparating :=
                (takeWhile_gap between whole rest).symm
              _ = (gap_too ++ writeOut next rest_too).takeWhile isSeparating := by rw [behind]
              _ = gap_too := takeWhile_gap between_too whole rest_too
          rw [induction ⟨rfl, whole, later⟩ ⟨List.append_cancel_left behind, whole, later_too⟩
            same_rest]

/-- A text has at most one decomposition. -/
theorem Decomposition.unique {text first first_too : List Char}
    {others more : List (List Char × List Char)} (one : Decomposition text first others)
    (other : Decomposition text first_too more) : first = first_too ∧ others = more := by
  have same := (separated_iff_decomposition.mpr ⟨_, _, rfl, one⟩).unique
    (separated_iff_decomposition.mpr ⟨_, _, rfl, other⟩)
  obtain ⟨rfl, same_rest⟩ := List.cons.inj same
  exact ⟨rfl, one.separators_unique other same_rest⟩

theorem splitArguments_eq_nil_iff {text : List Char} :
    splitArguments text = .ok [] ↔ Text.trim text = [] := by
  rw [splitArguments_eq_ok_iff, ArgumentList]
  exact ⟨fun list => list.elim And.left fun separated => absurd rfl separated.ne_nil,
    fun empty => .inl ⟨empty, rfl⟩⟩

theorem splitArguments_eq_cons_iff {text first : List Char} {rest : List (List Char)} :
    splitArguments text = .ok (first :: rest) ↔
      ∃ others, rest = others.map Prod.snd ∧ Decomposition (Text.trim text) first others := by
  rw [splitArguments_eq_ok_iff, ArgumentList, separated_iff_decomposition]
  constructor
  · rintro (⟨-, impossible⟩ | ⟨_, others, arguments_eq, decomposition⟩)
    · cases impossible
    · obtain ⟨rfl, rest_eq⟩ := List.cons.inj arguments_eq
      exact ⟨others, rest_eq, decomposition⟩
  · rintro ⟨others, rfl, decomposition⟩
    exact .inr ⟨first, others, rfl, decomposition⟩

/-- A refused argument list is quoted as it was given. -/
theorem text_of_splitArguments_error {text : List Char} {error : ArgumentError}
    (refused : splitArguments text = .error error) : error.text = text := by
  rw [splitArguments] at refused
  split at refused
  · cases refused
  · obtain rfl := Except.error.inj refused
    rfl

/-- Splitting gives no arguments exactly for a blank text, and some arguments exactly if the trimmed
text can be decomposed into them; the decomposition is unique.  Every other text is refused as
malformed. -/
theorem split_into_unique_decomposition (text : List Char) :
    (splitArguments text = .ok [] ↔ Text.trim text = []) ∧
      (∀ (first : List Char) (rest : List (List Char)),
        splitArguments text = .ok (first :: rest) ↔
          ∃ others, rest = others.map Prod.snd ∧ Decomposition (Text.trim text) first others) ∧
      (∀ (first first_too : List Char) (others more : List (List Char × List Char)),
        Decomposition (Text.trim text) first others →
          Decomposition (Text.trim text) first_too more → first = first_too ∧ others = more) ∧
      ((∃ error, splitArguments text = .error error ∧ error.text = text ∧
          (ParseError.arguments error).kind? = some .malformedProgram) ↔
        Text.trim text ≠ [] ∧
          ¬∃ first others, Decomposition (Text.trim text) first others) := by
  refine ⟨splitArguments_eq_nil_iff, fun first rest => splitArguments_eq_cons_iff,
    fun first first_too others more one other => one.unique other, ?_⟩
  constructor
  · rintro ⟨error, refused, -, -⟩
    refine ⟨fun empty => ?_, fun ⟨first, others, decomposition⟩ => ?_⟩
    · rw [splitArguments_eq_nil_iff.mpr empty] at refused
      cases refused
    · rw [splitArguments_eq_cons_iff.mpr ⟨others, rfl, decomposition⟩] at refused
      cases refused
  · rintro ⟨nonempty, whole⟩
    cases outcome : splitArguments text with
    | error error => exact ⟨error, rfl, text_of_splitArguments_error outcome, rfl⟩
    | ok arguments =>
        cases arguments with
        | nil => exact absurd (splitArguments_eq_nil_iff.mp outcome) nonempty
        | cons first rest =>
            obtain ⟨others, -, decomposition⟩ := splitArguments_eq_cons_iff.mp outcome
            exact absurd ⟨first, others, decomposition⟩ whole

/-- A call with a comma inside it, behind it a comma between spaces, then a run of spaces, and at
both ends white space that is none of the separators. -/
theorem split_into_unique_decomposition_call :
    splitArguments "\tf(1, 2) , x\n  y\n".toList = .ok ["f(1, 2)".toList, "x\n".toList, ['y']] ∧
      ∀ first others, Decomposition "f(1, 2) , x\n  y".toList first others →
        first = "f(1, 2)".toList ∧
          others = [(" , ".toList, "x\n".toList), ([' ', ' '], ['y'])] := by
  have call : IsArgument "f(1, 2)".toList :=
    @isArgument_call ['f'] "1, 2".toList (Text.forall_mem_of_all (by decide))
      (Text.forall_mem_of_all (by decide)) (by decide)
  have bare : ∀ text : List Char, text ≠ [] → Balanced text →
      (text.all fun character => !isSeparating character) = true → IsArgument text := by
    intro text nonempty balanced free
    refine ⟨nonempty, balanced, solid_of_forall (fun character member => ?_) 0⟩
    simpa using List.all_eq_true.mp free character member
  have decomposition : Decomposition "f(1, 2) , x\n  y".toList "f(1, 2)".toList
      [(" , ".toList, "x\n".toList), ([' ', ' '], ['y'])] := by
    refine ⟨rfl, call, ?_⟩
    simp only [List.forall_mem_cons]
    exact ⟨⟨⟨true, .comma 1 1⟩, bare _ (by decide) (by decide) (by decide)⟩,
      ⟨⟨false, .spaces 1⟩, bare _ (by decide) (by decide) (by decide)⟩, List.forall_mem_nil _⟩
  obtain ⟨-, some_arguments, unique, -⟩ :=
    split_into_unique_decomposition "\tf(1, 2) , x\n  y\n".toList
  exact ⟨(some_arguments _ _).mpr ⟨_, rfl, decomposition⟩,
    fun first others other => unique first _ others _ other decomposition⟩

end GeneticProgram.Source
