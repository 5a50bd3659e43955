import GeneticProgram.Proofs.Balance
import GeneticProgram.Proofs.Outcome
import GeneticProgram.Source.Arguments

/-!
# The grammar of argument lists

An argument is a nonempty balanced text without a space or a comma outside of its parentheses.  A
separator is a run of spaces, or one comma between two runs of spaces that may be empty.  An
argument list is empty, or it is arguments with one separator between any two neighbours.

The splitter reads a trimmed text exactly as this grammar does.  Read forwards, a text of the
grammar takes the splitter from one finished argument to the next.  Conversely every state that the
splitter reaches describes a decomposition of the text read so far, up to the separator or the
argument in which it stands.
-/

namespace GeneticProgram.Source

/-- A character that separates arguments. -/
def isSeparating (character : Char) : Bool := character == ' ' || character == ','

/-- No separating character stands outside of all parentheses, of which a number are open before
the text. -/
def Solid (depth : Nat) (text : List Char) : Prop :=
  ∀ before character after, text = before ++ character :: after →
    depthAfter depth before = some 0 → isSeparating character = false

/-- A text that is one argument. -/
structure IsArgument (text : List Char) : Prop where
  /-- An argument has at least one character. -/
  nonempty : text ≠ []
  /-- Its parentheses match. -/
  balanced : Balanced text
  /-- No separating character stands outside of its parentheses. -/
  solid : Solid 0 text

/-- What may stand between two arguments; the flag tells the separators with a comma. -/
inductive Separator : Bool → List Char → Prop
  | spaces (count : Nat) : Separator false (List.replicate (count + 1) ' ')
  | comma (before after : Nat) :
      Separator true (List.replicate before ' ' ++ ',' :: List.replicate after ' ')

/-- Arguments with a separator between any two neighbours. -/
inductive Separated : List Char → List (List Char) → Prop
  | last {argument : List Char} (whole : IsArgument argument) : Separated argument [argument]
  | cons {argument gap rest : List Char} {comma : Bool} {arguments : List (List Char)}
      (whole : IsArgument argument) (between : Separator comma gap)
      (others : Separated rest arguments) :
      Separated (argument ++ gap ++ rest) (argument :: arguments)

/-- A text as a list of arguments: nothing at all, or separated arguments. -/
def ArgumentList (text : List Char) (arguments : List (List Char)) : Prop :=
  (text = [] ∧ arguments = []) ∨ Separated text arguments

section Solid

theorem solid_nil (depth : Nat) : Solid depth [] := by
  intro before character after equal
  simp at equal

theorem solid_of_forall {text : List Char}
    (none_separates : ∀ character ∈ text, isSeparating character = false) (depth : Nat) :
    Solid depth text := by
  rintro before character after rfl _
  exact none_separates character (by simp)

/-- A text is solid as far as its pieces are, each at the depth where it begins. -/
theorem solid_append_iff {depth middle : Nat} {left right : List Char}
    (counted : depthAfter depth left = some middle) :
    Solid depth (left ++ right) ↔ Solid depth left ∧ Solid middle right := by
  constructor
  · intro solid
    constructor
    · rintro before character after rfl outside
      exact solid before character (after ++ right) (by simp) outside
    · rintro before character after rfl outside
      refine solid (left ++ before) character after (by simp) ?_
      rw [depthAfter_append, counted]
      exact outside
  · rintro ⟨left_solid, right_solid⟩ before character after equal outside
    rcases List.append_eq_append_iff.mp equal with
      ⟨inner, before_eq, right_eq⟩ | ⟨inner, left_eq, after_eq⟩
    · rw [before_eq, depthAfter_append, counted] at outside
      exact right_solid inner character after right_eq outside
    · cases inner with
      | nil =>
          rw [List.append_nil] at left_eq
          rw [← left_eq, counted] at outside
          rw [List.nil_append] at after_eq
          exact right_solid [] character after after_eq.symm outside
      | cons other inner =>
          obtain ⟨rfl, -⟩ := List.cons.inj after_eq
          exact left_solid before character inner left_eq outside

theorem solid_singleton_iff {depth : Nat} {character : Char} :
    Solid depth [character] ↔ (depth = 0 → isSeparating character = false) := by
  constructor
  · rintro solid rfl
    exact solid [] character [] rfl rfl
  · intro free before other after equal outside
    obtain ⟨rfl, rest_eq⟩ | ⟨-, impossible⟩ := List.singleton_eq_append_iff.mp equal
    · obtain ⟨rfl, -⟩ := List.cons.inj rest_eq
      exact free (Option.some.inj outside)
    · cases impossible

/-- Inside of further parentheses a balanced text cannot be left. -/
theorem solid_inside {text : List Char} (balanced : Balanced text) (depth : Nat) :
    Solid (depth + 1) text := by
  rintro before character after rfl outside
  obtain ⟨middle, counted, -⟩ := depthAfter_append_eq_some balanced
  have deeper := depthAfter_add (depth + 1) counted
  rw [Nat.zero_add, outside] at deeper
  cases Option.some.inj deeper

/-- A name with a balanced text between parentheses is one argument. -/
theorem isArgument_call {name inner : List Char}
    (plain : ∀ character ∈ name, isPlain character = true)
    (free : ∀ character ∈ name, isSeparating character = false) (balanced : Balanced inner) :
    IsArgument (name ++ '(' :: (inner ++ [')'])) where
  nonempty := by simp
  balanced := (balanced_plain plain).append balanced.enclose
  solid := by
    refine (solid_append_iff (depthAfter_plain plain 0)).mpr ⟨solid_of_forall free 0, ?_⟩
    refine (@solid_append_iff 0 1 ['('] _ rfl).mpr ⟨solid_singleton_iff.mpr (by decide), ?_⟩
    refine (solid_append_iff (balanced.depthAfter 1)).mpr ⟨solid_inside balanced 0, ?_⟩
    exact solid_singleton_iff.mpr (by decide)

/-- In front of the first opening parenthesis an argument has a bare name. -/
theorem IsArgument.name {name after : List Char} (whole : IsArgument (name ++ '(' :: after))
    (unopened : '(' ∉ name) :
    (∀ character ∈ name, isPlain character = true) ∧
      ∀ character ∈ name, isSeparating character = false := by
  obtain ⟨middle, counted, -⟩ := depthAfter_append_eq_some whole.balanced
  have plain := isPlain_of_depthAfter unopened counted
  refine ⟨plain, fun character member => ?_⟩
  obtain ⟨before, behind, rfl⟩ := List.append_of_mem member
  refine whole.solid before character (behind ++ '(' :: after) (by simp) (depthAfter_plain ?_ 0)
  exact fun other listed => plain other (List.mem_append_left _ listed)

end Solid

namespace Splitter

section Forwards

/-- The splitter with a text taken into its current argument. -/
def take (splitter : Splitter) (text : List Char) (depth : Nat) : Splitter :=
  { splitter with
    current := text.reverse ++ splitter.current, depth
    afterComma := splitter.afterComma && text.isEmpty }

theorem read_extend {splitter : Splitter} {character : Char} {depth : Nat}
    (step : nest splitter.depth character = some depth)
    (free : splitter.depth = 0 → isSeparating character = false) :
    splitter.read character = .ok (splitter.extend depth character) := by
  rcases nest_cases step with ⟨rfl, rfl⟩ | ⟨rfl, open_eq⟩ | ⟨plain, rfl⟩
  · simp [read]
  · simp [read, open_eq]
  · obtain ⟨not_opening, not_closing⟩ : character ≠ '(' ∧ character ≠ ')' := by
      simpa [isPlain] using plain
    have inside : ¬((character = ' ' || character = ',') && splitter.depth = 0) = true := by
      intro separating
      obtain ⟨separates, outside⟩ := Bool.and_eq_true_iff.mp separating
      have contradiction := free (of_decide_eq_true outside)
      simp only [isSeparating, Bool.or_eq_false_iff, beq_eq_false_iff_ne] at contradiction
      simp [contradiction] at separates
    rw [read, if_neg not_opening, if_neg not_closing, if_neg inside]

theorem foldlM_read_take (splitter : Splitter) {text : List Char} {depth : Nat}
    (counted : depthAfter splitter.depth text = some depth) (solid : Solid splitter.depth text) :
    text.foldlM read splitter = .ok (splitter.take text depth) := by
  induction text generalizing splitter with
  | nil =>
      obtain rfl := Option.some.inj counted
      simp [take, pure, Except.pure]
  | cons character rest induction =>
      rw [depthAfter_cons] at counted
      obtain ⟨middle, step, counted_rest⟩ := Option.bind_eq_some_iff.mp counted
      have counted_first : depthAfter splitter.depth [character] = some middle := by
        rw [depthAfter_cons, step]
        rfl
      obtain ⟨first_solid, rest_solid⟩ := (solid_append_iff counted_first).mp solid
      rw [List.foldlM_cons, read_extend step (solid_singleton_iff.mp first_solid), Outcome.ok_bind,
        induction (splitter.extend middle character) counted_rest rest_solid]
      simp [take, extend]

theorem foldlM_read_spaces {splitter : Splitter} (current : splitter.current = [])
    (depth : splitter.depth = 0) (count : Nat) :
    (List.replicate count ' ').foldlM read splitter = .ok splitter := by
  induction count with
  | zero => rfl
  | succ count induction =>
      have ignored : splitter.read ' ' = .ok splitter := by
        simp [read, separate, current, depth]
      rw [List.replicate_succ, List.foldlM_cons, ignored]
      exact induction

/-- A separator finishes the argument in front of it. -/
theorem foldlM_read_separator {splitter : Splitter} {gap : List Char} {comma : Bool}
    (between : Separator comma gap) (current : splitter.current ≠ [])
    (depth : splitter.depth = 0) :
    gap.foldlM read splitter = .ok (splitter.close comma) := by
  have closed : ∀ flag, (splitter.close flag).current = [] ∧ (splitter.close flag).depth = 0 :=
    fun flag => ⟨rfl, depth⟩
  have read_space : splitter.read ' ' = .ok (splitter.close false) := by
    simp [read, separate, current, depth]
  cases between with
  | spaces count =>
      rw [List.replicate_succ, List.foldlM_cons, read_space]
      exact foldlM_read_spaces (closed false).1 (closed false).2 count
  | comma before after =>
      have read_rest := foldlM_read_spaces (closed true).1 (closed true).2 after
      cases before with
      | zero =>
          have read_comma : splitter.read ',' = .ok (splitter.close true) := by
            simp [read, separate, current, depth]
          rw [List.replicate_zero, List.nil_append, List.foldlM_cons, read_comma]
          exact read_rest
      | succ before =>
          have read_comma : (splitter.close false).read ',' = .ok (splitter.close true) := by
            simp [read, separate, close, depth]
          rw [List.replicate_succ, List.cons_append, List.foldlM_cons, read_space, Outcome.ok_bind,
            List.foldlM_append, foldlM_read_spaces (closed false).1 (closed false).2,
            Outcome.ok_bind, List.foldlM_cons, read_comma]
          exact read_rest

theorem finish_take {finished : List (List Char)} {afterComma : Bool} {argument : List Char}
    (nonempty : argument ≠ []) :
    (take { finished, afterComma } argument 0).finish = .ok (finished.reverse ++ [argument]) := by
  simp [take, finish, close, nonempty]

/-- Separated arguments are read one after another. -/
theorem foldlM_read_separated {text : List Char} {arguments : List (List Char)}
    (separated : Separated text arguments) (finished : List (List Char)) (afterComma : Bool) :
    (text.foldlM read { finished, afterComma } >>= finish) =
      .ok (finished.reverse ++ arguments) := by
  induction separated generalizing finished afterComma with
  | last whole =>
      rw [foldlM_read_take { finished, afterComma } whole.balanced whole.solid]
      exact finish_take whole.nonempty
  | @cons argument gap rest comma arguments whole between _ induction =>
      have others := induction (argument :: finished) comma
      rw [List.foldlM_append, List.foldlM_append,
        foldlM_read_take { finished, afterComma } whole.balanced whole.solid,
        Outcome.ok_bind, foldlM_read_separator between (by simpa [take] using whole.nonempty) rfl,
        Outcome.ok_bind]
      simpa [take, close] using others

end Forwards

section Backwards

/-- A text of finished arguments, each with a separator behind it; the flag tells whether the last
separator has a comma so far. -/
inductive Started : List Char → List (List Char) → Bool → Prop
  | spaces (count : Nat) : Started (List.replicate count ' ') [] false
  | next {front argument gap : List Char} {finished : List (List Char)} {earlier comma : Bool}
      (before : Started front finished earlier) (whole : IsArgument argument)
      (between : Separator comma gap) :
      Started (front ++ argument ++ gap) (finished ++ [argument]) comma

/-- The state of the splitter after a text: finished arguments, and behind them the beginning of
one more. -/
structure Follows (splitter : Splitter) (text : List Char) : Prop where
  /-- The current argument ends the text, and the finished ones stand before it. -/
  pieces : ∃ front comma, text = front ++ splitter.current.reverse ∧
    Started front splitter.finished.reverse comma ∧
    splitter.afterComma = (comma && splitter.current.isEmpty)
  /-- The depth is the depth of the current argument. -/
  counted : depthAfter 0 splitter.current.reverse = some splitter.depth
  /-- The current argument has not been left. -/
  solid : Solid 0 splitter.current.reverse

theorem follows_nil : Follows {} [] where
  pieces := ⟨[], false, rfl, .spaces 0, rfl⟩
  counted := rfl
  solid := solid_nil 0

theorem Started.space {front : List Char} {finished : List (List Char)} {comma : Bool}
    (started : Started front finished comma) : Started (front ++ [' ']) finished comma := by
  cases started with
  | spaces count =>
      rw [← List.replicate_succ']
      exact .spaces (count + 1)
  | @next front argument gap finished _ _ before whole between =>
      have longer : Separator comma (gap ++ [' ']) := by
        cases between with
        | spaces count =>
            rw [← List.replicate_succ']
            exact .spaces (count + 1)
        | comma before after =>
            rw [List.append_assoc, List.cons_append, ← List.replicate_succ']
            exact .comma before (after + 1)
      have extended := Started.next before whole longer
      simpa only [List.append_assoc] using extended

theorem Started.comma {front : List Char} {finished : List (List Char)}
    (started : Started front finished false) (some_finished : finished ≠ []) :
    Started (front ++ [',']) finished true := by
  cases started with
  | spaces count => exact absurd rfl some_finished
  | @next front argument gap finished _ _ before whole between =>
      cases between with
      | spaces count =>
          have extended := Started.next before whole (.comma (count + 1) 0)
          simpa only [List.append_assoc, List.replicate_zero] using extended

theorem Follows.extend {splitter : Splitter} {text : List Char} {character : Char} {depth : Nat}
    (follows : Follows splitter text) (step : nest splitter.depth character = some depth)
    (free : splitter.depth = 0 → isSeparating character = false) :
    Follows (splitter.extend depth character) (text ++ [character]) where
  pieces := by
    obtain ⟨front, comma, text_eq, started, -⟩ := follows.pieces
    exact ⟨front, comma, by simp [Splitter.extend, text_eq], started, by simp [Splitter.extend]⟩
  counted := by
    simp only [Splitter.extend, List.reverse_cons]
    rw [depthAfter_append, follows.counted, Option.bind_some, depthAfter_cons, step]
    rfl
  solid := by
    simp only [Splitter.extend, List.reverse_cons]
    rw [solid_append_iff follows.counted]
    exact ⟨follows.solid, solid_singleton_iff.mpr free⟩

theorem Follows.isArgument {splitter : Splitter} {text : List Char}
    (follows : Follows splitter text) (current : splitter.current ≠ [])
    (depth : splitter.depth = 0) : IsArgument splitter.current.reverse where
  nonempty := by simpa using current
  balanced := by rw [Balanced, follows.counted, depth]
  solid := follows.solid

theorem separator_singleton {character : Char} (separates : isSeparating character = true) :
    Separator (decide (character = ',')) [character] := by
  rcases Bool.or_eq_true_iff.mp separates with space | comma
  · obtain rfl := eq_of_beq space
    exact .spaces 0
  · obtain rfl := eq_of_beq comma
    exact .comma 0 0

/-- A separating character ends the current argument or lengthens the separator. -/
theorem Follows.separate {splitter next : Splitter} {text : List Char} {character : Char}
    (follows : Follows splitter text) (separates : isSeparating character = true)
    (depth : splitter.depth = 0) (read : splitter.separate (character = ',') = .ok next) :
    Follows next (text ++ [character]) := by
  obtain ⟨front, comma, text_eq, started, afterComma⟩ := follows.pieces
  have fresh : ∀ (other : Splitter), other.current = [] → other.depth = 0 →
      depthAfter 0 other.current.reverse = some other.depth ∧ Solid 0 other.current.reverse := by
    intro other current_eq depth_eq
    rw [current_eq, depth_eq]
    exact ⟨rfl, solid_nil 0⟩
  rw [Splitter.separate] at read
  split at read
  · rename_i current
    obtain rfl := Except.ok.inj read
    have whole := follows.isArgument (by simpa using current) depth
    have longer := started.next whole (separator_singleton separates)
    obtain ⟨counted, solid⟩ := fresh (splitter.close (character = ',')) rfl depth
    refine ⟨⟨_, _, ?_, by simpa [Splitter.close] using longer, ?_⟩, counted, solid⟩
    · simp [Splitter.close, text_eq]
    · simp [Splitter.close]
  · rename_i current
    have current_eq : splitter.current = [] := by simpa using current
    rw [current_eq, List.reverse_nil, List.append_nil] at text_eq
    subst text_eq
    split at read
    · rename_i not_comma
      obtain rfl := Except.ok.inj read
      obtain rfl : character = ' ' := by
        have no_comma : character ≠ ',' := by simpa using not_comma
        simpa [isSeparating, no_comma] using separates
      obtain ⟨counted, solid⟩ := fresh splitter current_eq depth
      refine ⟨⟨text ++ [' '], comma, ?_, started.space, afterComma⟩, counted, solid⟩
      simp [current_eq]
    · rename_i is_comma
      obtain rfl : character = ',' := by simpa using is_comma
      split at read
      · cases read
      · rename_i allowed
        obtain rfl := Except.ok.inj read
        obtain ⟨some_finished, no_comma⟩ :
            splitter.finished ≠ [] ∧ splitter.afterComma = false := by
          simpa using allowed
        obtain rfl : comma = false := by simpa [no_comma, current_eq] using afterComma.symm
        have with_comma := started.comma (by simpa using some_finished)
        refine ⟨⟨text ++ [','], true, ?_, with_comma, ?_⟩, follows.counted, follows.solid⟩
        · simp [current_eq]
        · simp [current_eq]

/-- Reading one character leads from the state after a text to the state after the longer one. -/
theorem Follows.read {splitter next : Splitter} {text : List Char} {character : Char}
    (follows : Follows splitter text) (read : splitter.read character = .ok next) :
    Follows next (text ++ [character]) := by
  by_cases separating : isSeparating character = true ∧ splitter.depth = 0
  · obtain ⟨separates, depth⟩ := separating
    refine follows.separate separates depth ?_
    have cases_character : character = ' ' ∨ character = ',' := by
      simpa [isSeparating] using separates
    rcases cases_character with rfl | rfl
    · simpa [Splitter.read, depth] using read
    · simpa [Splitter.read, depth] using read
  · have free : splitter.depth = 0 → isSeparating character = false := by
      intro depth
      simpa [depth] using separating
    cases step : nest splitter.depth character with
    | none =>
        obtain ⟨rfl, depth⟩ := nest_eq_none step
        simp [Splitter.read, depth] at read
    | some depth =>
        rw [read_extend step free] at read
        obtain rfl := Except.ok.inj read
        exact follows.extend step free

theorem Follows.foldlM_read {splitter next : Splitter} {text rest : List Char}
    (follows : Follows splitter text) (read : rest.foldlM Splitter.read splitter = .ok next) :
    Follows next (text ++ rest) := by
  induction rest generalizing splitter text with
  | nil =>
      obtain rfl := Except.ok.inj read
      simpa using follows
  | cons character rest induction =>
      rw [List.foldlM_cons] at read
      obtain ⟨middle, step, others⟩ := Outcome.bind_eq_ok_iff.mp read
      simpa using induction (follows.read step) others

theorem append_separated {left gap right : List Char} {comma : Bool}
    {firsts others : List (List Char)} (separated : Separated left firsts)
    (between : Separator comma gap) (behind : Separated right others) :
    Separated (left ++ gap ++ right) (firsts ++ others) := by
  induction separated with
  | last whole => exact .cons whole between behind
  | cons whole inner _ induction =>
      have joined := Separated.cons whole inner induction
      simpa only [List.append_assoc, List.cons_append] using joined

/-- Started arguments and one more are separated arguments, if the text does not begin with a
space. -/
theorem Started.separated {front argument : List Char} {finished : List (List Char)}
    {comma : Bool} (started : Started front finished comma) (whole : IsArgument argument)
    (first : ∀ character ∈ (front ++ argument).head?, character ≠ ' ') :
    Separated (front ++ argument) (finished ++ [argument]) := by
  induction started generalizing argument with
  | spaces count =>
      cases count with
      | zero => exact .last whole
      | succ count => exact absurd rfl (first ' ' (by simp [List.replicate_succ]))
  | @next front earlier gap finished _ comma _ earlier_whole between induction =>
      have earlier_first : ∀ character ∈ (front ++ earlier).head?, character ≠ ' ' := by
        intro character member
        refine first character ?_
        rw [List.append_assoc, List.head?_append, Option.mem_def.mp member]
        rfl
      have joined := append_separated (induction earlier_whole earlier_first) between (.last whole)
      simpa only [List.append_assoc] using joined

theorem isBlank_space : Text.isBlank ' ' = true := by decide

theorem ne_space_of_not_blank {character : Char} (stays : Text.isBlank character = false) :
    character ≠ ' ' := by
  rintro rfl
  rw [isBlank_space] at stays
  cases stays

/-- A trimmed text on which the splitter finishes is an argument list. -/
theorem Follows.finish {splitter : Splitter} {text : List Char} {arguments : List (List Char)}
    (follows : Follows splitter text) (trimmed : Text.Trimmed Text.isBlank text)
    (done : splitter.finish = .ok arguments) : ArgumentList text arguments := by
  obtain ⟨front, comma, text_eq, started, afterComma⟩ := follows.pieces
  rw [Splitter.finish] at done
  split at done
  · cases done
  · rename_i depth
    split at done
    · rename_i current
      obtain rfl := Except.ok.inj done
      have whole := follows.isArgument (by simpa using current) (by simpa using depth)
      have separated := started.separated whole fun character member =>
        ne_space_of_not_blank (trimmed.first character (text_eq ▸ member))
      rw [← text_eq] at separated
      exact .inr (by simpa [Splitter.close] using separated)
    · rename_i current
      have current_eq : splitter.current = [] := by simpa using current
      rw [current_eq, List.reverse_nil, List.append_nil] at text_eq
      subst text_eq
      split at done
      · cases done
      · rename_i no_comma
        obtain rfl := Except.ok.inj done
        obtain rfl : comma = false := by simpa [no_comma, current_eq] using afterComma.symm
        -- A text that ends with a space, or that is all spaces, is not trimmed.
        generalize splitter.finished.reverse = finished at started
        cases started with
        | spaces count =>
            cases count with
            | zero => exact .inl ⟨rfl, rfl⟩
            | succ count =>
                exact absurd rfl
                  (ne_space_of_not_blank (trimmed.first ' ' (by simp [List.replicate_succ])))
        | next before whole between =>
            cases between with
            | spaces count =>
                exact absurd rfl
                  (ne_space_of_not_blank (trimmed.last ' ' (by simp [List.replicate_succ'])))

end Backwards

end Splitter

/-- Splitting succeeds exactly on the argument lists, with their arguments. -/
theorem splitArguments_eq_ok_iff {text : List Char} {arguments : List (List Char)} :
    splitArguments text = .ok arguments ↔ ArgumentList (Text.trim text) arguments := by
  have outcome : splitArguments text = .ok arguments ↔
      ((Text.trim text).foldlM Splitter.read {} >>= Splitter.finish) = .ok arguments := by
    rw [splitArguments]
    split
    · rename_i found equal
      rw [equal]
      simp
    · rename_i fault equal
      rw [equal]
      simp
  rw [outcome]
  constructor
  · intro read
    obtain ⟨splitter, read_all, done⟩ := Outcome.bind_eq_ok_iff.mp read
    have follows := Splitter.follows_nil.foldlM_read read_all
    exact follows.finish (Text.trimmed_trimWhere Text.isBlank text) done
  · rintro (⟨empty, rfl⟩ | separated)
    · rw [empty]
      rfl
    · exact Splitter.foldlM_read_separated separated [] false

section Grammar

theorem Separator.plain {comma : Bool} {gap : List Char} (between : Separator comma gap) :
    ∀ character ∈ gap, isPlain character = true := by
  intro character member
  cases between with
  | spaces count =>
      obtain rfl := List.eq_of_mem_replicate member
      rfl
  | comma before after =>
      rcases List.mem_append.mp member with inFront | inBack
      · obtain rfl := List.eq_of_mem_replicate inFront
        rfl
      · rcases List.mem_cons.mp inBack with rfl | inRest
        · rfl
        · obtain rfl := List.eq_of_mem_replicate inRest
          rfl

theorem Separated.balanced {text : List Char} {arguments : List (List Char)}
    (separated : Separated text arguments) : Balanced text := by
  induction separated with
  | last whole => exact whole.balanced
  | cons whole between _ induction =>
      exact (whole.balanced.append (balanced_plain between.plain)).append induction

theorem ArgumentList.balanced {text : List Char} {arguments : List (List Char)}
    (list : ArgumentList text arguments) : Balanced text := by
  rcases list with ⟨rfl, -⟩ | separated
  · rfl
  · exact separated.balanced

theorem Separated.isArgument {text : List Char} {arguments : List (List Char)}
    (separated : Separated text arguments) : ∀ argument ∈ arguments, IsArgument argument := by
  induction separated with
  | last whole => simpa using whole
  | cons whole _ _ induction => simpa using ⟨whole, induction⟩

theorem ArgumentList.isArgument {text : List Char} {arguments : List (List Char)}
    (list : ArgumentList text arguments) : ∀ argument ∈ arguments, IsArgument argument := by
  rcases list with ⟨-, rfl⟩ | separated
  · simp
  · exact separated.isArgument

theorem Separated.ne_nil {text : List Char} {arguments : List (List Char)}
    (separated : Separated text arguments) : arguments ≠ [] := by
  cases separated <;> simp

theorem Separated.head?_eq {text first : List Char} {rest : List (List Char)}
    (separated : Separated text (first :: rest)) : text.head? = first.head? := by
  cases separated with
  | last whole => rfl
  | cons whole between others =>
      obtain ⟨character, tail, rfl⟩ := List.exists_cons_of_ne_nil whole.nonempty
      rfl

theorem Separated.getLast?_eq {text last : List Char} {arguments : List (List Char)}
    (separated : Separated text arguments) (final : last ∈ arguments.getLast?) :
    text.getLast? = last.getLast? := by
  induction separated with
  | last whole =>
      obtain rfl := Option.some.inj final
      rfl
  | @cons argument gap rest comma arguments whole between others induction =>
      have later : last ∈ arguments.getLast? := by
        cases others <;> simpa using final
      obtain ⟨character, ended⟩ : ∃ character, last.getLast? = some character := by
        have nonempty := (others.isArgument last (List.mem_of_getLast? later)).nonempty
        exact ⟨_, List.getLast?_eq_some_getLast nonempty⟩
      rw [List.getLast?_append, induction later, ended]
      rfl

/-- A text that is split into arguments is balanced. -/
theorem balanced_of_splitArguments {text : List Char} {arguments : List (List Char)}
    (splitting : splitArguments text = .ok arguments) : Balanced text :=
  balanced_trim_iff.mp (splitArguments_eq_ok_iff.mp splitting).balanced

end Grammar

end GeneticProgram.Source
