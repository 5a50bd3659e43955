import GeneticProgram.Text.Blank
import GeneticProgram.Text.Quoted

/-!
# Argument lists

The text between the parentheses of a call is split into arguments at the spaces and commas that
are not inside further parentheses.  Arguments are separated by spaces or by one comma, with or
without spaces around it; a comma always stands between two arguments.
-/

namespace GeneticProgram.Source

/-- What can be wrong with an argument list. -/
inductive ArgumentFault
  | unopened
  | unclosed
  | emptyArgument
  | trailingComma
deriving DecidableEq

/-- A fault with the argument list that has it. -/
structure ArgumentError where
  /-- What is wrong. -/
  fault : ArgumentFault
  /-- The text of the argument list. -/
  text : List Char
deriving DecidableEq

/-- The wording of a fault. -/
def ArgumentError.message (error : ArgumentError) : String :=
  let quotation := String.ofList (Text.quote error.text)
  match error.fault with
  | .unopened => "Unbalanced ')' in arguments: " ++ quotation
  | .unclosed => "Unbalanced '(' in arguments: " ++ quotation
  | .emptyArgument => "Empty argument in " ++ quotation
  | .trailingComma => "Trailing comma in arguments: " ++ quotation

/-- How far an argument list has been split. -/
structure Splitter where
  /-- The finished arguments, the last one first. -/
  finished : List (List Char) := []
  /-- The argument being read, its last character first. -/
  current : List Char := []
  /-- The number of open parentheses. -/
  depth : Nat := 0
  /-- A comma was read after the last finished argument. -/
  afterComma : Bool := false

namespace Splitter

/-- Take a character into the current argument. -/
def extend (splitter : Splitter) (depth : Nat) (character : Char) : Splitter :=
  { splitter with current := character :: splitter.current, depth, afterComma := false }

/-- End the current argument at a separator. -/
def close (splitter : Splitter) (afterComma : Bool) : Splitter :=
  { splitter with
    finished := splitter.current.reverse :: splitter.finished, current := [], afterComma }

/-- Read a space or a comma that is not inside parentheses. -/
def separate (splitter : Splitter) (comma : Bool) : Except ArgumentFault Splitter :=
  if !splitter.current.isEmpty then .ok (splitter.close comma)
  else if !comma then .ok splitter
  else if splitter.finished.isEmpty || splitter.afterComma then .error .emptyArgument
  else .ok { splitter with afterComma := true }

/-- Read one character. -/
def read (splitter : Splitter) (character : Char) : Except ArgumentFault Splitter :=
  if character = '(' then .ok (splitter.extend (splitter.depth + 1) character)
  else if character = ')' then
    if splitter.depth = 0 then .error .unopened
    else .ok (splitter.extend (splitter.depth - 1) character)
  else if (character = ' ' || character = ',') && splitter.depth = 0 then
    splitter.separate (character = ',')
  else .ok (splitter.extend splitter.depth character)

/-- The arguments, once everything is read. -/
def finish (splitter : Splitter) : Except ArgumentFault (List (List Char)) :=
  if splitter.depth ≠ 0 then .error .unclosed
  else if !splitter.current.isEmpty then .ok (splitter.close false).finished.reverse
  else if splitter.afterComma then .error .trailingComma
  else .ok splitter.finished.reverse

/-- The number of characters in the finished arguments and in the current one. -/
def size (splitter : Splitter) : Nat :=
  splitter.finished.flatten.length + splitter.current.length

theorem size_close (splitter : Splitter) (afterComma : Bool) :
    (splitter.close afterComma).size = splitter.size := by
  simp [close, size, -List.length_flatten]
  omega

theorem size_separate {splitter next : Splitter} {comma : Bool}
    (separated : splitter.separate comma = .ok next) : next.size = splitter.size := by
  unfold separate at separated
  split at separated
  · cases separated
    exact splitter.size_close comma
  · split at separated
    · cases separated
      rfl
    · split at separated
      · cases separated
      · cases separated
        rfl

theorem size_read {splitter next : Splitter} {character : Char}
    (taken : splitter.read character = .ok next) : next.size ≤ splitter.size + 1 := by
  unfold read at taken
  split at taken
  · cases taken
    simp [extend, size]
    omega
  · split at taken
    · split at taken
      · cases taken
      · cases taken
        simp [extend, size]
        omega
    · split at taken
      · have := size_separate taken
        omega
      · cases taken
        simp [extend, size]
        omega

theorem size_foldlM_read {splitter next : Splitter} {text : List Char}
    (taken : text.foldlM read splitter = .ok next) : next.size ≤ splitter.size + text.length := by
  induction text generalizing splitter with
  | nil =>
    cases taken
    simp
  | cons character rest induction =>
    rw [List.foldlM_cons] at taken
    cases step : splitter.read character with
    | error fault =>
      rw [step] at taken
      cases taken
    | ok middle =>
      rw [step] at taken
      have first := size_read step
      have others := induction taken
      simp
      omega

theorem length_le_size_of_mem_finish {splitter : Splitter} {arguments : List (List Char)}
    (done : splitter.finish = .ok arguments) {argument : List Char}
    (listed : argument ∈ arguments) : argument.length ≤ splitter.size := by
  have bound : ∀ other : Splitter, argument ∈ other.finished.reverse →
      argument.length ≤ other.size := by
    intro other member
    have := (List.sublist_flatten_of_mem (List.mem_reverse.mp member)).length_le
    simp only [size]
    omega
  unfold finish at done
  split at done
  · cases done
  · split at done
    · cases done
      have := bound _ listed
      rwa [size_close] at this
    · split at done
      · cases done
      · cases done
        exact bound _ listed

end Splitter

/-- The arguments of an argument list. -/
def splitArguments (text : List Char) : Except ArgumentError (List (List Char)) :=
  match (Text.trim text).foldlM Splitter.read {} >>= Splitter.finish with
  | .ok arguments => .ok arguments
  | .error fault => .error ⟨fault, text⟩

theorem length_trim_le (text : List Char) : (Text.trim text).length ≤ text.length := by
  unfold Text.trim Text.trimWhere
  have dropped : ∀ characters : List Char,
      (characters.dropWhile Text.isBlank).length ≤ characters.length :=
    fun characters => (List.dropWhile_sublist _).length_le
  have outer := dropped (text.dropWhile Text.isBlank).reverse
  have inner := dropped text
  simp only [List.length_reverse] at *
  omega

/-- An argument is no longer than the list it stands in. -/
theorem length_le_of_mem_splitArguments {text argument : List Char} {arguments : List (List Char)}
    (split : splitArguments text = .ok arguments) (listed : argument ∈ arguments) :
    argument.length ≤ text.length := by
  unfold splitArguments at split
  cases taken : (Text.trim text).foldlM Splitter.read {} with
  | error fault => rw [taken] at split; cases split
  | ok splitter =>
    rw [taken] at split
    cases done : splitter.finish with
    | error fault =>
      simp only [bind, Except.bind, done] at split
      cases split
    | ok found =>
      simp only [bind, Except.bind, done] at split
      cases split
      have size := Splitter.size_foldlM_read taken
      have short := Splitter.length_le_size_of_mem_finish done listed
      have trimmed := length_trim_le text
      simp [Splitter.size] at size short
      omega

end GeneticProgram.Source
