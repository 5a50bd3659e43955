import GeneticProgram.Proofs.LiteralConversion
import GeneticProgram.Proofs.NumeralValue

/-!
# The grammar of numeric literals

A numeric literal is `NaN`, `Infinity` or a numeral with an optional type letter, with an optional
sign in front of it, between control characters and spaces.  A text is read as a literal exactly if
it has this form, and then no step of its conversion fails.  A type letter behind a numeral is never
one of its digits, because a numeral ends with a decimal digit or with its point.
-/

namespace GeneticProgram.Literal

/-- What may follow a numeral: one of the type letters, or nothing. -/
def typeSuffixes : List (List Char) := [[], ['f'], ['F'], ['d'], ['D']]

/-- A numeric literal without its sign. -/
inductive IsUnsigned : List Char → Prop
  | nan : IsUnsigned ['N', 'a', 'N']
  | infinity : IsUnsigned ['I', 'n', 'f', 'i', 'n', 'i', 't', 'y']
  | numeral {text suffix : List Char} (written : Numeral.IsNumeral text)
      (typed : suffix ∈ typeSuffixes) : IsUnsigned (text ++ suffix)

/-- The token is a sign and a text between control characters and spaces. -/
def Frames (token sign text : List Char) : Prop :=
  ∃ before after, token = before ++ (sign ++ text) ++ after ∧
    (∀ character ∈ before, Text.isControlOrSpace character = true) ∧
    ∀ character ∈ after, Text.isControlOrSpace character = true

/-- A numeric literal. -/
def IsNumericLiteral (token : List Char) : Prop :=
  ∃ sign ∈ Numeral.signs, ∃ text, IsUnsigned text ∧ Frames token sign text

section Suffix

variable {text suffix : List Char}

theorem mem_typeSuffixes_iff :
    suffix ∈ typeSuffixes ↔
      suffix = [] ∨ ∃ letter, isTypeLetter letter = true ∧ suffix = [letter] := by
  simp only [typeSuffixes, isTypeLetter, List.mem_cons, List.not_mem_nil, or_false,
    Bool.or_eq_true, beq_iff_eq]
  constructor
  · rintro (rfl | rfl | rfl | rfl | rfl) <;> simp
  · rintro (rfl | ⟨letter, ((rfl | rfl) | rfl) | rfl, rfl⟩) <;> simp

theorem dropTypeLetter_append_suffix (written : Numeral.IsNumeral text)
    (typed : suffix ∈ typeSuffixes) : dropTypeLetter (text ++ suffix) = text := by
  rcases mem_typeSuffixes_iff.mp typed with rfl | ⟨letter, is_letter, rfl⟩
  · obtain ⟨front, last, rfl, ends⟩ := written.exists_concat
    rw [List.append_nil, dropTypeLetter_concat front ends]
  · simp [dropTypeLetter, is_letter]

/-- What is removed as a type letter is what may follow a numeral. -/
theorem exists_eq_dropTypeLetter_append (text : List Char) :
    ∃ suffix ∈ typeSuffixes, text = dropTypeLetter text ++ suffix := by
  rcases List.eq_nil_or_concat' text with rfl | ⟨front, last, rfl⟩
  · exact ⟨[], mem_typeSuffixes_iff.mpr (.inl rfl), by simp [dropTypeLetter]⟩
  · cases letter : isTypeLetter last with
    | false => exact ⟨[], mem_typeSuffixes_iff.mpr (.inl rfl), by simp [dropTypeLetter, letter]⟩
    | true =>
        exact ⟨[last], mem_typeSuffixes_iff.mpr (.inr ⟨last, letter, rfl⟩),
          by simp [dropTypeLetter, letter]⟩

/-- A numeral is read in the same way whichever type letter follows it. -/
theorem unsigned?_append_suffix (written : Numeral.IsNumeral text)
    (typed : suffix ∈ typeSuffixes) : unsigned? (text ++ suffix) = Numeral.unsigned? text := by
  have dropped := dropTypeLetter_append_suffix written typed
  obtain ⟨first, rest, rfl, begins⟩ := written.exists_cons
  rw [List.cons_append] at dropped ⊢
  rw [unsigned?_cons begins, dropped]

end Suffix

section Ends

variable {text : List Char}

theorem isControlOrSpace_of_mem_alphabet :
    ∀ character ∈ Double.alphabet, Text.isControlOrSpace character = false :=
  Text.forall_mem_of_all (by decide)

theorem IsUnsigned.exists_cons (whole : IsUnsigned text) :
    ∃ first rest, text = first :: rest ∧ first ∈ Double.alphabet ∧ first ≠ '+' ∧ first ≠ '-' := by
  cases whole with
  | nan => exact ⟨_, _, rfl, by decide⟩
  | infinity => exact ⟨_, _, rfl, by decide⟩
  | numeral written typed =>
      obtain ⟨first, rest, rfl, begins⟩ := written.exists_cons
      have no_sign : ∀ character ∈ Double.alphabet, character.isDigit = true ∨ character = '.' →
          character ≠ '+' ∧ character ≠ '-' :=
        Text.forall_mem_of_all (by decide)
      have listed : first ∈ Double.alphabet := by
        rcases begins with digit | rfl
        · exact Double.mem_alphabet_of_isDigit digit
        · decide
      exact ⟨first, _, List.cons_append, listed, no_sign first listed begins⟩

theorem IsUnsigned.exists_concat (whole : IsUnsigned text) :
    ∃ front last, text = front ++ [last] ∧ Text.isControlOrSpace last = false := by
  cases whole with
  | nan => exact ⟨['N', 'a'], 'N', rfl, by decide⟩
  | infinity => exact ⟨['I', 'n', 'f', 'i', 'n', 'i', 't'], 'y', rfl, by decide⟩
  | @numeral text suffix written typed =>
      rcases mem_typeSuffixes_iff.mp typed with rfl | ⟨letter, is_letter, rfl⟩
      · obtain ⟨front, last, rfl, ends⟩ := written.exists_concat
        refine ⟨front, last, List.append_nil _, ?_⟩
        rcases ends with digit | rfl
        · exact isControlOrSpace_of_mem_alphabet last (Double.mem_alphabet_of_isDigit digit)
        · decide
      · refine ⟨text, letter, rfl, ?_⟩
        simp only [isTypeLetter, Bool.or_eq_true, beq_iff_eq] at is_letter
        rcases is_letter with ((rfl | rfl) | rfl) | rfl <;> decide

/-- Nothing of a literal with its sign is trimmed. -/
theorem IsUnsigned.trimmed {sign : List Char} (whole : IsUnsigned text)
    (listed : sign ∈ Numeral.signs) : Text.Trimmed Text.isControlOrSpace (sign ++ text) where
  first := by
    obtain ⟨first, rest, rfl, in_alphabet, -⟩ := whole.exists_cons
    intro character member
    rcases Numeral.eq_of_mem_signs listed with rfl | rfl | rfl <;>
      obtain rfl := Option.some.inj member
    · exact isControlOrSpace_of_mem_alphabet first in_alphabet
    · decide
    · decide
  last := by
    obtain ⟨front, last, rfl, stays⟩ := whole.exists_concat
    intro character member
    rw [← List.append_assoc, List.getLast?_concat] at member
    obtain rfl := Option.some.inj member
    exact stays

end Ends

section Reading

variable {token sign text : List Char}

/-- Sign and frame are taken off before a literal is read. -/
theorem double?_of_frames (listed : sign ∈ Numeral.signs) (whole : IsUnsigned text)
    (framed : Frames token sign text) :
    double? token = (unsigned? text).map (Numeral.toDouble (sign == ['-'])) := by
  obtain ⟨before, after, rfl, before_blank, after_blank⟩ := framed
  obtain ⟨first, rest, text_eq, -, not_plus, not_minus⟩ := whole.exists_cons
  have nonempty : sign ++ text ≠ [] := by simp [text_eq]
  have unsigned : Numeral.Unsigned text := by
    rw [text_eq]
    rintro character ⟨⟩
    exact ⟨not_plus, not_minus⟩
  rw [double?, Text.trimWhere_margins (whole.trimmed listed) nonempty before_blank after_blank,
    Numeral.splitSign_append listed unsigned]

theorem isUnsigned_of_unsigned? {numeral : Numeral} (read : unsigned? text = some numeral) :
    IsUnsigned text := by
  rw [unsigned?] at read
  split at read
  · rename_i word
    exact word ▸ .nan
  · split at read
    · rename_i word
      exact word ▸ .infinity
    · obtain ⟨suffix, typed, text_eq⟩ := exists_eq_dropTypeLetter_append text
      rw [text_eq]
      exact .numeral (Numeral.isNumeral_of_unsigned? read) typed

theorem IsUnsigned.exists_numeral (whole : IsUnsigned text) :
    ∃ numeral, unsigned? text = some numeral := by
  cases whole with
  | nan => exact ⟨.nan, rfl⟩
  | infinity => exact ⟨.infinity, rfl⟩
  | numeral written typed =>
      obtain ⟨number, denotes⟩ := Numeral.isNumeral_iff_denotes.mp written
      obtain ⟨numeral, read, -⟩ := Numeral.unsigned?_of_denotes denotes
      exact ⟨numeral, (unsigned?_append_suffix written typed).trans read⟩

/-- The texts that are read as numeric literals are those of the grammar. -/
theorem isNumeric_iff_isNumericLiteral : isNumeric token = true ↔ IsNumericLiteral token := by
  rw [isNumeric, Option.isSome_iff_exists]
  constructor
  · rintro ⟨double, value⟩
    obtain ⟨before, after, pieces, before_blank, after_blank⟩ :=
      Text.eq_margins_trimWhere Text.isControlOrSpace token
    let trimmed := Text.trimWhere Text.isControlOrSpace token
    obtain ⟨sign, listed, trimmed_eq, -⟩ := Numeral.exists_splitSign trimmed
    obtain ⟨numeral, read, -⟩ : ∃ numeral,
        unsigned? (Numeral.splitSign trimmed).2 = some numeral ∧
          numeral.toDouble (Numeral.splitSign trimmed).1 = double :=
      Option.map_eq_some_iff.mp value
    refine ⟨sign, listed, _, isUnsigned_of_unsigned? read, before, after, ?_, before_blank,
      after_blank⟩
    rw [← trimmed_eq]
    exact pieces
  · rintro ⟨sign, listed, text, whole, framed⟩
    obtain ⟨numeral, read⟩ := whole.exists_numeral
    refine ⟨numeral.toDouble (sign == ['-']), ?_⟩
    rw [double?_of_frames listed whole framed, read]
    rfl

end Reading

/-- A token is a numeric literal exactly if it has the form of one.  Its step-by-step conversion
never fails: it gives a double for every literal and nothing for every other token. -/
theorem literal_grammar_and_conversion (token : List Char) :
    (isNumeric token = true ↔ IsNumericLiteral token) ∧
      ((∃ double, convert token = .ok (some double)) ↔ isNumeric token = true) ∧
      (convert token = .ok none ↔ isNumeric token = false) ∧
      (∀ fault, convert token ≠ .error fault) ∧ convert token = .ok (double? token) := by
  have converted := convert_eq token
  refine ⟨isNumeric_iff_isNumericLiteral, ?_, ?_, ?_, converted⟩
  · rw [converted, isNumeric, Option.isSome_iff_exists]
    simp
  · rw [converted, isNumeric, Option.isSome_eq_false_iff]
    simp
  · intro fault failed
    rw [converted] at failed
    cases failed

end GeneticProgram.Literal
