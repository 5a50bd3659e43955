import GeneticProgram.Numeral.Literal
import GeneticProgram.Proofs.ArgumentGrammar
import GeneticProgram.Proofs.NumeralGrammar
import GeneticProgram.Proofs.Trimming
import Mathlib.Tactic.IntervalCases

/-!
# Written literals

Every double is written as a numeric literal that reads back as the same double, the sign of a zero
and what is not a number included.  All written numbers share a small alphabet, which has no white
space, no parenthesis and no separator, and which spells neither of the boolean literals.
-/

namespace GeneticProgram

namespace Double

/-- The characters of written numbers. -/
def alphabet : List Char := "0123456789+-.eNaInfity".toList

theorem mem_alphabet_of_isDigit {character : Char} (digit : character.isDigit = true) :
    character ∈ alphabet := by
  have bounds : 48 ≤ character.toNat ∧ character.toNat ≤ 57 := by
    simpa [Char.isDigit, UInt32.le_iff_toNat_le] using digit
  obtain ⟨lower, upper⟩ := bounds
  rw [← Char.ofNat_toNat character]
  interval_cases character.toNat <;> decide

end Double

namespace Numeral

theorem IsDigits.mem_alphabet {digits : List Char} (row : IsDigits digits) :
    ∀ character ∈ digits, character ∈ Double.alphabet :=
  fun character member => Double.mem_alphabet_of_isDigit (row character member)

/-- A written decimal uses the alphabet of numbers only. -/
theorem Written.mem_alphabet {text : List Char} {decimal : Decimal}
    (written : Written text decimal) : ∀ character ∈ text, character ∈ Double.alphabet := by
  have point : '.' ∈ Double.alphabet := by decide
  cases written with
  | positional whole_row begun fraction_row ended =>
      simp only [List.forall_mem_append, List.forall_mem_cons]
      exact ⟨whole_row.mem_alphabet, point, fraction_row.mem_alphabet⟩
  | @scientific whole fraction whole_row begun fraction_row exponent =>
      obtain ⟨digits, exponent_eq, row, -, -⟩ := exists_exponentText_eq exponent
      have sign : (if exponent < 0 then '-' else '+') ∈ Double.alphabet := by
        split <;> decide
      have middle : ∀ character ∈ (if fraction.isEmpty then [] else '.' :: fraction),
          character ∈ Double.alphabet := by
        split
        · simp
        · exact List.forall_mem_cons.mpr ⟨point, fraction_row.mem_alphabet⟩
      rw [exponent_eq]
      simp only [List.forall_mem_append, List.forall_mem_cons]
      exact ⟨⟨whole_row.mem_alphabet, middle⟩, by decide, sign, row.mem_alphabet⟩

end Numeral

namespace Magnitude

theorem eq_infinity_of_isInfinite {magnitude : Magnitude} (infinite : magnitude.isInfinite = true) :
    magnitude = .infinity := by
  obtain ⟨rank, bounded⟩ := magnitude
  obtain rfl : rank = Magnitude.infiniteRank := by simpa [Magnitude.isInfinite] using infinite
  rfl

theorem eq_zero_of_isZero {magnitude : Magnitude} (nothing : magnitude.isZero = true) :
    magnitude = .zero := by
  obtain ⟨rank, bounded⟩ := magnitude
  obtain rfl : rank = 0 := by simpa [Magnitude.isZero] using nothing
  rfl

end Magnitude

namespace Double

/-- A finite number is written as a decimal that reads as the number. -/
theorem written_magnitudeText (spelling : Spelling) {magnitude : Magnitude}
    (finite : magnitude.isInfinite = false) :
    ∃ written, Numeral.Written (magnitudeText spelling magnitude) written ∧
      written.nearest = magnitude := by
  have unfolded : magnitudeText spelling magnitude =
      if magnitude.isZero then ['0', '.', '0'] else decimalText magnitude.shortestDecimal := by
    simp [magnitudeText, finite]
  rw [unfolded]
  split
  · rename_i nothing
    refine ⟨_, Numeral.Written.positional (Numeral.isDigits_zeros 1) (by simp)
      (Numeral.isDigits_zeros 1) (by simp), ?_⟩
    rw [Magnitude.eq_zero_of_isZero nothing]
    rfl
  · rename_i something
    have positive : magnitude.shortestDecimal.digits ≠ 0 := by
      intro no_digits
      have zero : magnitude = .zero := by
        rw [← magnitude.nearest_shortestDecimal, Decimal.nearest, if_pos no_digits]
      exact something (by rw [zero]; rfl)
    obtain ⟨written, shape, value⟩ := Numeral.written_decimalText positive
    exact ⟨written, shape, value.trans magnitude.nearest_shortestDecimal⟩

/-- A magnitude is infinity and written as such, or it is written as a decimal. -/
theorem magnitudeText_cases (magnitude : Magnitude) :
    (magnitude = .infinity ∧ magnitudeText literalSpelling magnitude = "Infinity".toList) ∨
      ∃ written, Numeral.Written (magnitudeText literalSpelling magnitude) written ∧
        written.nearest = magnitude := by
  cases infinite : magnitude.isInfinite with
  | true =>
      rw [Magnitude.eq_infinity_of_isInfinite infinite]
      exact .inl ⟨rfl, rfl⟩
  | false => exact .inr (written_magnitudeText literalSpelling infinite)

theorem mem_alphabet_of_mem_text {double : Double} :
    ∀ character ∈ double.text literalSpelling, character ∈ alphabet := by
  cases double with
  | nan => exact Text.forall_mem_of_all (by decide)
  | signed negative magnitude =>
      have sign : ∀ character ∈ (if negative then ['-'] else []), character ∈ alphabet := by
        cases negative <;> exact Text.forall_mem_of_all (by decide)
      have body : ∀ character ∈ magnitudeText literalSpelling magnitude, character ∈ alphabet := by
        rcases magnitudeText_cases magnitude with ⟨-, text_eq⟩ | ⟨written, shape, -⟩
        · rw [text_eq]
          exact Text.forall_mem_of_all (by decide)
        · exact shape.mem_alphabet
      exact List.forall_mem_append.mpr ⟨sign, body⟩

theorem text_ne_nil (double : Double) : double.text literalSpelling ≠ [] := by
  cases double with
  | nan => decide
  | signed negative magnitude =>
      refine List.append_ne_nil_of_right_ne_nil _ ?_
      rcases magnitudeText_cases magnitude with ⟨-, text_eq⟩ | ⟨written, shape, -⟩
      · rw [text_eq]
        decide
      · obtain ⟨first, rest, text_eq, -⟩ := shape.exists_cons
        simp [text_eq]

/-- No character of a written number takes part in the structure of a program. -/
theorem alphabet_inert : ∀ character ∈ alphabet,
    Source.isPlain character = true ∧ Source.isSeparating character = false ∧
      Text.isBlank character = false ∧ Text.isControlOrSpace character = false :=
  Text.forall_mem_of_all (by decide)

end Double

namespace Literal

open Double (literalSpelling magnitudeText)

/-- Neither a digit nor a point is taken for a type letter. -/
theorem dropTypeLetter_concat (front : List Char) {last : Char}
    (ends : last.isDigit = true ∨ last = '.') :
    dropTypeLetter (front ++ [last]) = front ++ [last] := by
  have letters : ∀ letter, isTypeLetter letter = true →
      ¬(letter.isDigit = true ∨ letter = '.') := by
    intro letter marks
    simp only [isTypeLetter, Bool.or_eq_true, beq_iff_eq] at marks
    rcases marks with ((rfl | rfl) | rfl) | rfl <;> decide
  have not_letter : isTypeLetter last = false := by
    by_contra letter
    exact letters last (by simpa using letter) ends
  simp [dropTypeLetter, not_letter]

/-- What begins with a digit or a point is not one of the words. -/
theorem unsigned?_cons {first : Char} (begins : first.isDigit = true ∨ first = '.')
    (rest : List Char) :
    unsigned? (first :: rest) = Numeral.unsigned? (dropTypeLetter (first :: rest)) := by
  have no_word : ∀ (letter : Char) (word : List Char), ¬(letter.isDigit = true ∨ letter = '.') →
      first :: rest ≠ letter :: word := by
    intro letter word other equal
    obtain ⟨rfl, -⟩ := List.cons.inj equal
    exact other begins
  rw [unsigned?, if_neg (no_word 'N' _ (by decide)), if_neg (no_word 'I' _ (by decide))]

theorem unsigned?_of_written {text : List Char} {decimal : Decimal}
    (written : Numeral.Written text decimal) : unsigned? text = some (.decimal decimal) := by
  obtain ⟨first, rest, begins, first_digit⟩ := written.exists_cons
  obtain ⟨front, last, ends, last_digit⟩ := written.exists_concat
  have read := Numeral.decimal?_of_written written
  have kept : dropTypeLetter text = text := by
    rw [ends]
    exact dropTypeLetter_concat front (.inl last_digit)
  have opened : unsigned? text = Numeral.unsigned? (dropTypeLetter text) := by
    rw [begins]
    exact unsigned?_cons (.inl first_digit) rest
  rw [opened, kept, Numeral.unsigned?_of_isDecimal (Numeral.isDecimal_of_decimal? read), read]

/-- The text of a magnitude reads back with either sign. -/
theorem unsigned?_magnitudeText (magnitude : Magnitude) :
    ∃ numeral, unsigned? (magnitudeText literalSpelling magnitude) = some numeral ∧
      ∀ negative, numeral.toDouble negative = .signed negative magnitude := by
  rcases Double.magnitudeText_cases magnitude with ⟨rfl, text_eq⟩ | ⟨written, shape, value⟩
  · rw [text_eq]
    exact ⟨.infinity, by decide, fun negative => rfl⟩
  · refine ⟨.decimal written, unsigned?_of_written shape, fun negative => ?_⟩
    rw [Numeral.toDouble, value]

theorem unsigned_magnitudeText (magnitude : Magnitude) :
    Numeral.Unsigned (magnitudeText literalSpelling magnitude) := by
  intro character member
  rcases Double.magnitudeText_cases magnitude with ⟨-, text_eq⟩ | ⟨written, shape, -⟩
  · rw [text_eq] at member
    obtain rfl := Option.some.inj member
    decide
  · obtain ⟨first, rest, begins, digit⟩ := shape.exists_cons
    rw [begins] at member
    obtain rfl := Option.some.inj member
    constructor <;>
      · rintro rfl
        cases digit

theorem splitSign_text (negative : Bool) (magnitude : Magnitude) :
    Numeral.splitSign ((Double.signed negative magnitude).text literalSpelling) =
      (negative, magnitudeText literalSpelling magnitude) := by
  have sign : (if negative then ['-'] else []) ∈ Numeral.signs := by
    cases negative <;> decide
  rw [Double.text, Numeral.splitSign_append sign (unsigned_magnitudeText magnitude)]
  cases negative <;> rfl

/-- A written number reads back as the number. -/
theorem double?_text (double : Double) : double? (double.text literalSpelling) = some double := by
  have whole : Text.trimWhere Text.isControlOrSpace (double.text literalSpelling) =
      double.text literalSpelling := by
    have stays : ∀ character ∈ double.text literalSpelling,
        Text.isControlOrSpace character = false := fun character member =>
      (Double.alphabet_inert character (Double.mem_alphabet_of_mem_text character member)).2.2.2
    exact Text.trimWhere_eq_self_of_forall stays
  rw [double?]
  rw [whole]
  cases double with
  | nan => decide
  | signed negative magnitude =>
      obtain ⟨numeral, read, value⟩ := unsigned?_magnitudeText magnitude
      rw [splitSign_text]
      simp only [read, Option.map_some, value]

/-- Both boolean literals have a letter that no number has. -/
theorem boolean?_eq_none {text : List Char}
    (missing : ∀ character ∈ text, character.toLower ≠ 'r' ∧ character.toLower ≠ 'l') :
    boolean? text = none := by
  have no_word : ∀ character ∈ text.map Char.toLower, character ≠ 'r' ∧ character ≠ 'l' := by
    intro character member
    obtain ⟨original, listed, rfl⟩ := List.mem_map.mp member
    exact missing original listed
  rw [boolean?]
  rw [if_neg, if_neg]
  · intro word
    rw [word] at no_word
    exact (no_word 'l' (by decide)).2 rfl
  · intro word
    rw [word] at no_word
    exact (no_word 'r' (by decide)).1 rfl

/-- A written number is not a boolean literal. -/
theorem boolean?_text (double : Double) : boolean? (double.text literalSpelling) = none := by
  have missing : ∀ character ∈ Double.alphabet,
      character.toLower ≠ 'r' ∧ character.toLower ≠ 'l' :=
    Text.forall_mem_of_all (by decide)
  exact boolean?_eq_none fun character member =>
    missing character (Double.mem_alphabet_of_mem_text character member)

end Literal

end GeneticProgram
