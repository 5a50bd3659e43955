import GeneticProgram.Numeral.Basic
import GeneticProgram.Proofs.WrittenDecimal

/-!
# The grammar of numerals

A coefficient is a row of digits, or two rows around a point of which at most one is empty.  An
exponent is a row of decimal digits with an optional sign.  A decimal numeral is a coefficient with
an optional exponent, and what follows the mark of a hexadecimal numeral is a coefficient with an
exponent.  Whatever is read as a numeral has this form.
-/

namespace GeneticProgram.Numeral

section Sign

/-- What may stand in front of a number. -/
def signs : List (List Char) := [[], ['+'], ['-']]

/-- A text that does not begin with a sign. -/
def Unsigned (text : List Char) : Prop :=
  ∀ character ∈ text.head?, character ≠ '+' ∧ character ≠ '-'

theorem eq_of_mem_signs {sign : List Char} (listed : sign ∈ signs) :
    sign = [] ∨ sign = ['+'] ∨ sign = ['-'] := by
  simpa [signs] using listed

theorem exists_splitSign (text : List Char) :
    ∃ sign ∈ signs, text = sign ++ (splitSign text).2 ∧ (splitSign text).1 = (sign == ['-']) := by
  unfold splitSign
  split
  · exact ⟨['+'], by decide, rfl, rfl⟩
  · exact ⟨['-'], by decide, rfl, rfl⟩
  · exact ⟨[], by decide, rfl, rfl⟩

theorem splitSign_append {sign body : List Char} (listed : sign ∈ signs)
    (unsigned : Unsigned body) : splitSign (sign ++ body) = (sign == ['-'], body) := by
  rcases eq_of_mem_signs listed with rfl | rfl | rfl
  · rw [List.nil_append]
    unfold splitSign
    split
    · exact absurd rfl (unsigned '+' rfl).1
    · exact absurd rfl (unsigned '-' rfl).2
    · rfl
  · rfl
  · rfl

end Sign

section Coefficient

variable {isDigit : Char → Bool}

/-- Digits with an optional point, at least one digit in all. -/
inductive Coefficient (isDigit : Char → Bool) : List Char → Prop
  | plain {whole : List Char} (row : ∀ digit ∈ whole, isDigit digit = true)
      (nonempty : whole ≠ []) : Coefficient isDigit whole
  | point {whole fraction : List Char} (whole_row : ∀ digit ∈ whole, isDigit digit = true)
      (fraction_row : ∀ digit ∈ fraction, isDigit digit = true)
      (nonempty : whole ++ fraction ≠ []) : Coefficient isDigit (whole ++ '.' :: fraction)

theorem coefficient_of_splitCoefficient {text whole fraction tail : List Char}
    (parts : splitCoefficient isDigit text = (whole, fraction, tail))
    (nonempty : whole ++ fraction ≠ []) :
    ∃ coefficient, Coefficient isDigit coefficient ∧ text = coefficient ++ tail := by
  have pieces := List.takeWhile_append_dropWhile (p := isDigit) (l := text)
  have whole_row : ∀ digit ∈ text.takeWhile isDigit, isDigit digit = true :=
    fun digit member => List.mem_takeWhile_imp member
  rw [splitCoefficient] at parts
  split at parts
  · rename_i rest dropped
    obtain ⟨rfl, rfl, rfl⟩ : _ ∧ _ ∧ _ := by simpa using parts
    refine ⟨_, .point whole_row (fun digit member => List.mem_takeWhile_imp member) nonempty, ?_⟩
    rw [List.append_assoc, List.cons_append, List.takeWhile_append_dropWhile, ← dropped, pieces]
  · obtain ⟨rfl, rfl, rfl⟩ : _ ∧ _ ∧ _ := by simpa using parts
    rw [List.append_nil] at nonempty
    exact ⟨_, .plain whole_row nonempty, pieces.symm⟩

theorem Coefficient.forall_mem {text : List Char} (coefficient : Coefficient isDigit text)
    {property : Char → Prop} (digits : ∀ digit, isDigit digit = true → property digit)
    (point : property '.') : ∀ character ∈ text, property character := by
  cases coefficient with
  | plain row nonempty => exact fun character member => digits character (row character member)
  | point whole_row fraction_row nonempty =>
      refine List.forall_mem_append.mpr ⟨?_, List.forall_mem_cons.mpr ⟨point, ?_⟩⟩
      · exact fun character member => digits character (whole_row character member)
      · exact fun character member => digits character (fraction_row character member)

theorem Coefficient.exists_cons {text : List Char} (coefficient : Coefficient isDigit text) :
    ∃ first rest, text = first :: rest ∧ (isDigit first = true ∨ first = '.') := by
  cases coefficient with
  | plain row nonempty =>
      obtain ⟨first, rest, rfl⟩ := List.exists_cons_of_ne_nil nonempty
      exact ⟨first, rest, rfl, .inl (row first List.mem_cons_self)⟩
  | @point whole fraction whole_row fraction_row nonempty =>
      cases whole with
      | nil => exact ⟨'.', fraction, rfl, .inr rfl⟩
      | cons first rest =>
          exact ⟨first, _, List.cons_append, .inl (whole_row first List.mem_cons_self)⟩

theorem Coefficient.exists_concat {text : List Char} (coefficient : Coefficient isDigit text) :
    ∃ front last, text = front ++ [last] ∧ (isDigit last = true ∨ last = '.') := by
  cases coefficient with
  | plain row nonempty =>
      obtain ⟨front, last, rfl⟩ := (List.eq_nil_or_concat' text).resolve_left nonempty
      exact ⟨front, last, rfl, .inl (row last (by simp))⟩
  | @point whole fraction whole_row fraction_row nonempty =>
      rcases List.eq_nil_or_concat' fraction with rfl | ⟨front, last, rfl⟩
      · exact ⟨whole, '.', rfl, .inr rfl⟩
      · exact ⟨whole ++ '.' :: front, last, by simp, .inl (fraction_row last (by simp))⟩

end Coefficient

section Exponent

/-- A row of decimal digits with an optional sign. -/
def IsExponent (text : List Char) : Prop :=
  ∃ sign ∈ signs, ∃ digits, text = sign ++ digits ∧ IsDigits digits ∧ digits ≠ []

theorem isExponent_of_exponent? {text : List Char} {exponent : Int}
    (read : exponent? text = some exponent) : IsExponent text := by
  obtain ⟨sign, listed, pieces, -⟩ := exists_splitSign text
  refine ⟨sign, listed, _, pieces, ?_⟩
  rw [exponent?] at read
  simp only at read
  split at read
  · cases read
  · rename_i accepted
    simp only [Bool.or_eq_true, List.isEmpty_iff, Bool.not_eq_true', not_or, Bool.not_eq_false,
      List.all_eq_true] at accepted
    exact ⟨accepted.2, accepted.1⟩

theorem IsExponent.forall_mem {text : List Char} (exponent : IsExponent text)
    {property : Char → Prop} (digits : ∀ digit, digit.isDigit = true → property digit)
    (plus : property '+') (minus : property '-') : ∀ character ∈ text, property character := by
  obtain ⟨sign, listed, row, rfl, row_digits, -⟩ := exponent
  refine List.forall_mem_append.mpr
    ⟨?_, fun character member => digits character (row_digits character member)⟩
  rcases eq_of_mem_signs listed with rfl | rfl | rfl <;> simp [plus, minus]

theorem IsExponent.exists_concat {text : List Char} (exponent : IsExponent text) :
    ∃ front last, text = front ++ [last] ∧ last.isDigit = true := by
  obtain ⟨sign, -, digits, rfl, row, nonempty⟩ := exponent
  obtain ⟨front, last, rfl, digit⟩ := row.exists_concat nonempty
  exact ⟨sign ++ front, last, by rw [List.append_assoc], digit⟩

end Exponent

/-- A decimal numeral. -/
inductive IsDecimal : List Char → Prop
  | plain {coefficient : List Char} (digits : Coefficient Char.isDigit coefficient) :
      IsDecimal coefficient
  | scaled {coefficient exponent : List Char} {mark : Char}
      (digits : Coefficient Char.isDigit coefficient) (marked : mark = 'e' ∨ mark = 'E')
      (scale : IsExponent exponent) : IsDecimal (coefficient ++ mark :: exponent)

theorem IsDecimal.exists_cons {text : List Char} (decimal : IsDecimal text) :
    ∃ first rest, text = first :: rest ∧ (first.isDigit = true ∨ first = '.') := by
  cases decimal with
  | plain digits => exact digits.exists_cons
  | scaled digits marked scale =>
      obtain ⟨first, rest, rfl, starts⟩ := digits.exists_cons
      exact ⟨first, _, List.cons_append, starts⟩

theorem IsDecimal.exists_concat {text : List Char} (decimal : IsDecimal text) :
    ∃ front last, text = front ++ [last] ∧ (last.isDigit = true ∨ last = '.') := by
  cases decimal with
  | plain digits => exact digits.exists_concat
  | @scaled coefficient exponent mark digits marked scale =>
      obtain ⟨front, last, rfl, digit⟩ := scale.exists_concat
      exact ⟨coefficient ++ mark :: front, last, by simp, .inl digit⟩

theorem IsDecimal.unsigned {text : List Char} (decimal : IsDecimal text) : Unsigned text := by
  obtain ⟨first, rest, rfl, starts⟩ := decimal.exists_cons
  intro character member
  obtain rfl : first = character := by simpa using member
  rcases starts with digit | rfl
  · constructor <;>
      · rintro rfl
        cases digit
  · decide

theorem isDecimal_of_decimal? {text : List Char} {numeral : Numeral}
    (read : decimal? text = some numeral) : IsDecimal text := by
  rw [decimal?] at read
  rcases parts : splitCoefficient Char.isDigit text with ⟨whole, fraction, tail⟩
  simp only [parts] at read
  split at read
  · cases read
  · rename_i nonempty
    obtain ⟨coefficient, digits, rfl⟩ :=
      coefficient_of_splitCoefficient parts (by simpa using nonempty)
    split at read
    · rw [List.append_nil]
      exact .plain digits
    · split at read
      · rename_i mark rest marked
        obtain ⟨exponent, scale, -⟩ := Option.map_eq_some_iff.mp read
        exact .scaled digits (by simpa using marked) (isExponent_of_exponent? scale)
      · cases read

/-- A decimal numeral has no mark of a hexadecimal one. -/
theorem unsigned?_of_isDecimal {text : List Char} (decimal : IsDecimal text) :
    unsigned? text = decimal? text := by
  have digits : ∀ digit : Char, digit.isDigit = true → digit ≠ 'x' ∧ digit ≠ 'X' := by
    intro digit is_digit
    constructor <;>
      · rintro rfl
        cases is_digit
  have unmarked : ∀ character ∈ text, character ≠ 'x' ∧ character ≠ 'X' := by
    cases decimal with
    | plain coefficient => exact coefficient.forall_mem digits (by simp)
    | scaled coefficient marked scale =>
        refine List.forall_mem_append.mpr ⟨coefficient.forall_mem digits (by simp), ?_⟩
        refine List.forall_mem_cons.mpr ⟨?_, scale.forall_mem digits (by simp) (by simp)⟩
        rcases marked with rfl | rfl <;> simp
  unfold unsigned?
  split
  · exact absurd rfl (unmarked 'x' (by simp)).1
  · exact absurd rfl (unmarked 'X' (by simp)).2
  · rfl

/-- What follows the mark of a hexadecimal numeral. -/
inductive IsHexadecimal : List Char → Prop
  | scaled {coefficient exponent : List Char} {mark : Char}
      (digits : Coefficient isHexDigit coefficient) (marked : mark = 'p' ∨ mark = 'P')
      (scale : IsExponent exponent) : IsHexadecimal (coefficient ++ mark :: exponent)

theorem IsHexadecimal.exists_concat {text : List Char} (hexadecimal : IsHexadecimal text) :
    ∃ front last, text = front ++ [last] ∧ last.isDigit = true := by
  cases hexadecimal with
  | @scaled coefficient exponent mark digits marked scale =>
      obtain ⟨front, last, rfl, digit⟩ := scale.exists_concat
      exact ⟨coefficient ++ mark :: front, last, by simp, digit⟩

theorem isHexadecimal_of_hexadecimalBody? {text : List Char} {numeral : Numeral}
    (read : hexadecimalBody? text = some numeral) : IsHexadecimal text := by
  rw [hexadecimalBody?] at read
  rcases parts : splitCoefficient isHexDigit text with ⟨whole, fraction, tail⟩
  simp only [parts] at read
  split at read
  · cases read
  · rename_i nonempty
    obtain ⟨coefficient, digits, rfl⟩ :=
      coefficient_of_splitCoefficient parts (by simpa using nonempty)
    split at read
    · cases read
    · split at read
      · rename_i mark rest marked
        obtain ⟨exponent, scale, -⟩ := Option.map_eq_some_iff.mp read
        exact .scaled digits (by simpa using marked) (isExponent_of_exponent? scale)
      · cases read

/-- An unsigned numeral. -/
inductive IsNumeral : List Char → Prop
  | decimal {text : List Char} (digits : IsDecimal text) : IsNumeral text
  | hexadecimal {body : List Char} {letter : Char} (lettered : letter = 'x' ∨ letter = 'X')
      (digits : IsHexadecimal body) : IsNumeral ('0' :: letter :: body)

theorem IsNumeral.exists_cons {text : List Char} (numeral : IsNumeral text) :
    ∃ first rest, text = first :: rest ∧ (first.isDigit = true ∨ first = '.') := by
  cases numeral with
  | decimal digits => exact digits.exists_cons
  | hexadecimal lettered digits => exact ⟨'0', _, rfl, .inl rfl⟩

theorem IsNumeral.exists_concat {text : List Char} (numeral : IsNumeral text) :
    ∃ front last, text = front ++ [last] ∧ (last.isDigit = true ∨ last = '.') := by
  cases numeral with
  | decimal digits => exact digits.exists_concat
  | @hexadecimal body letter lettered digits =>
      obtain ⟨front, last, rfl, digit⟩ := digits.exists_concat
      exact ⟨'0' :: letter :: front, last, rfl, .inl digit⟩

theorem isNumeral_of_unsigned? {text : List Char} {numeral : Numeral}
    (read : unsigned? text = some numeral) : IsNumeral text := by
  unfold unsigned? at read
  split at read
  · exact .hexadecimal (.inl rfl) (isHexadecimal_of_hexadecimalBody? read)
  · exact .hexadecimal (.inr rfl) (isHexadecimal_of_hexadecimalBody? read)
  · exact .decimal (isDecimal_of_decimal? read)

end GeneticProgram.Numeral
