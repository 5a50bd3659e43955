import GeneticProgram.Proofs.NumeralGrammar
import Mathlib.Data.Nat.Digits.Defs
import Mathlib.Data.Rat.Cast.Order
import Mathlib.Tactic.FieldSimp

/-!
# What numerals denote

A numeral denotes a rational number.  Its digits count by their places before and behind the point,
and an exponent scales the coefficient by a power of ten, or of two in a hexadecimal numeral.  Every
numeral is read, and what is read has the value that the numeral denotes.
-/

namespace GeneticProgram.Numeral

/-- The natural number that a row of digits denotes by their places. -/
def rowValue (base : Nat) (digits : List Char) : Nat :=
  Nat.ofDigits base (digits.reverse.map digitValue)

/-- Reading digits one after another adds up their places. -/
theorem valueOfDigits_eq_rowValue (base : Nat) (digits : List Char) :
    valueOfDigits base digits = rowValue base digits := by
  induction digits using List.reverseRecOn with
  | nil => rfl
  | append_singleton front last induction =>
      rw [valueOfDigits_append, induction]
      simp [rowValue, Nat.ofDigits_cons, valueOfDigits]
      ring

/-- A coefficient with the rational number that it denotes in a base. -/
inductive CoefficientDenotes (base : Nat) (isDigit : Char → Bool) : List Char → ℚ → Prop
  | plain {whole : List Char} (row : ∀ digit ∈ whole, isDigit digit = true)
      (nonempty : whole ≠ []) : CoefficientDenotes base isDigit whole (rowValue base whole)
  | point {whole fraction : List Char} (whole_row : ∀ digit ∈ whole, isDigit digit = true)
      (fraction_row : ∀ digit ∈ fraction, isDigit digit = true)
      (nonempty : whole ++ fraction ≠ []) :
      CoefficientDenotes base isDigit (whole ++ '.' :: fraction)
        (rowValue base whole + rowValue base fraction / base ^ fraction.length)

/-- An exponent with the integer that it denotes. -/
inductive ExponentDenotes : List Char → Int → Prop
  | positive {sign digits : List Char} (unsigned : sign = [] ∨ sign = ['+'])
      (row : IsDigits digits) (nonempty : digits ≠ []) :
      ExponentDenotes (sign ++ digits) (rowValue 10 digits)
  | negative {digits : List Char} (row : IsDigits digits) (nonempty : digits ≠ []) :
      ExponentDenotes ('-' :: digits) (-rowValue 10 digits)

/-- A numeral with the rational number that it denotes. -/
inductive Denotes : List Char → ℚ → Prop
  | decimal {coefficient : List Char} {number : ℚ}
      (digits : CoefficientDenotes 10 Char.isDigit coefficient number) :
      Denotes coefficient number
  | scaled {coefficient exponent : List Char} {number : ℚ} {scale : Int} {mark : Char}
      (digits : CoefficientDenotes 10 Char.isDigit coefficient number)
      (marked : mark = 'e' ∨ mark = 'E') (scales : ExponentDenotes exponent scale) :
      Denotes (coefficient ++ mark :: exponent) (number * 10 ^ scale)
  | hexadecimal {coefficient exponent : List Char} {number : ℚ} {scale : Int} {letter mark : Char}
      (lettered : letter = 'x' ∨ letter = 'X')
      (digits : CoefficientDenotes 16 isHexDigit coefficient number)
      (marked : mark = 'p' ∨ mark = 'P') (scales : ExponentDenotes exponent scale) :
      Denotes ('0' :: letter :: (coefficient ++ mark :: exponent)) (number * 2 ^ scale)

section Grammar

theorem coefficient_iff_denotes {isDigit : Char → Bool} (base : Nat) {text : List Char} :
    Coefficient isDigit text ↔ ∃ number, CoefficientDenotes base isDigit text number := by
  constructor
  · rintro (⟨row, nonempty⟩ | ⟨whole_row, fraction_row, nonempty⟩)
    · exact ⟨_, .plain row nonempty⟩
    · exact ⟨_, .point whole_row fraction_row nonempty⟩
  · rintro ⟨number, ⟨row, nonempty⟩ | ⟨whole_row, fraction_row, nonempty⟩⟩
    · exact .plain row nonempty
    · exact .point whole_row fraction_row nonempty

theorem isExponent_iff_denotes {text : List Char} :
    IsExponent text ↔ ∃ scale, ExponentDenotes text scale := by
  constructor
  · rintro ⟨sign, listed, digits, rfl, row, nonempty⟩
    rcases eq_of_mem_signs listed with rfl | rfl | rfl
    · exact ⟨_, .positive (.inl rfl) row nonempty⟩
    · exact ⟨_, .positive (.inr rfl) row nonempty⟩
    · exact ⟨_, .negative row nonempty⟩
  · rintro ⟨scale, @⟨sign, digits, unsigned, row, nonempty⟩ | @⟨digits, row, nonempty⟩⟩
    · refine ⟨sign, ?_, digits, rfl, row, nonempty⟩
      rcases unsigned with rfl | rfl <;> simp [signs]
    · exact ⟨['-'], by simp [signs], digits, rfl, row, nonempty⟩

/-- The numerals are the texts that denote a number. -/
theorem isNumeral_iff_denotes {text : List Char} :
    IsNumeral text ↔ ∃ number, Denotes text number := by
  constructor
  · rintro (⟨⟨digits⟩ | ⟨digits, marked, scale⟩⟩ | ⟨lettered, ⟨digits, marked, scale⟩⟩)
    · obtain ⟨number, denotes⟩ := (coefficient_iff_denotes 10).mp digits
      exact ⟨_, .decimal denotes⟩
    · obtain ⟨number, denotes⟩ := (coefficient_iff_denotes 10).mp digits
      obtain ⟨power, scales⟩ := isExponent_iff_denotes.mp scale
      exact ⟨_, .scaled denotes marked scales⟩
    · obtain ⟨number, denotes⟩ := (coefficient_iff_denotes 16).mp digits
      obtain ⟨power, scales⟩ := isExponent_iff_denotes.mp scale
      exact ⟨_, .hexadecimal lettered denotes marked scales⟩
  · rintro ⟨number, ⟨digits⟩ | ⟨digits, marked, scales⟩ | ⟨lettered, digits, marked, scales⟩⟩
    · exact .decimal (.plain ((coefficient_iff_denotes 10).mpr ⟨_, digits⟩))
    · exact .decimal (.scaled ((coefficient_iff_denotes 10).mpr ⟨_, digits⟩) marked
        (isExponent_iff_denotes.mpr ⟨_, scales⟩))
    · exact .hexadecimal lettered (.scaled ((coefficient_iff_denotes 16).mpr ⟨_, digits⟩) marked
        (isExponent_iff_denotes.mpr ⟨_, scales⟩))

end Grammar

section Reading

/-- The rational number that a numeral which has been read stands for, if it is finite. -/
def ratio? : Numeral → Option ℚ
  | .nan | .infinity => none
  | .decimal value => some (value.digits * 10 ^ value.exponent)
  | .binary coefficient exponent => some (coefficient * 2 ^ exponent)

variable {text : List Char} {number : ℚ}

/-- The parts of a coefficient have the value that the coefficient denotes. -/
theorem splitCoefficient_of_denotes {base : Nat} {isDigit : Char → Bool} (positive : 0 < base)
    (point : isDigit '.' = false) (denotes : CoefficientDenotes base isDigit text number)
    (tail : List Char) (stops : ∀ character ∈ tail.head?, isDigit character = false)
    (no_point : tail.head? ≠ some '.') :
    ∃ whole fraction, splitCoefficient isDigit (text ++ tail) = (whole, fraction, tail) ∧
      whole ++ fraction ≠ [] ∧
      number = valueOfDigits base (whole ++ fraction) / (base : ℚ) ^ fraction.length := by
  cases denotes with
  | plain row nonempty =>
      refine ⟨text, [], splitCoefficient_plain row stops no_point, by simpa using nonempty, ?_⟩
      rw [List.append_nil, valueOfDigits_eq_rowValue, List.length_nil, pow_zero, div_one]
  | @point whole fraction whole_row fraction_row nonempty =>
      refine ⟨whole, fraction, ?_, nonempty, ?_⟩
      · rw [List.append_assoc, List.cons_append]
        exact splitCoefficient_point point whole_row fraction_row stops
      · have nonzero : (base : ℚ) ^ fraction.length ≠ 0 := by positivity
        rw [valueOfDigits_append, valueOfDigits_eq_rowValue, valueOfDigits_eq_rowValue]
        push_cast
        field_simp

theorem exponent?_of_denotes {scale : Int} (denotes : ExponentDenotes text scale) :
    exponent? text = some scale := by
  cases denotes with
  | @positive sign digits unsigned row nonempty =>
      have listed : sign ∈ signs := by rcases unsigned with rfl | rfl <;> simp [signs]
      have plus : (sign == ['-']) = false := by rcases unsigned with rfl | rfl <;> simp
      have separated := splitSign_append listed (IsDecimal.plain (.plain row nonempty)).unsigned
      rw [exponent?_of_splitSign separated row nonempty, plus, valueOfDigits_eq_rowValue]
      rfl
  | @negative digits row nonempty =>
      have separated : splitSign ('-' :: digits) = (true, digits) := rfl
      rw [exponent?_of_splitSign separated row nonempty, valueOfDigits_eq_rowValue]
      rfl

theorem decimal?_of_denotes (digits : CoefficientDenotes 10 Char.isDigit text number) :
    ∃ numeral, decimal? text = some numeral ∧ numeral.ratio? = some number := by
  obtain ⟨whole, fraction, parts, nonempty, rfl⟩ :=
    splitCoefficient_of_denotes (by simp) rfl digits [] (by simp) (by simp)
  rw [List.append_nil] at parts
  refine ⟨.decimal ⟨valueOfDigits 10 (whole ++ fraction), -fraction.length⟩, ?_, ?_⟩
  · rw [decimal?, parts]
    simp [nonempty]
  · simp [ratio?, div_eq_mul_inv]

theorem decimal?_of_scaled {mark : Char} {exponent : List Char} {scale : Int}
    (digits : CoefficientDenotes 10 Char.isDigit text number) (marked : mark = 'e' ∨ mark = 'E')
    (scales : ExponentDenotes exponent scale) :
    ∃ numeral, decimal? (text ++ mark :: exponent) = some numeral ∧
      numeral.ratio? = some (number * 10 ^ scale) := by
  have mark_stops : Char.isDigit mark = false ∧ mark ≠ '.' := by
    rcases marked with rfl | rfl <;> simp
  obtain ⟨whole, fraction, parts, nonempty, rfl⟩ :=
    splitCoefficient_of_denotes (by simp) rfl digits (mark :: exponent)
      (by simpa using mark_stops.1) (by simpa using mark_stops.2)
  refine ⟨.decimal ⟨valueOfDigits 10 (whole ++ fraction), scale - fraction.length⟩, ?_, ?_⟩
  · rw [decimal?, parts]
    simp [nonempty, marked, exponent?_of_denotes scales]
  · have shifted : (10 : ℚ) ^ (scale - fraction.length) = 10 ^ scale / 10 ^ fraction.length := by
      rw [zpow_sub₀ (by norm_num), zpow_natCast]
    rw [ratio?, shifted]
    exact congrArg some (by ring)

theorem hexadecimalBody?_of_denotes {mark : Char} {exponent : List Char} {scale : Int}
    (digits : CoefficientDenotes 16 isHexDigit text number) (marked : mark = 'p' ∨ mark = 'P')
    (scales : ExponentDenotes exponent scale) :
    ∃ numeral, hexadecimalBody? (text ++ mark :: exponent) = some numeral ∧
      numeral.ratio? = some (number * 2 ^ scale) := by
  have mark_stops : isHexDigit mark = false ∧ mark ≠ '.' := by
    rcases marked with rfl | rfl <;> decide
  obtain ⟨whole, fraction, parts, nonempty, rfl⟩ :=
    splitCoefficient_of_denotes (by simp) (by decide) digits (mark :: exponent)
      (by simpa using mark_stops.1) (by simpa using mark_stops.2)
  refine ⟨.binary (valueOfDigits 16 (whole ++ fraction)) (scale - 4 * fraction.length), ?_, ?_⟩
  · rw [hexadecimalBody?, parts]
    simp [nonempty, marked, exponent?_of_denotes scales]
  · have shifted : (2 : ℚ) ^ (scale - 4 * fraction.length) = 2 ^ scale / 16 ^ fraction.length := by
      rw [zpow_sub₀ (by norm_num), zpow_mul, zpow_natCast]
      norm_num
    rw [ratio?, shifted]
    refine congrArg some ?_
    push_cast
    ring

/-- A numeral is read as a number with the value that the numeral denotes. -/
theorem unsigned?_of_denotes (denotes : Denotes text number) :
    ∃ numeral, unsigned? text = some numeral ∧ numeral.ratio? = some number := by
  cases denotes with
  | decimal digits =>
      rw [unsigned?_of_isDecimal (.plain ((coefficient_iff_denotes 10).mpr ⟨_, digits⟩))]
      exact decimal?_of_denotes digits
  | scaled digits marked scales =>
      rw [unsigned?_of_isDecimal (.scaled ((coefficient_iff_denotes 10).mpr ⟨_, digits⟩) marked
        (isExponent_iff_denotes.mpr ⟨_, scales⟩))]
      exact decimal?_of_scaled digits marked scales
  | hexadecimal lettered digits marked scales =>
      rcases lettered with rfl | rfl
      · exact hexadecimalBody?_of_denotes digits marked scales
      · exact hexadecimalBody?_of_denotes digits marked scales

/-- A numeral denotes one number. -/
theorem Denotes.unique {other : ℚ} (denotes : Denotes text number)
    (denotes_too : Denotes text other) : number = other := by
  obtain ⟨numeral, read, value⟩ := unsigned?_of_denotes denotes
  obtain ⟨numeral_too, read_too, value_too⟩ := unsigned?_of_denotes denotes_too
  obtain rfl := Option.some.inj (read.symm.trans read_too)
  exact Option.some.inj (value.symm.trans value_too)

end Reading

end GeneticProgram.Numeral
