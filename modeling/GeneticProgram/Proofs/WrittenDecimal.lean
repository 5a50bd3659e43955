import GeneticProgram.Double.Printer
import GeneticProgram.Numeral.Basic
import GeneticProgram.Proofs.Rounding
import Mathlib.Data.List.TakeWhile

/-!
# Written decimals

The text of a decimal, with its point in place or with an exponent, is a decimal numeral.  The
numeral has the digits of the decimal without the zeros at their end, and so reads back as the same
double.
-/

namespace GeneticProgram

namespace Numeral

section Digits

/-- A row of decimal digits. -/
def IsDigits (text : List Char) : Prop := ∀ character ∈ text, character.isDigit = true

theorem IsDigits.append {left right : List Char} (first : IsDigits left) (second : IsDigits right) :
    IsDigits (left ++ right) := by
  intro character member
  rcases List.mem_append.mp member with inLeft | inRight
  · exact first character inLeft
  · exact second character inRight

theorem IsDigits.left {left right : List Char} (digits : IsDigits (left ++ right)) :
    IsDigits left :=
  fun character member => digits character (List.mem_append_left right member)

theorem isDigits_zeros (count : Nat) : IsDigits (List.replicate count '0') := by
  intro character member
  obtain rfl := List.eq_of_mem_replicate member
  rfl

theorem isDigits_toDigits (number : Nat) : IsDigits (Nat.toDigits 10 number) :=
  fun _ member => Nat.isDigit_of_mem_toDigits (by decide) (by decide) member

theorem valueOfDigits_append (base : Nat) (left right : List Char) :
    valueOfDigits base (left ++ right) =
      valueOfDigits base left * base ^ right.length + valueOfDigits base right := by
  have shifted : ∀ (start : Nat) (text : List Char),
      text.foldl (fun value digit => value * base + digitValue digit) start =
        start * base ^ text.length + valueOfDigits base text := by
    intro start text
    rw [valueOfDigits]
    induction text generalizing start with
    | nil => simp
    | cons digit rest induction =>
        rw [List.foldl_cons, List.foldl_cons, induction, induction (0 * base + digitValue digit),
          List.length_cons]
        ring
  rw [valueOfDigits]
  rw [List.foldl_append, shifted]
  rfl

theorem valueOfDigits_zeros (base count : Nat) :
    valueOfDigits base (List.replicate count '0') = 0 := by
  induction count with
  | zero => rfl
  | succ count induction =>
      rw [List.replicate_succ', valueOfDigits_append, induction]
      simp [valueOfDigits, digitValue]

/-- On decimal digits the value of a numeral is the value of the digits. -/
theorem valueOfDigits_toDigits (number : Nat) :
    valueOfDigits 10 (Nat.toDigits 10 number) = number := by
  have agree : ∀ (start : Nat) (text : List Char), IsDigits text →
      text.foldl (fun value digit => value * 10 + digitValue digit) start =
        Nat.ofDigitChars 10 text start := by
    intro start text digits
    induction text generalizing start with
    | nil => simp
    | cons digit rest induction =>
        have first : digitValue digit = digit.toNat - '0'.toNat := by
          rw [digitValue, if_pos (digits digit List.mem_cons_self)]
          rfl
        rw [List.foldl_cons, Nat.ofDigitChars_cons, first, Nat.mul_comm start]
        exact induction _ fun character member =>
          digits character (List.mem_cons_of_mem digit member)
  rw [valueOfDigits, agree 0 _ (isDigits_toDigits number), Nat.ofDigitChars_ten_toDigits]

end Digits

section Reading

/-- A text that does not go on with a digit. -/
def StopsDigits (text : List Char) : Prop := ∀ character ∈ text.head?, character.isDigit = false

section Coefficient

variable {isDigit : Char → Bool} {whole fraction tail : List Char}

theorem takeWhile_digits (row : ∀ digit ∈ whole, isDigit digit = true)
    (stops : ∀ character ∈ tail.head?, isDigit character = false) :
    (whole ++ tail).takeWhile isDigit = whole ∧ (whole ++ tail).dropWhile isDigit = tail := by
  rw [List.takeWhile_append_of_pos row, List.dropWhile_append_of_pos row]
  cases tail with
  | nil => simp
  | cons character rest =>
      have not_digit : isDigit character = false := stops character (by simp)
      simp [not_digit]

theorem splitCoefficient_point (point : isDigit '.' = false)
    (whole_row : ∀ digit ∈ whole, isDigit digit = true)
    (fraction_row : ∀ digit ∈ fraction, isDigit digit = true)
    (stops : ∀ character ∈ tail.head?, isDigit character = false) :
    splitCoefficient isDigit (whole ++ '.' :: (fraction ++ tail)) = (whole, fraction, tail) := by
  have point_stops : ∀ character ∈ ('.' :: (fraction ++ tail)).head?,
      isDigit character = false := by
    intro character member
    obtain rfl : '.' = character := by simpa using member
    exact point
  have outer := takeWhile_digits whole_row point_stops
  have inner := takeWhile_digits fraction_row stops
  rw [splitCoefficient]
  simp only [outer.1, outer.2, inner.1, inner.2]

theorem splitCoefficient_plain (row : ∀ digit ∈ whole, isDigit digit = true)
    (stops : ∀ character ∈ tail.head?, isDigit character = false)
    (no_point : tail.head? ≠ some '.') :
    splitCoefficient isDigit (whole ++ tail) = (whole, [], tail) := by
  have outer := takeWhile_digits row stops
  rw [splitCoefficient]
  simp only [outer.1, outer.2]
  split
  · rename_i rest
    exact absurd rfl no_point
  · rfl

end Coefficient

/-- A written exponent is a sign and a row of digits. -/
theorem exists_exponentText_eq (exponent : Int) :
    ∃ digits, Double.exponentText exponent = (if exponent < 0 then '-' else '+') :: digits ∧
      IsDigits digits ∧ digits ≠ [] ∧ valueOfDigits 10 digits = exponent.natAbs := by
  refine ⟨(Nat.toDigits 10 exponent.natAbs).leftpad 2 '0', rfl, ?_, ?_, ?_⟩
  · exact (isDigits_zeros _).append (isDigits_toDigits _)
  · intro nothing
    exact Nat.toDigits_ne_nil (List.append_eq_nil_iff.mp nothing).2
  · rw [List.leftpad, valueOfDigits_append, valueOfDigits_zeros, valueOfDigits_toDigits]
    omega

/-- A row of digits behind a sign is read as an exponent. -/
theorem exponent?_of_splitSign {text digits : List Char} {negative : Bool}
    (separated : splitSign text = (negative, digits)) (row : IsDigits digits)
    (nonempty : digits ≠ []) :
    exponent? text =
      some (if negative then -(valueOfDigits 10 digits : Int) else valueOfDigits 10 digits) := by
  have accepted : (digits.isEmpty || !digits.all Char.isDigit) = false := by
    rw [Bool.or_eq_false_iff, Bool.not_eq_false']
    exact ⟨by simpa using nonempty, List.all_eq_true.mpr row⟩
  simp only [exponent?, separated, accepted, Bool.false_eq_true, if_false]
  cases negative <;> rfl

theorem exponent?_exponentText (exponent : Int) :
    exponent? (Double.exponentText exponent) = some exponent := by
  obtain ⟨digits, written, row, nonempty, value⟩ := exists_exponentText_eq exponent
  have separated : splitSign (Double.exponentText exponent) = (decide (exponent < 0), digits) := by
    by_cases below : exponent < 0 <;> simp [written, below, splitSign]
  rw [exponent?_of_splitSign separated row nonempty, value, Option.some.injEq]
  by_cases below : exponent < 0
  · rw [if_pos (decide_eq_true below)]
    omega
  · rw [if_neg (by simpa using below)]
    omega

/-- The two written forms of a decimal: rows of digits around a point, or one or two rows of digits
and an exponent. -/
inductive Written : List Char → Decimal → Prop
  | positional {whole fraction : List Char} (whole_row : IsDigits whole) (begun : whole ≠ [])
      (fraction_row : IsDigits fraction) (ended : fraction ≠ []) :
      Written (whole ++ '.' :: fraction) ⟨valueOfDigits 10 (whole ++ fraction), -fraction.length⟩
  | scientific {whole fraction : List Char} (whole_row : IsDigits whole) (begun : whole ≠ [])
      (fraction_row : IsDigits fraction) (exponent : Int) :
      Written
        (whole ++ (if fraction.isEmpty then [] else '.' :: fraction) ++
          'e' :: Double.exponentText exponent)
        ⟨valueOfDigits 10 (whole ++ fraction), exponent - fraction.length⟩

theorem stopsDigits_exponent (exponent : Int) :
    StopsDigits ('e' :: Double.exponentText exponent) := by
  intro character member
  obtain rfl : 'e' = character := by simpa using member
  rfl

/-- A written decimal is read as the decimal that it denotes. -/
theorem decimal?_of_written {text : List Char} {decimal : Decimal}
    (written : Written text decimal) :
    decimal? text = some (.decimal decimal) := by
  cases written with
  | @positional whole fraction whole_row begun fraction_row ended =>
      have stops : StopsDigits [] := fun character member => by simp at member
      have parts := splitCoefficient_point rfl whole_row fraction_row stops
      rw [List.append_nil] at parts
      simp [decimal?, parts, begun]
  | @scientific whole fraction whole_row begun fraction_row exponent =>
      have stops := stopsDigits_exponent exponent
      have parts : splitCoefficient Char.isDigit
          (whole ++ (if fraction.isEmpty then [] else '.' :: fraction) ++
            'e' :: Double.exponentText exponent) =
            (whole, fraction, 'e' :: Double.exponentText exponent) := by
        cases fraction with
        | nil =>
            simpa using splitCoefficient_plain whole_row stops (by simp)
        | cons digit rest =>
            simpa using splitCoefficient_point rfl whole_row fraction_row stops
      rw [decimal?]
      rw [parts]
      simp [begun, exponent?_exponentText]

theorem IsDigits.exists_cons {digits : List Char} (row : IsDigits digits) (nonempty : digits ≠ []) :
    ∃ first rest, digits = first :: rest ∧ first.isDigit = true := by
  obtain ⟨first, rest, rfl⟩ := List.exists_cons_of_ne_nil nonempty
  exact ⟨first, rest, rfl, row first List.mem_cons_self⟩

theorem IsDigits.exists_concat {digits : List Char} (row : IsDigits digits)
    (nonempty : digits ≠ []) :
    ∃ front last, digits = front ++ [last] ∧ last.isDigit = true :=
  ⟨digits.dropLast, digits.getLast nonempty, (List.dropLast_append_getLast nonempty).symm,
    row _ (List.getLast_mem nonempty)⟩

/-- A written decimal begins with a digit. -/
theorem Written.exists_cons {text : List Char} {decimal : Decimal}
    (written : Written text decimal) :
    ∃ first rest, text = first :: rest ∧ first.isDigit = true := by
  cases written with
  | positional whole_row begun fraction_row ended =>
      obtain ⟨first, rest, rfl, digit⟩ := whole_row.exists_cons begun
      exact ⟨first, _, List.cons_append, digit⟩
  | scientific whole_row begun fraction_row exponent =>
      obtain ⟨first, rest, rfl, digit⟩ := whole_row.exists_cons begun
      exact ⟨first, _, by rw [List.append_assoc, List.cons_append], digit⟩

/-- A written decimal ends with a digit. -/
theorem Written.exists_concat {text : List Char} {decimal : Decimal}
    (written : Written text decimal) :
    ∃ front last, text = front ++ [last] ∧ last.isDigit = true := by
  cases written with
  | @positional whole fraction whole_row begun fraction_row ended =>
      obtain ⟨front, last, rfl, digit⟩ := fraction_row.exists_concat ended
      exact ⟨whole ++ '.' :: front, last, by simp, digit⟩
  | @scientific whole fraction whole_row begun fraction_row exponent =>
      obtain ⟨digits, exponent_eq, row, nonempty, -⟩ := exists_exponentText_eq exponent
      obtain ⟨front, last, rfl, digit⟩ := row.exists_concat nonempty
      rw [exponent_eq]
      exact ⟨_, last, by rw [← List.cons_append, ← List.cons_append, ← List.append_assoc], digit⟩

end Reading

section Significant

/-- The significant digits of a decimal are its digits up to the zeros at their end. -/
theorem exists_toDigits_eq (decimal : Decimal) :
    ∃ zeros, Nat.toDigits 10 decimal.digits =
      decimal.significantDigits ++ List.replicate zeros '0' := by
  let digits := Nat.toDigits 10 decimal.digits
  let dropped := digits.reverse.takeWhile (· == '0')
  have zeros : dropped.reverse = List.replicate dropped.length '0' := by
    refine List.eq_replicate_iff.mpr ⟨List.length_reverse, fun character member => ?_⟩
    have listed : character ∈ dropped := List.mem_reverse.mp member
    simpa using List.mem_takeWhile_imp listed
  refine ⟨dropped.length, ?_⟩
  calc
    digits = (dropped ++ digits.reverse.dropWhile (· == '0')).reverse := by
      rw [List.takeWhile_append_dropWhile, List.reverse_reverse]
    _ = decimal.significantDigits ++ List.replicate dropped.length '0' := by
      rw [List.reverse_append, zeros]
      rfl

theorem isDigits_significantDigits (decimal : Decimal) : IsDigits decimal.significantDigits := by
  obtain ⟨zeros, digits_eq⟩ := exists_toDigits_eq decimal
  have row := isDigits_toDigits decimal.digits
  rw [digits_eq] at row
  exact row.left

theorem significantDigits_ne_nil {decimal : Decimal} (positive : decimal.digits ≠ 0) :
    decimal.significantDigits ≠ [] := by
  intro nothing
  obtain ⟨zeros, digits_eq⟩ := exists_toDigits_eq decimal
  apply positive
  rw [← valueOfDigits_toDigits decimal.digits, digits_eq, nothing, List.nil_append,
    valueOfDigits_zeros]

/-- A decimal is worth its significant digits, counted from the place of its point. -/
theorem nearest_eq_significant (decimal : Decimal) :
    decimal.nearest =
      Decimal.nearest ⟨valueOfDigits 10 decimal.significantDigits,
        decimal.pointPosition - decimal.significantDigits.length⟩ := by
  obtain ⟨zeros, digits_eq⟩ := exists_toDigits_eq decimal
  have value : decimal.digits = valueOfDigits 10 decimal.significantDigits * 10 ^ zeros := by
    have whole := valueOfDigits_toDigits decimal.digits
    rw [digits_eq, valueOfDigits_append, valueOfDigits_zeros, List.length_replicate,
      Nat.add_zero] at whole
    exact whole.symm
  have place : decimal.pointPosition - decimal.significantDigits.length =
      decimal.exponent + zeros := by
    rw [Decimal.pointPosition, digits_eq, List.length_append, List.length_replicate]
    omega
  rw [place, ← Decimal.nearest_mul_ten_pow, ← value]

end Significant

section Writing

variable {digits : List Char}

/-- With the point at its place, a row of digits is a written decimal of the same worth. -/
theorem written_positionalText (row : IsDigits digits) (nonempty : digits ≠ []) (point : Int) :
    ∃ written, Written (Double.positionalText digits point) written ∧
      written.nearest = Decimal.nearest ⟨valueOfDigits 10 digits, point - digits.length⟩ := by
  rw [Double.positionalText]
  split
  · rename_i small
    let fraction := List.replicate point.natAbs '0' ++ digits
    have fraction_row : IsDigits fraction := (isDigits_zeros _).append row
    have shape := Written.positional (isDigits_zeros 1) (by simp) fraction_row
      (by simp [fraction, nonempty])
    refine ⟨_, shape, ?_⟩
    have value : valueOfDigits 10 (List.replicate 1 '0' ++ fraction) = valueOfDigits 10 digits := by
      simp only [fraction]
      simp only [valueOfDigits_append, valueOfDigits_zeros, Nat.zero_mul, Nat.zero_add]
    have place : -(fraction.length : Int) = point - digits.length := by
      simp only [fraction, List.length_append, List.length_replicate]
      omega
    rw [value, place]
  · split
    · rename_i long
      let zeros := point.toNat - digits.length
      have whole_row : IsDigits (digits ++ List.replicate zeros '0') :=
        row.append (isDigits_zeros zeros)
      have shape := Written.positional whole_row (by simp [nonempty]) (isDigits_zeros 1) (by simp)
      refine ⟨_, shape, ?_⟩
      have value : valueOfDigits 10 (digits ++ List.replicate zeros '0' ++ List.replicate 1 '0') =
          valueOfDigits 10 digits * 10 ^ (zeros + 1) := by
        rw [List.append_assoc, List.replicate_append_replicate, valueOfDigits_append,
          valueOfDigits_zeros, List.length_replicate, Nat.add_zero]
      have place : -((List.replicate 1 '0').length : Int) + (zeros + 1 : Nat) =
          point - digits.length := by
        simp only [zeros, List.length_replicate]
        omega
      rw [value, Decimal.nearest_mul_ten_pow, place]
    · rename_i large long
      have whole_row : IsDigits (digits.take point.toNat) :=
        fun character member => row character (List.mem_of_mem_take member)
      have fraction_row : IsDigits (digits.drop point.toNat) :=
        fun character member => row character (List.mem_of_mem_drop member)
      have shape := Written.positional whole_row (by simp [nonempty]; omega) fraction_row
        (by simp; omega)
      refine ⟨_, shape, ?_⟩
      have place : -((digits.drop point.toNat).length : Int) = point - digits.length := by
        rw [List.length_drop]
        omega
      rw [List.take_append_drop, place]

/-- With an exponent, a row of digits is a written decimal of the same worth. -/
theorem written_scientificText (row : IsDigits digits) (nonempty : digits ≠ []) (point : Int) :
    Written (Double.scientificText digits (point - 1))
      ⟨valueOfDigits 10 digits, point - digits.length⟩ := by
  cases digits with
  | nil => exact absurd rfl nonempty
  | cons first rest =>
      have whole_row : IsDigits [first] := by
        intro character member
        exact row character (List.mem_cons.mpr (.inl (List.mem_singleton.mp member)))
      have fraction_row : IsDigits rest :=
        fun character member => row character (List.mem_cons_of_mem first member)
      have shape := Written.scientific whole_row (by simp) fraction_row (point - 1)
      have place : point - 1 - (rest.length : Int) = point - ((first :: rest).length : Int) := by
        rw [List.length_cons]
        omega
      rw [place] at shape
      cases rest with
      | nil => exact shape
      | cons second rest => exact shape

/-- The text of a positive decimal is a written decimal that reads as the same double. -/
theorem written_decimalText {decimal : Decimal} (positive : decimal.digits ≠ 0) :
    ∃ written, Written (Double.decimalText decimal) written ∧
      written.nearest = decimal.nearest := by
  have row := isDigits_significantDigits decimal
  have nonempty := significantDigits_ne_nil positive
  rw [nearest_eq_significant decimal]
  unfold Double.decimalText
  dsimp only
  split
  · exact written_positionalText row nonempty decimal.pointPosition
  · exact ⟨_, written_scientificText row nonempty decimal.pointPosition, rfl⟩

end Writing

end Numeral

end GeneticProgram
