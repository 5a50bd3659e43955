import GeneticProgram.Proofs.LiteralGrammar

/-!
# Texts of doubles as literals

A finite number may be written in many ways.  All that a literal needs of its text is that it has
digits around a point, or a coefficient and an exponent with its sign, and that the general reader of
numbers reads the number from it.  The words for what is not finite are spelled differently by the
two readers, so that the literals have words of their own.  Every such text is a numeric literal of
its number, it takes no part in the structure of a program, and the written form that is used in
programs is one of them.
-/

namespace GeneticProgram

namespace Numeral

/-- Two rows of digits around a point. -/
def IsPointed (text : List Char) : Prop :=
  ∃ whole fraction, text = whole ++ '.' :: fraction ∧ (IsDigits whole ∧ whole ≠ []) ∧
    IsDigits fraction ∧ fraction ≠ []

/-- The text of a finite number without its sign: digits around a point, or digits with an optional
fraction and an exponent with its sign. -/
inductive IsFloating : List Char → Prop
  | positional {text : List Char} (pointed : IsPointed text) : IsFloating text
  | scientific {coefficient digits : List Char} {sign : Char}
      (written : IsPointed coefficient ∨ IsDigits coefficient ∧ coefficient ≠ [])
      (signed : sign = '+' ∨ sign = '-') (row : IsDigits digits) (nonempty : digits ≠ []) :
      IsFloating (coefficient ++ 'e' :: sign :: digits)

theorem IsPointed.coefficient {text : List Char} (pointed : IsPointed text) :
    Coefficient Char.isDigit text := by
  obtain ⟨whole, fraction, rfl, ⟨whole_row, begun⟩, fraction_row, -⟩ := pointed
  exact .point whole_row fraction_row (List.append_ne_nil_of_left_ne_nil begun fraction)

theorem IsFloating.isDecimal {text : List Char} (floating : IsFloating text) : IsDecimal text := by
  cases floating with
  | positional pointed => exact .plain pointed.coefficient
  | @scientific coefficient digits sign written signed row nonempty =>
      have listed : [sign] ∈ signs := by rcases signed with rfl | rfl <;> simp [signs]
      have scale : IsExponent (sign :: digits) := ⟨[sign], listed, digits, rfl, row, nonempty⟩
      rcases written with pointed | ⟨coefficient_row, begun⟩
      · exact .scaled pointed.coefficient (.inl rfl) scale
      · exact .scaled (.plain coefficient_row begun) (.inl rfl) scale

/-- The written form of a decimal is such a text. -/
theorem Written.isFloating {text : List Char} {decimal : Decimal}
    (written : Written text decimal) : IsFloating text := by
  cases written with
  | positional whole_row begun fraction_row ended =>
      exact .positional ⟨_, _, rfl, ⟨whole_row, begun⟩, fraction_row, ended⟩
  | @scientific whole fraction whole_row begun fraction_row exponent =>
      obtain ⟨digits, exponent_eq, row, nonempty, -⟩ := exists_exponentText_eq exponent
      rw [exponent_eq]
      refine .scientific ?_ (by split <;> simp) row nonempty
      cases fraction with
      | nil => exact .inr (by simpa using ⟨whole_row, begun⟩)
      | cons digit rest =>
          exact .inl ⟨whole, digit :: rest, rfl, ⟨whole_row, begun⟩, fraction_row, by simp⟩

end Numeral

namespace Double

/-- The texts that may stand for a double: the word for what is not a number, the word for infinity
with a sign, and for a finite number every text of the right shape, with an optional minus sign,
from which the general reader of numbers reads the number. -/
inductive Spells : Double → List Char → Prop
  | nan : Spells .nan "NaN".toList
  | infinity (negative : Bool) :
      Spells (.signed negative .infinity) ((if negative then ['-'] else []) ++ "Infinity".toList)
  | finite {negative : Bool} {magnitude : Magnitude} {sign body : List Char}
      (bounded : magnitude ≠ .infinity) (minus : sign = [] ∨ sign = ['-'])
      (floating : Numeral.IsFloating body)
      (reads : Reading.double? (sign ++ body) = some (.signed negative magnitude)) :
      Spells (.signed negative magnitude) (sign ++ body)

/-- A sign that may stand in front of a finite number may stand in front of a literal. -/
theorem mem_signs_of_minus {sign : List Char} (minus : sign = [] ∨ sign = ['-']) :
    sign ∈ Numeral.signs := by
  rcases minus with rfl | rfl <;> simp [Numeral.signs]

theorem Spells.mem_decimalAlphabet {double : Double} {text : List Char}
    (spells : double.Spells text) : ∀ character ∈ text, character ∈ Numeral.decimalAlphabet := by
  cases spells with
  | nan => exact Text.forall_mem_of_all (by decide)
  | infinity negative => cases negative <;> exact Text.forall_mem_of_all (by decide)
  | finite bounded minus floating reads =>
      exact floating.isDecimal.mem_decimalAlphabet_append (mem_signs_of_minus minus)

end Double

namespace Literal

/-- On decimal numerals with a sign the two readers agree. -/
theorem double?_eq_reading {sign body : List Char} (listed : sign ∈ Numeral.signs)
    (decimal : Numeral.IsDecimal body) :
    double? (sign ++ body) = Reading.double? (sign ++ body) := by
  have no_suffix : [] ∈ typeSuffixes := mem_typeSuffixes_iff.mpr (.inl rfl)
  have whole : IsUnsigned body := by
    simpa using IsUnsigned.numeral (.decimal decimal) no_suffix
  have unsigned : unsigned? body = Numeral.decimal? body := by
    have read := unsigned?_append_suffix (.decimal decimal) no_suffix
    rw [List.append_nil, Numeral.unsigned?_of_isDecimal decimal] at read
    exact read
  have framed : Frames (sign ++ body) sign body := ⟨[], [], by simp, by simp, by simp⟩
  rw [double?_of_frames listed whole framed, unsigned, Reading.double?_append listed decimal]

/-- Every spelling of a double is read as the double. -/
theorem double?_of_spells {double : Double} {text : List Char} (spells : double.Spells text) :
    double? text = some double := by
  cases spells with
  | nan => exact double?_text .nan
  | infinity negative => exact double?_text (.signed negative .infinity)
  | finite bounded minus floating reads =>
      rw [double?_eq_reading (Double.mem_signs_of_minus minus) floating.isDecimal, reads]

/-- The text of a double as a literal is one of its spellings. -/
theorem spells_literalText (double : Double) : double.Spells double.literalText.toList := by
  rw [Double.literalText, String.toList_ofList]
  cases double with
  | nan => exact .nan
  | signed negative magnitude =>
      rw [Double.text]
      by_cases infinite : magnitude = .infinity
      · rw [infinite]
        exact .infinity negative
      · have minus : (if negative then ['-'] else []) = [] ∨
            (if negative then ['-'] else []) = ['-'] := by
          cases negative <;> simp
        have negated : ((if negative then ['-'] else []) == ['-']) = negative := by
          cases negative <;> rfl
        obtain ⟨written, shape, value⟩ :=
          (Double.magnitudeText_cases magnitude).resolve_left fun word => infinite word.1
        refine .finite infinite minus shape.isFloating ?_
        rw [Reading.double?_append (Double.mem_signs_of_minus minus) shape.isFloating.isDecimal,
          Numeral.decimal?_of_written shape, negated, Option.map_some, Numeral.toDouble, value]

/-- Whatever spells a double is a numeric literal without white space, parentheses and separators,
it is no boolean literal, and reading it, at once or step by step, gives the double.  The text that
programs use for a double is such a spelling, so that reading it and writing it again changes
nothing. -/
theorem written_double_reads_back (double : Double) :
    double.Spells double.literalText.toList ∧
      (∀ text, double.Spells text →
        isNumeric text = true ∧
          (∀ character ∈ text,
            character ∉ ['(', ')', ' ', ','] ∧ Text.isBlank character = false) ∧
          boolean? text = none ∧ double? text = some double ∧ convert text = .ok (some double)) ∧
      (double? double.literalText.toList).map Double.literalText = some double.literalText := by
  have own := spells_literalText double
  refine ⟨own, fun text spells => ?_, by rw [double?_of_spells own, Option.map_some]⟩
  have read := double?_of_spells spells
  have inert : ∀ character ∈ Numeral.decimalAlphabet,
      (character ∉ ['(', ')', ' ', ','] ∧ Text.isBlank character = false) ∧
        character.toLower ≠ 'r' ∧ character.toLower ≠ 'l' :=
    Text.forall_mem_of_all (by decide)
  have listed := spells.mem_decimalAlphabet
  refine ⟨by rw [isNumeric, read]; rfl, fun character member => ?_, ?_, read,
    by rw [convert_eq, read]⟩
  · exact (inert character (listed character member)).1
  · exact boolean?_eq_none fun character member => (inert character (listed character member)).2

end Literal

end GeneticProgram
