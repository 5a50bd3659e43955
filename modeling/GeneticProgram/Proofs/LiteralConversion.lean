import GeneticProgram.Numeral.Literal
import GeneticProgram.Numeral.Reading
import GeneticProgram.Proofs.NumeralGrammar
import GeneticProgram.Proofs.Trimming
import GeneticProgram.Proofs.WrittenLiteral

/-!
# Converting literals step by step

A numeric literal can be converted by general means: look at its last character, remove it if it
names a type, and hand the rest to a reader of hexadecimal numbers if it has the mark of one, else
to the reader of decimal numbers.  Each step can fail on some text: there may be no last character,
a reader may refuse the text, and the hexadecimal reader does not give an infinity but overflows.
On numeric literals no step fails, and the conversion gives the double that the literal stands for.
-/

namespace GeneticProgram

namespace Reading

/-- Why a text is not read as a hexadecimal number. -/
inductive HexadecimalFault
  | invalid
  | overflow
deriving DecidableEq

/-- The characters that may surround a hexadecimal number. -/
def isHexadecimalBlank (character : Char) : Bool :=
  Text.inRanges [(0x09, 0x0D), (0x20, 0x20)] character

/-- What follows the mark of a hexadecimal number, which may be left out. -/
def dropMark : List Char → List Char
  | '0' :: 'x' :: rest => rest
  | '0' :: 'X' :: rest => rest
  | text => text

/-- The binary exponent of a hexadecimal number, which may be left out. -/
def binaryExponent? : List Char → Option Int
  | [] => some 0
  | mark :: rest => if mark == 'p' || mark == 'P' then Numeral.exponent? rest else none

/-- The double that a hexadecimal number without its sign stands for. -/
def unsignedHexadecimal (negative : Bool) (text : List Char) : Except HexadecimalFault Double :=
  let (whole, fraction, tail) := Numeral.splitCoefficient Numeral.isHexDigit (dropMark text)
  if (whole ++ fraction).isEmpty then .error .invalid
  else
    match binaryExponent? tail with
    | none => .error .invalid
    | some exponent =>
      let magnitude := Magnitude.ofBinary (Numeral.valueOfDigits 16 (whole ++ fraction))
        (exponent - 4 * fraction.length)
      if magnitude.isInfinite then .error .overflow else .ok (.signed negative magnitude)

/-- The double that a text stands for as a hexadecimal number or as one of the words for infinity
and for what is not a number. -/
def hexadecimal (text : List Char) : Except HexadecimalFault Double :=
  let (negative, body) := Numeral.splitSign (Text.trimWhere isHexadecimalBlank text)
  let lowered := body.map Char.toLower
  if lowered = "inf".toList || lowered = "infinity".toList then .ok (.signed negative .infinity)
  else if lowered = "nan".toList then .ok .nan
  else unsignedHexadecimal negative body

end Reading

namespace Literal

/-- The step at which a conversion fails. -/
inductive ConversionFault
  | noLastCharacter
  | notHexadecimal
  | notDecimal
deriving DecidableEq

/-- The last character of a text. -/
def lastCharacter (text : List Char) : Except ConversionFault Char :=
  match text.getLast? with
  | some last => .ok last
  | none => .error .noLastCharacter

/-- The double of a numeral with its sign.  An overflow is an infinity. -/
def numeralValue (text : List Char) : Except ConversionFault Double :=
  if 'x' ∈ text ∨ 'X' ∈ text then
    match Reading.hexadecimal text with
    | .ok double => .ok double
    | .error .overflow => .ok (.signed (text.head? == some '-') .infinity)
    | .error .invalid => .error .notHexadecimal
  else
    match Reading.double? text with
    | some double => .ok double
    | none => .error .notDecimal

/-- Convert a token step by step if it is a numeric literal. -/
def convert (token : List Char) : Except ConversionFault (Option Double) :=
  if isNumeric token then do
    let text := Text.trimWhere Text.isControlOrSpace token
    let last ← lastCharacter text
    let double ← numeralValue (if isTypeLetter last then text.dropLast else text)
    pure (some double)
  else pure none

end Literal

namespace Numeral

/-- The characters of decimal numerals and of the words for what is not finite. -/
def decimalAlphabet : List Char := 'E' :: Double.alphabet

theorem mem_decimalAlphabet_of_mem_signs {sign : List Char} (listed : sign ∈ signs) :
    ∀ character ∈ sign, character ∈ decimalAlphabet := by
  rcases eq_of_mem_signs listed with rfl | rfl | rfl <;>
    exact Text.forall_mem_of_all (by decide)

theorem IsDecimal.mem_decimalAlphabet {text : List Char} (decimal : IsDecimal text) :
    ∀ character ∈ text, character ∈ decimalAlphabet := by
  have digits : ∀ digit : Char, digit.isDigit = true → digit ∈ decimalAlphabet :=
    fun digit is_digit => List.mem_cons_of_mem 'E' (Double.mem_alphabet_of_isDigit is_digit)
  cases decimal with
  | plain coefficient => exact coefficient.forall_mem digits (by decide)
  | scaled coefficient marked scale =>
      refine List.forall_mem_append.mpr ⟨coefficient.forall_mem digits (by decide), ?_⟩
      refine List.forall_mem_cons.mpr ⟨?_, scale.forall_mem digits (by decide) (by decide)⟩
      rcases marked with rfl | rfl <;> decide

/-- A decimal numeral with its sign uses the alphabet of decimal numerals only. -/
theorem IsDecimal.mem_decimalAlphabet_append {sign body : List Char} (decimal : IsDecimal body)
    (listed : sign ∈ signs) : ∀ character ∈ sign ++ body, character ∈ decimalAlphabet :=
  List.forall_mem_append.mpr
    ⟨mem_decimalAlphabet_of_mem_signs listed, decimal.mem_decimalAlphabet⟩

end Numeral

namespace Reading

section Decimal

theorem dropUnderscores?_eq_self {text : List Char} (free : '_' ∉ text) (afterDigit : Bool) :
    dropUnderscores? afterDigit text = some text := by
  induction text generalizing afterDigit with
  | nil => rfl
  | cons character rest induction =>
      have rest_free : '_' ∉ rest := fun listed => free (List.mem_cons_of_mem character listed)
      unfold dropUnderscores?
      split
      · rename_i equal
        cases equal
      · rename_i equal
        obtain ⟨rfl, -⟩ := List.cons.inj equal
        exact absurd List.mem_cons_self free
      · rename_i equal
        obtain ⟨rfl, -⟩ := List.cons.inj equal
        exact absurd List.mem_cons_self free
      · rename_i equal
        obtain ⟨rfl, rfl⟩ := List.cons.inj equal
        rw [induction rest_free]
        rfl

/-- On the characters of decimal numerals the reader of numbers has nothing to normalize. -/
theorem double?_of_decimalAlphabet {text : List Char}
    (plain : ∀ character ∈ text, character ∈ Numeral.decimalAlphabet) :
    double? text =
      (unsigned? (Numeral.splitSign text).2).map
        (Numeral.toDouble (Numeral.splitSign text).1) := by
  have inert : ∀ character ∈ Numeral.decimalAlphabet, Text.plainDigit character = character ∧
      character ≠ '_' ∧ Text.isNumberBlank character = false :=
    Text.forall_mem_of_all (by decide)
  have trimmed : Text.trimWhere Text.isNumberBlank text = text :=
    Text.trimWhere_eq_self_of_forall fun character member =>
      (inert character (plain character member)).2.2
  have normalized : normalize text = text := by
    rw [normalize, trimmed]
    calc
      text.map Text.plainDigit = text.map id :=
        List.map_congr_left fun character member => (inert character (plain character member)).1
      _ = text := List.map_id text
  have free : '_' ∉ text := fun listed => (inert '_' (plain '_' listed)).2.1 rfl
  rw [double?, normalized, dropUnderscores?_eq_self free]
  rfl

/-- A decimal numeral is not one of the words that the reader of numbers knows. -/
theorem unsigned?_of_isDecimal {text : List Char} (decimal : Numeral.IsDecimal text) :
    unsigned? text = Numeral.decimal? text := by
  obtain ⟨first, rest, rfl, starts⟩ := decimal.exists_cons
  have letters : ∀ character ∈ Double.alphabet, character.isDigit = true ∨ character = '.' →
      character.toLower ≠ 'i' ∧ character.toLower ≠ 'n' :=
    Text.forall_mem_of_all (by decide)
  have listed : first ∈ Double.alphabet := by
    rcases starts with digit | rfl
    · exact Double.mem_alphabet_of_isDigit digit
    · decide
  obtain ⟨not_i, not_n⟩ := letters first listed starts
  have no_word : ∀ (letter : Char) (word : List Char), first.toLower ≠ letter →
      (first :: rest).map Char.toLower ≠ letter :: word := by
    intro letter word different equal
    exact different (List.cons.inj equal).1
  have no_infinity : ¬(decide ((first :: rest).map Char.toLower = "inf".toList) ||
      decide ((first :: rest).map Char.toLower = "infinity".toList)) = true := by
    rw [Bool.or_eq_true, decide_eq_true_eq, decide_eq_true_eq, not_or]
    exact ⟨no_word 'i' _ not_i, no_word 'i' _ not_i⟩
  have no_nan : (first :: rest).map Char.toLower ≠ "nan".toList := no_word 'n' _ not_n
  rw [unsigned?, if_neg no_infinity, if_neg no_nan]

/-- The reader of numbers takes the sign off a decimal numeral and reads the numeral. -/
theorem double?_append {sign body : List Char} (listed : sign ∈ Numeral.signs)
    (decimal : Numeral.IsDecimal body) :
    double? (sign ++ body) =
      (Numeral.decimal? body).map (Numeral.toDouble (sign == ['-'])) := by
  rw [double?_of_decimalAlphabet (decimal.mem_decimalAlphabet_append listed),
    Numeral.splitSign_append listed decimal.unsigned, unsigned?_of_isDecimal decimal]

end Decimal

section Hexadecimal

/-- What follows the mark of a hexadecimal numeral is read as a hexadecimal number, which is
refused only if it overflows. -/
theorem unsignedHexadecimal_of_body {text : List Char} {numeral : Numeral}
    (read : Numeral.hexadecimalBody? (dropMark text) = some numeral) (negative : Bool) :
    unsignedHexadecimal negative text = .ok (numeral.toDouble negative) ∨
      unsignedHexadecimal negative text = .error .overflow ∧
        numeral.toDouble negative = .signed negative .infinity := by
  rw [Numeral.hexadecimalBody?] at read
  rw [unsignedHexadecimal]
  generalize Numeral.splitCoefficient Numeral.isHexDigit (dropMark text) = parts at read ⊢
  obtain ⟨whole, fraction, tail⟩ := parts
  dsimp only at read ⊢
  split at read
  · cases read
  · rename_i nonempty
    rw [if_neg nonempty]
    cases tail with
    | nil => cases read
    | cons mark rest =>
        simp only at read
        split at read
        · rename_i marked
          obtain ⟨exponent, scale, rfl⟩ := Option.map_eq_some_iff.mp read
          rw [binaryExponent?, if_pos marked, scale]
          dsimp only
          split
          · rename_i infinite
            refine .inr ⟨rfl, ?_⟩
            rw [Numeral.toDouble, Magnitude.eq_infinity_of_isInfinite infinite]
          · exact .inl rfl
        · cases read

/-- In front of a hexadecimal numeral the reader takes the sign only. -/
theorem hexadecimal_append {sign rest : List Char} (listed : sign ∈ Numeral.signs) (mark : Char)
    (body : Numeral.IsHexadecimal rest) :
    hexadecimal (sign ++ '0' :: mark :: rest) =
      unsignedHexadecimal (sign == ['-']) ('0' :: mark :: rest) := by
  have trimmed : Text.Trimmed isHexadecimalBlank (sign ++ '0' :: mark :: rest) := by
    constructor
    · rcases Numeral.eq_of_mem_signs listed with rfl | rfl | rfl <;>
        · intro character member
          obtain rfl := Option.some.inj member
          decide
    · obtain ⟨front, last, rfl, digit⟩ := body.exists_concat
      have visible : ∀ character ∈ Double.alphabet, isHexadecimalBlank character = false :=
        Text.forall_mem_of_all (by decide)
      intro character member
      rw [← List.cons_append, ← List.cons_append, ← List.append_assoc, List.getLast?_concat]
        at member
      obtain rfl := Option.some.inj member
      exact visible last (Double.mem_alphabet_of_isDigit digit)
  have unsigned : Numeral.Unsigned ('0' :: mark :: rest) := by
    intro character member
    obtain rfl := Option.some.inj member
    decide
  rw [hexadecimal, Text.trimWhere_eq_self trimmed, Numeral.splitSign_append listed unsigned]
  simp

end Hexadecimal

end Reading

namespace Literal

/-- A decimal numeral with a sign has its value. -/
theorem numeralValue_decimal {sign body : List Char} (listed : sign ∈ Numeral.signs)
    {numeral : Numeral} (read : Numeral.decimal? body = some numeral) :
    numeralValue (sign ++ body) = .ok (numeral.toDouble (sign == ['-'])) := by
  have decimal := Numeral.isDecimal_of_decimal? read
  have plain := decimal.mem_decimalAlphabet_append listed
  have unmarked : ¬('x' ∈ sign ++ body ∨ 'X' ∈ sign ++ body) := by
    rintro (mark | mark)
    · exact absurd (plain 'x' mark) (by decide)
    · exact absurd (plain 'X' mark) (by decide)
  rw [numeralValue, if_neg unmarked, Reading.double?_append listed decimal, read]
  rfl

/-- A hexadecimal numeral with a sign has its value. -/
theorem numeralValue_hexadecimal {sign rest : List Char} {mark : Char}
    (listed : sign ∈ Numeral.signs) (marked : mark = 'x' ∨ mark = 'X') {numeral : Numeral}
    (read : Numeral.hexadecimalBody? rest = some numeral) :
    numeralValue (sign ++ '0' :: mark :: rest) = .ok (numeral.toDouble (sign == ['-'])) := by
  have mark_listed : 'x' ∈ sign ++ '0' :: mark :: rest ∨ 'X' ∈ sign ++ '0' :: mark :: rest := by
    rcases marked with rfl | rfl
    · exact .inl (by simp)
    · exact .inr (by simp)
  have body_read : Numeral.hexadecimalBody? (Reading.dropMark ('0' :: mark :: rest)) =
      some numeral := by
    rcases marked with rfl | rfl <;> exact read
  have minus : ((sign ++ '0' :: mark :: rest).head? == some '-') = (sign == ['-']) := by
    rcases Numeral.eq_of_mem_signs listed with rfl | rfl | rfl <;> rfl
  rw [numeralValue, if_pos mark_listed, minus,
    Reading.hexadecimal_append listed mark (Numeral.isHexadecimal_of_hexadecimalBody? read)]
  rcases Reading.unsignedHexadecimal_of_body body_read (sign == ['-']) with
    value | ⟨overflow, value⟩
  · rw [value]
  · rw [overflow, value]

theorem dropTypeLetter_append (front : List Char) {text : List Char} (nonempty : text ≠ []) :
    dropTypeLetter (front ++ text) = front ++ dropTypeLetter text := by
  obtain ⟨start, last, rfl⟩ := (List.eq_nil_or_concat' text).resolve_left nonempty
  unfold dropTypeLetter
  rw [← List.append_assoc, List.getLast?_concat, List.getLast?_concat]
  dsimp only
  split
  · rw [List.dropLast_concat, List.dropLast_concat]
  · rw [List.append_assoc]

/-- A numeral with a sign has its value, whichever kind it is of. -/
theorem numeralValue_of_numeral {sign body : List Char} (listed : sign ∈ Numeral.signs)
    {numeral : Numeral} (read : Numeral.unsigned? body = some numeral) :
    numeralValue (sign ++ body) = .ok (numeral.toDouble (sign == ['-'])) := by
  unfold Numeral.unsigned? at read
  split at read
  · exact numeralValue_hexadecimal listed (.inl rfl) read
  · exact numeralValue_hexadecimal listed (.inr rfl) read
  · exact numeralValue_decimal listed read

/-- Without its type letter a numeric literal with a sign has its value. -/
theorem numeralValue_dropTypeLetter {sign body : List Char} (listed : sign ∈ Numeral.signs)
    {numeral : Numeral} (read : unsigned? body = some numeral) :
    body ≠ [] ∧ numeralValue (dropTypeLetter (sign ++ body)) =
      .ok (numeral.toDouble (sign == ['-'])) := by
  rw [unsigned?] at read
  split at read
  · rename_i word
    obtain rfl := Option.some.inj read
    subst word
    rcases Numeral.eq_of_mem_signs listed with rfl | rfl | rfl <;> exact ⟨by decide, rfl⟩
  · split at read
    · rename_i word
      obtain rfl := Option.some.inj read
      subst word
      rcases Numeral.eq_of_mem_signs listed with rfl | rfl | rfl <;> exact ⟨by decide, rfl⟩
    · have nonempty : body ≠ [] := by
        rintro rfl
        cases read
      rw [dropTypeLetter_append sign nonempty]
      exact ⟨nonempty, numeralValue_of_numeral listed read⟩

/-- No step of the conversion of a literal fails, and it gives the double of the literal. -/
theorem convert_eq (token : List Char) : convert token = .ok (double? token) := by
  cases value : double? token with
  | none =>
      have not_numeric : isNumeric token = false := by rw [isNumeric, value]; rfl
      rw [convert, not_numeric]
      rfl
  | some double =>
      let text := Text.trimWhere Text.isControlOrSpace token
      have numeric : isNumeric token = true := by rw [isNumeric, value]; rfl
      obtain ⟨sign, listed, pieces, negative⟩ := Numeral.exists_splitSign text
      obtain ⟨numeral, read, double_eq⟩ : ∃ numeral,
          unsigned? (Numeral.splitSign text).2 = some numeral ∧
            numeral.toDouble (Numeral.splitSign text).1 = double :=
        Option.map_eq_some_iff.mp value
      obtain ⟨nonempty, converted⟩ := numeralValue_dropTypeLetter listed read
      rw [← pieces, ← negative] at converted
      obtain ⟨start, last, ends⟩ := (List.eq_nil_or_concat' text).resolve_left fun empty =>
        nonempty (List.append_eq_nil_iff.mp (pieces.symm.trans empty)).2
      have found : text.getLast? = some last := by rw [ends, List.getLast?_concat]
      have dropped : dropTypeLetter text = if isTypeLetter last then text.dropLast else text := by
        rw [dropTypeLetter, found]
      have steps : convert token =
          (lastCharacter text >>= fun last =>
            numeralValue (if isTypeLetter last then text.dropLast else text) >>= fun double =>
              pure (some double)) := by
        rw [convert, if_pos numeric]
      rw [steps, lastCharacter, found, Outcome.ok_bind, ← dropped, converted, Outcome.ok_bind,
        ← double_eq]
      rfl

end Literal

end GeneticProgram
