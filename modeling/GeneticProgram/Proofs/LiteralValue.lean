import GeneticProgram.Proofs.LiteralGrammar
import GeneticProgram.Proofs.NearestDouble

/-!
# The value of a numeric literal

A numeric literal stands for the double nearest to the number that its numeral denotes, with the
sign of the literal.  The number alone decides: neither the type letter nor the characters around
the literal matter, nor whether the number is spelled with decimal or with hexadecimal digits.
-/

namespace GeneticProgram

namespace Numeral

/-- A power with an integer exponent is a quotient of powers of which one is trivial. -/
theorem scaled_eq_quotient {base : Nat} (positive : 0 < base) (coefficient : Nat)
    (exponent : Int) :
    ((coefficient * base ^ exponent.toNat : Nat) / (base ^ (-exponent).toNat : Nat) : ℚ) =
      coefficient * (base : ℚ) ^ exponent := by
  have nonzero : (base : ℚ) ≠ 0 := by positivity
  have balance : exponent = exponent.toNat - (-exponent).toNat := by omega
  conv_rhs => rw [balance, zpow_sub₀ nonzero, zpow_natCast, zpow_natCast]
  push_cast
  rw [mul_div_assoc]

/-- A numeral is converted to the double nearest to the number that it stands for. -/
theorem exists_nearest_of_ratio? {numeral : Numeral} {number : ℚ}
    (ratio : numeral.ratio? = some number) :
    ∃ magnitude : Magnitude, magnitude.Nearest number ∧
      ∀ negative, numeral.toDouble negative = .signed negative magnitude := by
  cases numeral with
  | nan => cases ratio
  | infinity => cases ratio
  | decimal value =>
      obtain rfl := Option.some.inj ratio
      refine ⟨value.nearest, ?_, fun negative => rfl⟩
      have nearest := Magnitude.nearest_ofRatio (value.digits * 10 ^ value.exponent.toNat)
        (Nat.pow_pos (n := (-value.exponent).toNat) (show 0 < 10 by simp))
      rw [scaled_eq_quotient (by simp), ← Decimal.nearest_eq_ofRatio] at nearest
      exact_mod_cast nearest
  | binary coefficient exponent =>
      obtain rfl := Option.some.inj ratio
      refine ⟨.ofBinary coefficient exponent, ?_, fun negative => rfl⟩
      have nearest := Magnitude.nearest_ofRatio (coefficient * 2 ^ exponent.toNat)
        (Nat.two_pow_pos (-exponent).toNat)
      rw [scaled_eq_quotient two_pos, ← Magnitude.ofBinary_eq_ofRatio] at nearest
      exact_mod_cast nearest

end Numeral

namespace Literal

/-- A literal has the value of its numeral. -/
theorem exists_nearest_of_denotes {spelling : List Char} {number : ℚ}
    (denotes : Numeral.Denotes spelling number) :
    ∃ magnitude : Magnitude, magnitude.Nearest number ∧
      ∀ token sign suffix, sign ∈ Numeral.signs → suffix ∈ typeSuffixes →
        Frames token sign (spelling ++ suffix) →
          double? token = some (.signed (sign == ['-']) magnitude) := by
  obtain ⟨numeral, read, ratio⟩ := Numeral.unsigned?_of_denotes denotes
  obtain ⟨magnitude, nearest, converted⟩ := Numeral.exists_nearest_of_ratio? ratio
  refine ⟨magnitude, nearest, fun token sign suffix listed typed framed => ?_⟩
  have written := Numeral.isNumeral_iff_denotes.mpr ⟨number, denotes⟩
  rw [double?_of_frames listed (.numeral written typed) framed,
    unsigned?_append_suffix written typed, read, Option.map_some, converted]

/-- A numeral denotes one number, and this number has one nearest double.  A literal of any numeral
that denotes the number, with any type letter and between any control characters and spaces, stands
for this double, negated if the sign of the literal is a minus. -/
theorem literal_is_nearest_double {text : List Char} (written : Numeral.IsNumeral text) :
    ∃ number : ℚ, Numeral.Denotes text number ∧
      (∀ other, Numeral.Denotes text other → other = number) ∧
      ∃ magnitude : Magnitude, magnitude.Nearest number ∧
        (∀ other : Magnitude, other.Nearest number → other = magnitude) ∧
        ∀ spelling, Numeral.Denotes spelling number →
          ∀ token sign suffix, sign ∈ Numeral.signs → suffix ∈ typeSuffixes →
            Frames token sign (spelling ++ suffix) →
              double? token = some (.signed (sign == ['-']) magnitude) ∧
                convert token = .ok (some (.signed (sign == ['-']) magnitude)) := by
  obtain ⟨number, denotes⟩ := Numeral.isNumeral_iff_denotes.mp written
  obtain ⟨magnitude, nearest, -⟩ := exists_nearest_of_denotes denotes
  refine ⟨number, denotes, fun other denotes_too => denotes_too.unique denotes, magnitude, nearest,
    fun other nearest_too => nearest_too.unique nearest, ?_⟩
  intro spelling spelled token sign suffix listed typed framed
  obtain ⟨same, nearest_too, stands⟩ := exists_nearest_of_denotes spelled
  obtain rfl := nearest_too.unique nearest
  have value := stands token sign suffix listed typed framed
  exact ⟨value, by rw [convert_eq, value]⟩

/-- Five quarters in decimal and in hexadecimal digits, with a minus sign and once with a type
letter between a tabulator and a space. -/
theorem literal_is_nearest_double_five_quarters :
    Numeral.IsNumeral "12.5e-1".toList ∧
      ∃ magnitude : Magnitude, magnitude.Nearest (5 / 4) ∧
        double? "\t-12.5e-1d ".toList = some (.signed true magnitude) ∧
        convert "-0X1.4p0".toList = .ok (some (.signed true magnitude)) := by
  have rows : Numeral.rowValue 10 ['1', '2'] = 12 ∧ Numeral.rowValue 10 ['5'] = 5 ∧
      Numeral.rowValue 10 ['1'] = 1 ∧ Numeral.rowValue 10 ['0'] = 0 ∧
      Numeral.rowValue 16 ['1'] = 1 ∧ Numeral.rowValue 16 ['4'] = 4 := by decide
  have decimal : Numeral.Denotes "12.5e-1".toList (5 / 4) := by
    have denotes := Numeral.Denotes.scaled
      (@Numeral.CoefficientDenotes.point 10 Char.isDigit ['1', '2'] ['5'] (by simp) (by simp)
        (by simp))
      (.inl rfl) (@Numeral.ExponentDenotes.negative ['1'] (by simp [Numeral.IsDigits]) (by simp))
    norm_num [rows] at denotes
    exact denotes
  have hexadecimal : Numeral.Denotes "0X1.4p0".toList (5 / 4) := by
    have denotes := Numeral.Denotes.hexadecimal (.inr rfl)
      (@Numeral.CoefficientDenotes.point 16 Numeral.isHexDigit ['1'] ['4']
        (by simp [Numeral.isHexDigit]) (by simp [Numeral.isHexDigit]) (by simp))
      (.inl rfl)
      (@Numeral.ExponentDenotes.positive [] ['0'] (.inl rfl) (by simp [Numeral.IsDigits]) (by simp))
    norm_num [rows] at denotes
    exact denotes
  have written := Numeral.isNumeral_iff_denotes.mpr ⟨_, decimal⟩
  obtain ⟨number, -, only, magnitude, nearest, -, stands⟩ := literal_is_nearest_double written
  obtain rfl := only _ decimal
  refine ⟨written, magnitude, nearest, ?_, ?_⟩
  · exact (stands _ decimal _ ['-'] ['d'] (by simp [Numeral.signs]) (by simp [typeSuffixes])
      ⟨['\t'], [' '], rfl, by simp [Text.isControlOrSpace], by simp [Text.isControlOrSpace]⟩).1
  · exact (stands _ hexadecimal _ ['-'] [] (by simp [Numeral.signs]) (by simp [typeSuffixes])
      ⟨[], [], rfl, by simp, by simp⟩).2

end Literal

end GeneticProgram
