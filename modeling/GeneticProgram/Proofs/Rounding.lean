import GeneticProgram.Double.Decimal
import Mathlib.Data.Nat.Log
import Mathlib.Tactic.Linarith
import Mathlib.Tactic.Positivity
import Mathlib.Tactic.Ring

/-!
# Rounding

Rounding a quotient depends on its value alone, not on the numerator and the denominator.  Quotients
too small or too large for the format round to zero and to infinity, so that the exponents for which
no power is computed are not special: the double nearest to a decimal is always the rounded
quotient. A number of units rounds to itself, and so the exact decimal of a double, and with it the
shortest one, reads back as the double.
-/

namespace GeneticProgram

theorem roundDiv_mul_left {factor : Nat} (positive : 0 < factor) (numerator denominator : Nat) :
    roundDiv (factor * numerator) (factor * denominator) = roundDiv numerator denominator := by
  have scaled : ∀ left right, factor * left < factor * right ↔ left < right :=
    fun left right => Nat.mul_lt_mul_left positive
  unfold roundDiv
  simp only [Nat.mul_div_mul_left numerator denominator positive, Nat.mul_mod_mul_left,
    Nat.mul_left_comm 2 factor, scaled]

theorem roundDiv_one (numerator : Nat) : roundDiv numerator 1 = numerator := by
  simp [roundDiv, Nat.mod_one]

theorem roundDiv_mul_self {denominator : Nat} (positive : 0 < denominator) (quotient : Nat) :
    roundDiv (quotient * denominator) denominator = quotient := by
  have reduced := roundDiv_mul_left positive quotient 1
  rw [roundDiv_one, Nat.mul_one, Nat.mul_comm] at reduced
  exact reduced

/-- A rounded quotient is at least the whole part of the quotient. -/
theorem div_le_roundDiv (numerator denominator : Nat) :
    numerator / denominator ≤ roundDiv numerator denominator := by
  unfold roundDiv
  dsimp only
  split
  · exact Nat.le_refl _
  · split
    · exact Nat.le_succ _
    · exact Nat.le_add_right _ _

/-- A rounded quotient is at most the whole part of the quotient and one more. -/
theorem roundDiv_le_succ (numerator denominator : Nat) :
    roundDiv numerator denominator ≤ numerator / denominator + 1 := by
  have parity : numerator / denominator % 2 ≤ 1 := by omega
  unfold roundDiv
  dsimp only
  split
  · exact Nat.le_succ _
  · split
    · exact Nat.le_refl _
    · exact Nat.add_le_add_left parity _

theorem roundDiv_eq_zero {numerator denominator : Nat} (small : 2 * numerator < denominator) :
    roundDiv numerator denominator = 0 := by
  have below : numerator < denominator := by omega
  rw [roundDiv]
  simp only [Nat.div_eq_of_lt below, Nat.mod_eq_of_lt below]
  rw [if_pos small]

namespace Magnitude

theorem round_mul_left {factor : Nat} (positive : 0 < factor) (numerator denominator : Nat) :
    round (factor * numerator) (factor * denominator) = round numerator denominator := by
  unfold round
  simp only [Nat.mul_div_mul_left numerator denominator positive, Nat.mul_assoc factor,
    roundDiv_mul_left positive]

theorem ofRatio_mul_left {factor : Nat} (positive : 0 < factor) (numerator denominator : Nat) :
    ofRatio (factor * numerator) (factor * denominator) = ofRatio numerator denominator := by
  unfold ofRatio
  rw [Nat.mul_assoc, round_mul_left positive]

/-- Less than half a unit rounds to zero. -/
theorem round_eq_zero {numerator denominator : Nat} (small : 2 * numerator < denominator) :
    round numerator denominator = zero := by
  have below : numerator < denominator := by omega
  rw [round]
  simp only [Nat.div_eq_of_lt below, stepExponent, Nat.log2_zero]
  change ofRank (0 * _ + roundDiv numerator (denominator * 1)) = zero
  rw [Nat.mul_one, roundDiv_eq_zero small]
  rfl

theorem ofRank_eq_infinity {rank : Nat} (large : infiniteRank ≤ rank) : ofRank rank = infinity := by
  unfold infinity ofRank
  simp only [Magnitude.mk.injEq]
  change min rank infiniteRank = min infiniteRank infiniteRank
  rw [Nat.min_eq_right large, Nat.min_self]

/-- As many units as the first power of two behind the last binade has, or more, round to
infinity. -/
theorem round_eq_infinity {numerator denominator : Nat}
    (large : 2098 ≤ (numerator / denominator).log2) : round numerator denominator = infinity := by
  have nonzero : numerator / denominator ≠ 0 := by
    intro nothing
    rw [nothing, Nat.log2_zero] at large
    omega
  obtain ⟨step, log_eq⟩ : ∃ step, (numerator / denominator).log2 = step + 52 :=
    ⟨(numerator / denominator).log2 - 52, by omega⟩
  have step_eq : stepExponent (numerator / denominator) = step := by
    rw [stepExponent]
    omega
  have significand : 2 ^ 52 ≤ roundDiv numerator (denominator * 2 ^ step) := by
    refine Nat.le_trans ?_ (div_le_roundDiv _ _)
    rw [← Nat.div_div_eq_div_mul, Nat.le_div_iff_mul_le (Nat.two_pow_pos step), ← Nat.pow_add,
      Nat.add_comm, ← log_eq]
    exact Nat.log2_self_le nonzero
  rw [round]
  rw [step_eq]
  apply ofRank_eq_infinity
  change 2047 * 2 ^ 52 ≤ step * 2 ^ 52 + roundDiv numerator (denominator * 2 ^ step)
  have steps : 2046 * 2 ^ 52 ≤ step * 2 ^ 52 := Nat.mul_le_mul_right _ (by omega)
  omega

theorem ofRank_rank (magnitude : Magnitude) : ofRank magnitude.rank = magnitude := by
  obtain ⟨rank, bounded⟩ := magnitude
  rw [ofRank]
  simp only [Magnitude.mk.injEq]
  exact Nat.min_eq_left bounded

/-- The units of a rank in the first binade are the rank, those of a rank in a later one are its
significand times the step of the binade. -/
theorem round_significand {significand step : Nat} (lower : 2 ^ 52 ≤ significand)
    (upper : significand < 2 ^ 53) :
    round (significand * 2 ^ step) 1 = ofRank (step * 2 ^ 52 + significand) := by
  have log_eq : (significand * 2 ^ step).log2 = step + 52 := by
    have nonzero : significand * 2 ^ step ≠ 0 := by positivity
    rw [Nat.log2_eq_iff nonzero]
    constructor
    · rw [Nat.pow_add, Nat.mul_comm]
      exact Nat.mul_le_mul_right _ lower
    · rw [Nat.add_assoc, Nat.pow_add, Nat.mul_comm (2 ^ step)]
      exact Nat.mul_lt_mul_of_pos_right upper (Nat.two_pow_pos step)
  have step_eq : stepExponent (significand * 2 ^ step / 1) = step := by
    rw [Nat.div_one]
    rw [stepExponent]
    omega
  rw [round]
  rw [step_eq]
  change ofRank (step * 2 ^ 52 + roundDiv (significand * 2 ^ step) (1 * 2 ^ step)) = _
  rw [Nat.one_mul, roundDiv_mul_self (Nat.two_pow_pos step)]

theorem round_small {units : Nat} (small : units < 2 ^ 52) : round units 1 = ofRank units := by
  have log_small : units.log2 ≤ 51 := by
    rcases Nat.eq_zero_or_pos units with rfl | positive
    · simp
    · exact Nat.le_of_lt_succ ((Nat.log2_lt (Nat.ne_of_gt positive)).mpr small)
  have step_eq : stepExponent (units / 1) = 0 := by
    rw [Nat.div_one]
    rw [stepExponent]
    omega
  rw [round]
  rw [step_eq]
  change ofRank (0 * _ + roundDiv units (1 * 1)) = _
  rw [Nat.zero_mul, Nat.zero_add, roundDiv_one]

theorem units_eq (magnitude : Magnitude) :
    magnitude.units =
      if magnitude.rank < 2 ^ 52 then magnitude.rank
      else (2 ^ 52 + magnitude.rank % 2 ^ 52) * 2 ^ (magnitude.rank / 2 ^ 52 - 1) := rfl

/-- A number of units rounds to the number that it is. -/
theorem round_units (magnitude : Magnitude) : round magnitude.units 1 = magnitude := by
  rw [units_eq]
  split
  · rename_i small
    rw [round_small small, ofRank_rank]
  · rename_i large
    have rest := Nat.mod_lt magnitude.rank (Nat.two_pow_pos 52)
    have binade : 1 ≤ magnitude.rank / 2 ^ 52 :=
      (Nat.le_div_iff_mul_le (Nat.two_pow_pos 52)).mpr (by omega)
    rw [round_significand (by omega) (by omega)]
    have rank_eq : (magnitude.rank / 2 ^ 52 - 1) * 2 ^ 52 + (2 ^ 52 + magnitude.rank % 2 ^ 52) =
        magnitude.rank := by
      have whole := Nat.div_add_mod magnitude.rank (2 ^ 52)
      omega
    rw [rank_eq, ofRank_rank]

end Magnitude

section Extremes

/-- One is a power of two units. -/
theorem Magnitude.exists_unitsPerOne_eq :
    ∃ bias, bias = 1074 ∧ Magnitude.unitsPerOne = 2 ^ bias := by
  refine ⟨1074, rfl, ?_⟩
  unfold Magnitude.unitsPerOne
  generalize 1074 = bias
  rfl

theorem Magnitude.ofRatio_eq_infinity {numerator exponent : Nat} (beyond : 1024 ≤ exponent)
    (large : 2 ^ exponent ≤ numerator) : Magnitude.ofRatio numerator 1 = .infinity := by
  obtain ⟨bias, bias_eq, units_eq⟩ := Magnitude.exists_unitsPerOne_eq
  have product : 2 ^ (exponent + bias) ≤ numerator * 2 ^ bias := by
    rw [Nat.pow_add]
    exact Nat.mul_le_mul_right _ large
  have nonzero : numerator * 2 ^ bias ≠ 0 :=
    Nat.ne_of_gt (Nat.lt_of_lt_of_le (Nat.two_pow_pos _) product)
  apply Magnitude.round_eq_infinity
  rw [Nat.div_one, units_eq]
  have log_large := (Nat.le_log2 nonzero).mpr product
  omega

theorem Magnitude.ofRatio_eq_zero {numerator denominator exponent : Nat} (tiny : 1075 ≤ exponent)
    (small : numerator * 2 ^ exponent < denominator) :
    Magnitude.ofRatio numerator denominator = .zero := by
  obtain ⟨bias, bias_eq, units_eq⟩ := Magnitude.exists_unitsPerOne_eq
  apply Magnitude.round_eq_zero
  rw [units_eq]
  calc
    2 * (numerator * 2 ^ bias) = numerator * 2 ^ (bias + 1) := by ring
    _ ≤ numerator * 2 ^ exponent :=
      Nat.mul_le_mul_left _ (Nat.pow_le_pow_right (by decide) (by omega))
    _ < denominator := small

theorem exists_two_pow_le_ten_pow {exponent : Nat} (large : 310 < exponent) :
    ∃ power, 1024 ≤ power ∧ 2 ^ power ≤ 10 ^ exponent := by
  -- The sixty-second power of ten lies just above a power of two.
  have close : 2 ^ 205 ≤ 10 ^ 62 := by norm_num
  refine ⟨205 * (exponent / 62), by omega, ?_⟩
  calc
    2 ^ (205 * (exponent / 62)) = (2 ^ 205) ^ (exponent / 62) := Nat.pow_mul ..
    _ ≤ (10 ^ 62) ^ (exponent / 62) := Nat.pow_le_pow_left close _
    _ = 10 ^ (62 * (exponent / 62)) := (Nat.pow_mul ..).symm
    _ ≤ 10 ^ exponent := Nat.pow_le_pow_right (by decide) (Nat.mul_div_le exponent 62)

theorem mul_two_pow_lt_two_pow {number exponent : Nat}
    (small : Nat.log2 number + 1081 ≤ exponent) :
    ∃ power, 1075 ≤ power ∧ number * 2 ^ power < 2 ^ exponent := by
  refine ⟨exponent - (number.log2 + 1), by omega, ?_⟩
  calc
    number * 2 ^ (exponent - (number.log2 + 1))
        < 2 ^ (number.log2 + 1) * 2 ^ (exponent - (number.log2 + 1)) :=
      Nat.mul_lt_mul_of_pos_right Nat.lt_log2_self (Nat.two_pow_pos _)
    _ = 2 ^ exponent := by rw [← Nat.pow_add, Nat.add_sub_cancel' (by omega)]

theorem mul_two_pow_lt_ten_pow {digits exponent : Nat}
    (small : Nat.log2 digits + 1081 ≤ 3 * exponent) :
    ∃ power, 1075 ≤ power ∧ digits * 2 ^ power < 10 ^ exponent := by
  obtain ⟨power, tiny, below⟩ := mul_two_pow_lt_two_pow small
  refine ⟨power, tiny, Nat.lt_of_lt_of_le below ?_⟩
  calc
    2 ^ (3 * exponent) = 8 ^ exponent := Nat.pow_mul ..
    _ ≤ 10 ^ exponent := Nat.pow_le_pow_left (by decide) _

end Extremes

/-- A coefficient with an exponent is rounded as a quotient, if the exponents for which no power is
computed are extreme ones. -/
theorem Magnitude.scaled_eq_ofRatio {base coefficient : Nat} {large small : Nat → Prop}
    [DecidablePred large] [DecidablePred small]
    (overflows : ∀ exponent, large exponent → coefficient ≠ 0 →
      Magnitude.ofRatio (coefficient * base ^ exponent) 1 = .infinity)
    (vanishes : ∀ exponent, small exponent →
      Magnitude.ofRatio coefficient (base ^ exponent) = .zero)
    (positive : 0 < base) (exponent : Int) :
    (if coefficient = 0 then Magnitude.zero
      else match exponent with
        | .ofNat exponent =>
          if large exponent then .infinity else .ofRatio (coefficient * base ^ exponent) 1
        | .negSucc predecessor =>
          if small (predecessor + 1) then .zero
          else .ofRatio coefficient (base ^ (predecessor + 1))) =
      .ofRatio (coefficient * base ^ exponent.toNat) (base ^ (-exponent).toNat) := by
  split
  · rename_i nothing
    rw [nothing, Nat.zero_mul, Magnitude.ofRatio, Nat.zero_mul]
    exact (Magnitude.round_eq_zero (by positivity)).symm
  · rename_i nonzero
    cases exponent with
    | ofNat exponent =>
        have denominator : base ^ (-Int.ofNat exponent).toNat = 1 := by simp
        rw [denominator, Int.ofNat_eq_natCast, Int.toNat_natCast]
        dsimp only
        split
        · rename_i extreme
          exact (overflows exponent extreme nonzero).symm
        · rfl
    | negSucc predecessor =>
        have numerator : coefficient * base ^ (Int.negSucc predecessor).toNat = coefficient := by
          simp
        have denominator : (-Int.negSucc predecessor).toNat = predecessor + 1 := by simp
        rw [numerator, denominator]
        dsimp only
        split
        · rename_i extreme
          exact (vanishes (predecessor + 1) extreme).symm
        · rfl

/-- The double nearest to a coefficient times a power of two is the rounded quotient, whatever the
exponent. -/
theorem Magnitude.ofBinary_eq_ofRatio (coefficient : Nat) (exponent : Int) :
    Magnitude.ofBinary coefficient exponent =
      .ofRatio (coefficient * 2 ^ exponent.toNat) (2 ^ (-exponent).toNat) := by
  refine Magnitude.scaled_eq_ofRatio (fun power large nonzero => ?_) (fun power small => ?_) two_pos
    exponent
  · have beyond : 1024 ≤ power := by omega
    refine Magnitude.ofRatio_eq_infinity beyond ?_
    exact Nat.le_mul_of_pos_left _ (Nat.pos_of_ne_zero nonzero)
  · obtain ⟨binary, tiny, below⟩ := mul_two_pow_lt_two_pow small
    exact Magnitude.ofRatio_eq_zero tiny below

namespace Decimal

/-- The double nearest to a decimal is the rounded quotient, whatever the exponent. -/
theorem nearest_eq_ofRatio (digits : Nat) (exponent : Int) :
    nearest ⟨digits, exponent⟩ =
      .ofRatio (digits * 10 ^ exponent.toNat) (10 ^ (-exponent).toNat) := by
  refine @Magnitude.scaled_eq_ofRatio 10 digits (310 < ·)
    (fun power => digits.log2 + 1081 ≤ 3 * power) _ _ (fun power large nonzero => ?_)
    (fun power small => ?_) (by decide) exponent
  · obtain ⟨binary, beyond, below⟩ := exists_two_pow_le_ten_pow large
    refine Magnitude.ofRatio_eq_infinity beyond (Nat.le_trans below ?_)
    exact Nat.le_mul_of_pos_left _ (Nat.pos_of_ne_zero nonzero)
  · obtain ⟨binary, tiny, below⟩ := mul_two_pow_lt_ten_pow small
    exact Magnitude.ofRatio_eq_zero tiny below

/-- Zeros at the end of the digits may be counted in the exponent. -/
theorem nearest_mul_ten_pow (digits zeros : Nat) (exponent : Int) :
    nearest ⟨digits * 10 ^ zeros, exponent⟩ = nearest ⟨digits, exponent + zeros⟩ := by
  rw [nearest_eq_ofRatio, nearest_eq_ofRatio]
  -- Both quotients become the same once their common power of ten is cancelled.
  have numerators : 10 ^ (-(exponent + zeros)).toNat * (digits * 10 ^ zeros * 10 ^ exponent.toNat) =
      10 ^ (-exponent).toNat * (digits * 10 ^ (exponent + zeros).toNat) := by
    have exponents : (-(exponent + zeros)).toNat + zeros + exponent.toNat =
        (-exponent).toNat + (exponent + zeros).toNat := by omega
    calc
      10 ^ (-(exponent + zeros)).toNat * (digits * 10 ^ zeros * 10 ^ exponent.toNat)
          = digits * 10 ^ ((-(exponent + zeros)).toNat + zeros + exponent.toNat) := by ring
      _ = digits * 10 ^ ((-exponent).toNat + (exponent + zeros).toNat) := by rw [exponents]
      _ = 10 ^ (-exponent).toNat * (digits * 10 ^ (exponent + zeros).toNat) := by ring
  have positive : 0 < 10 ^ (-(exponent + zeros)).toNat := Nat.pow_pos (by decide)
  rw [← Magnitude.ofRatio_mul_left positive, numerators,
    Nat.mul_comm (10 ^ (-(exponent + zeros)).toNat),
    Magnitude.ofRatio_mul_left (Nat.pow_pos (by decide))]

end Decimal

namespace Magnitude

theorem nearest_exactDecimal (magnitude : Magnitude) :
    magnitude.exactDecimal.nearest = magnitude := by
  obtain ⟨bias, bias_eq, units_eq⟩ := exists_unitsPerOne_eq
  have decimal_eq : magnitude.exactDecimal = ⟨magnitude.units * 5 ^ bias, -bias⟩ := by
    rw [exactDecimal]
    rw [Decimal.mk.injEq, ← bias_eq]
    exact ⟨rfl, by omega⟩
  have numerator : magnitude.units * 5 ^ bias * 10 ^ (-(bias : Int)).toNat * 2 ^ bias =
      10 ^ bias * magnitude.units := by
    have none : (-(bias : Int)).toNat = 0 := by omega
    rw [none, Nat.pow_zero, Nat.mul_one, Nat.mul_assoc, ← Nat.mul_pow, Nat.mul_comm]
  have denominator : 10 ^ (-(-(bias : Int))).toNat = 10 ^ bias * 1 := by simp
  rw [decimal_eq, Decimal.nearest_eq_ofRatio, ofRatio, units_eq, numerator, denominator,
    round_mul_left (Nat.pow_pos (by decide)), round_units]

/-- The shortest decimal of a number reads back as the number. -/
theorem nearest_shortestDecimal (magnitude : Magnitude) :
    magnitude.shortestDecimal.nearest = magnitude := by
  unfold shortestDecimal
  dsimp only
  split
  · rename_i equal
    exact eq_of_beq equal
  · exact magnitude.nearest_exactDecimal

end Magnitude
end GeneticProgram
