import GeneticProgram.Proofs.Rounding
import Mathlib.Data.Nat.Cast.Order.Field
import Mathlib.Data.Rat.Cast.Order
import Mathlib.Tactic.FieldSimp
import Mathlib.Order.Monotone.Basic

/-!
# The nearest double

Rounding gives the nearest number of the format, and of two numbers that are equally near the one of
even rank, which is the one whose last binary digit is zero.  The ranks are followed beyond
infinity, where they go on to double their step: on this unbounded grid the rounded quotient is
nearest within the binade of the quotient, and all other ranks lie behind the ends of the binade.
Infinity is the result exactly from the middle between the largest finite number and the next power
of two on.  A number has one nearest number of the format, and the order is kept.
-/

namespace GeneticProgram

section Quotient

variable (numerator : Nat) {denominator : Nat}

/-- A rounded quotient is at most half a step away from the quotient, and even if it is half a step
away. -/
theorem roundDiv_bounds (positive : 0 < denominator) :
    2 * (roundDiv numerator denominator * denominator) ≤ 2 * numerator + denominator ∧
      2 * numerator ≤ 2 * (roundDiv numerator denominator * denominator) + denominator ∧
      (roundDiv numerator denominator % 2 = 0 ∨
        2 * (roundDiv numerator denominator * denominator) ≠ 2 * numerator + denominator ∧
          2 * numerator ≠ 2 * (roundDiv numerator denominator * denominator) + denominator) := by
  have whole := Nat.div_add_mod numerator denominator
  have rest := Nat.mod_lt numerator positive
  rw [Nat.mul_comm] at whole
  rw [roundDiv]
  generalize numerator / denominator = quotient at whole
  generalize numerator % denominator = remainder at whole rest
  split
  · omega
  · split
    · rw [Nat.add_mul]
      omega
    · rcases Nat.mod_two_eq_zero_or_one quotient with even | odd
      · rw [even, Nat.add_zero]
        omega
      · rw [odd, Nat.add_mul]
        omega

theorem abs_sub_roundDiv (positive : 0 < denominator) :
    |(numerator / denominator : ℚ) - roundDiv numerator denominator| ≤ 1 / 2 ∧
      (|(numerator / denominator : ℚ) - roundDiv numerator denominator| = 1 / 2 →
        roundDiv numerator denominator % 2 = 0) := by
  obtain ⟨upper, lower, even⟩ := roundDiv_bounds numerator positive
  generalize roundDiv numerator denominator = rounded at *
  have denominator_pos : (0 : ℚ) < denominator := by exact_mod_cast positive
  have scaled : (numerator / denominator : ℚ) - rounded =
      (numerator - rounded * denominator) / denominator := by field_simp
  rw [scaled, abs_div, abs_of_pos denominator_pos]
  constructor
  · rw [div_le_div_iff₀ denominator_pos two_pos, one_mul, ← le_div_iff₀ two_pos, abs_le]
    have upper_cast : (2 * (rounded * denominator) : ℚ) ≤ 2 * numerator + denominator := by
      exact_mod_cast upper
    have lower_cast : (2 * numerator : ℚ) ≤ 2 * (rounded * denominator) + denominator := by
      exact_mod_cast lower
    constructor <;> linarith
  · intro half
    refine even.resolve_right fun ⟨not_above, not_below⟩ => ?_
    rw [div_eq_div_iff denominator_pos.ne' two_ne_zero, one_mul] at half
    rcases abs_choice ((numerator : ℚ) - rounded * denominator) with same | negated
    · rw [same] at half
      refine not_below ?_
      have : (2 * numerator : ℚ) = 2 * (rounded * denominator) + denominator := by linarith
      exact_mod_cast this
    · rw [negated] at half
      refine not_above ?_
      have : (2 * (rounded * denominator) : ℚ) = 2 * numerator + denominator := by linarith
      exact_mod_cast this

/-- No other integer is nearer to a quotient than the rounded one, and if another one is as near,
then the rounded one is even. -/
theorem roundDiv_nearest (positive : 0 < denominator) {other : Nat}
    (different : other ≠ roundDiv numerator denominator) :
    |(numerator / denominator : ℚ) - roundDiv numerator denominator| <
        |(numerator / denominator : ℚ) - other| ∨
      |(numerator / denominator : ℚ) - roundDiv numerator denominator| =
          |(numerator / denominator : ℚ) - other| ∧
        roundDiv numerator denominator % 2 = 0 := by
  obtain ⟨near, even⟩ := abs_sub_roundDiv numerator positive
  generalize roundDiv numerator denominator = rounded at *
  have apart : (1 : ℚ) ≤ |(other : ℚ) - rounded| := by
    have integers : (1 : Int) ≤ |(other : Int) - rounded| := by
      refine Int.one_le_abs (sub_ne_zero.mpr ?_)
      exact_mod_cast different
    exact_mod_cast integers
  have triangle : |(other : ℚ) - rounded| ≤
      |(numerator / denominator : ℚ) - rounded| + |(numerator / denominator : ℚ) - other| := by
    rw [add_comm, abs_sub_comm _ (other : ℚ)]
    exact abs_sub_le (other : ℚ) _ rounded
  rcases lt_or_eq_of_le near with inside | half
  · exact .inl (by linarith)
  · rcases lt_or_eq_of_le (show 1 / 2 ≤ |(numerator / denominator : ℚ) - other| by linarith) with
      farther | tie
    · exact .inl (by linarith)
    · exact .inr ⟨half.trans tie, even half⟩

end Quotient

namespace Magnitude

/-- How many units the number of a rank is worth, the ranks behind infinity included. -/
def unitsAt (rank : Nat) : Nat :=
  if rank < 2 ^ 52 then rank else (2 ^ 52 + rank % 2 ^ 52) * 2 ^ (rank / 2 ^ 52 - 1)

section Grid

/-- From the beginning of a binade to the beginning of the next one, ranks count the steps of the
binade. -/
theorem unitsAt_add {step significand : Nat} (lower : step = 0 ∨ 2 ^ 52 ≤ significand)
    (upper : significand ≤ 2 ^ 53) :
    unitsAt (step * 2 ^ 52 + significand) = significand * 2 ^ step := by
  rw [unitsAt]
  split
  · rename_i small
    obtain rfl : step = 0 := by omega
    simp
  · rename_i large
    rcases Nat.lt_or_ge significand (2 ^ 52) with below | normal
    · omega
    · rcases Nat.lt_or_eq_of_le upper with inside | rfl
      · have quotient : (step * 2 ^ 52 + significand) / 2 ^ 52 = step + 1 := by omega
        have remainder : (step * 2 ^ 52 + significand) % 2 ^ 52 = significand - 2 ^ 52 := by omega
        rw [quotient, remainder, Nat.add_sub_cancel' normal, Nat.add_sub_cancel]
      · have quotient : (step * 2 ^ 52 + 2 ^ 53) / 2 ^ 52 = step + 2 := by omega
        have remainder : (step * 2 ^ 52 + 2 ^ 53) % 2 ^ 52 = 0 := by omega
        rw [quotient, remainder, Nat.add_zero, show step + 2 - 1 = step + 1 by omega]
        ring

/-- Every rank counts the steps of a binade. -/
theorem exists_step_add (rank : Nat) :
    ∃ step significand, rank = step * 2 ^ 52 + significand ∧
      (step = 0 ∨ 2 ^ 52 ≤ significand) ∧ significand < 2 ^ 53 := by
  rcases Nat.lt_or_ge rank (2 ^ 52) with small | large
  · exact ⟨0, rank, by omega, .inl rfl, by omega⟩
  · exact ⟨rank / 2 ^ 52 - 1, 2 ^ 52 + rank % 2 ^ 52, by omega, .inr (by omega), by omega⟩

theorem unitsAt_strictMono : StrictMono unitsAt := by
  refine strictMono_nat_of_lt_succ fun rank => ?_
  obtain ⟨step, significand, rfl, lower, upper⟩ := exists_step_add rank
  have next_lower : step = 0 ∨ 2 ^ 52 ≤ significand + 1 := by omega
  rw [Nat.add_assoc, unitsAt_add lower (by omega), unitsAt_add next_lower (by omega)]
  exact Nat.mul_lt_mul_of_pos_right (Nat.lt_succ_self significand) (Nat.two_pow_pos step)

end Grid

section Rounded

variable {numerator denominator : Nat}

/-- The rank of a rounded quotient before it is cut off at infinity. -/
def roundedRank (numerator denominator : Nat) : Nat :=
  let step := stepExponent (numerator / denominator)
  step * 2 ^ 52 + roundDiv numerator (denominator * 2 ^ step)

theorem round_eq_ofRank (numerator denominator : Nat) :
    round numerator denominator = ofRank (roundedRank numerator denominator) := rfl

/-- A number of units lies in the binade of its step. -/
theorem stepExponent_bounds (units : Nat) :
    (stepExponent units = 0 ∨ 2 ^ 52 * 2 ^ stepExponent units ≤ units) ∧
      units < 2 ^ 53 * 2 ^ stepExponent units := by
  rw [stepExponent]
  constructor
  · rcases Nat.lt_or_ge units.log2 53 with small | large
    · exact .inl (by omega)
    · have nonzero : units ≠ 0 := by
        rintro rfl
        simp at large
      refine .inr ?_
      rw [← Nat.pow_add, show 52 + (units.log2 + 1 - 53) = units.log2 by omega]
      exact Nat.log2_self_le nonzero
  · rw [← Nat.pow_add]
    exact Nat.lt_of_lt_of_le Nat.lt_log2_self (Nat.pow_le_pow_right two_pos (by omega))

/-- The rounded significand lies between the beginnings of its binade and of the next one. -/
theorem roundDiv_step_bounds (numerator denominator : Nat) :
    let step := stepExponent (numerator / denominator)
    let significand := roundDiv numerator (denominator * 2 ^ step)
    (step = 0 ∨ 2 ^ 52 ≤ significand) ∧ significand ≤ 2 ^ 53 := by
  intro step significand
  obtain ⟨lower, upper⟩ := stepExponent_bounds (numerator / denominator)
  have whole : numerator / (denominator * 2 ^ step) = numerator / denominator / 2 ^ step :=
    (Nat.div_div_eq_div_mul ..).symm
  constructor
  · refine lower.imp_right fun large => ?_
    refine Nat.le_trans ?_ (div_le_roundDiv numerator (denominator * 2 ^ step))
    rw [whole]
    exact (Nat.le_div_iff_mul_le (Nat.two_pow_pos step)).mpr large
  · have below : numerator / (denominator * 2 ^ step) < 2 ^ 53 := by
      rw [whole]
      exact (Nat.div_lt_iff_lt_mul (Nat.two_pow_pos step)).mpr upper
    have next := roundDiv_le_succ numerator (denominator * 2 ^ step)
    omega

/-- The quotient lies between the beginnings of the binade to which it is rounded and of the next
one. -/
theorem quotient_bounds (numerator : Nat) (positive : 0 < denominator) :
    let step := stepExponent (numerator / denominator)
    (step = 0 ∨ (2 ^ 52 * 2 ^ step : ℚ) ≤ numerator / denominator) ∧
      (numerator / denominator : ℚ) < 2 ^ 53 * 2 ^ step := by
  intro step
  obtain ⟨lower, upper⟩ := stepExponent_bounds (numerator / denominator)
  have denominator_pos : (0 : ℚ) < denominator := by exact_mod_cast positive
  constructor
  · refine lower.imp_right fun large => ?_
    calc
      (2 ^ 52 * 2 ^ step : ℚ) ≤ (numerator / denominator : Nat) := by exact_mod_cast large
      _ ≤ numerator / denominator := Nat.cast_div_le
  · rw [div_lt_iff₀ denominator_pos]
    exact_mod_cast (Nat.div_lt_iff_lt_mul positive).mp upper

/-- A rank is nearer to a number of units than another rank, or as near and even. -/
def Prefers (units : ℚ) (rank other : Nat) : Prop :=
  |units - unitsAt rank| < |units - unitsAt other| ∨
    |units - unitsAt rank| = |units - unitsAt other| ∧ rank % 2 = 0

theorem Prefers.le {units : ℚ} {rank other : Nat} (prefers : Prefers units rank other) :
    |units - unitsAt rank| ≤ |units - unitsAt other| :=
  prefers.elim le_of_lt fun tie => tie.1.le

/-- The rounded rank is preferred to the other ranks of its binade. -/
theorem prefers_within (numerator : Nat) (positive : 0 < denominator) {significand : Nat}
    (lower : stepExponent (numerator / denominator) = 0 ∨ 2 ^ 52 ≤ significand)
    (upper : significand ≤ 2 ^ 53)
    (different : stepExponent (numerator / denominator) * 2 ^ 52 + significand ≠
      roundedRank numerator denominator) :
    Prefers (numerator / denominator) (roundedRank numerator denominator)
      (stepExponent (numerator / denominator) * 2 ^ 52 + significand) := by
  have bounds := roundDiv_step_bounds numerator denominator
  have scaled_pos : 0 < denominator * 2 ^ stepExponent (numerator / denominator) := by positivity
  rw [roundedRank] at different ⊢
  dsimp only at bounds different ⊢
  generalize stepExponent (numerator / denominator) = step at *
  have different_step : significand ≠ roundDiv numerator (denominator * 2 ^ step) := by omega
  have nearest := roundDiv_nearest numerator scaled_pos different_step
  generalize roundDiv numerator (denominator * 2 ^ step) = rounded at *
  have step_pos : (0 : ℚ) < 2 ^ step := by positivity
  -- Distances in units are distances in steps, scaled by the step.
  have scaled : ∀ steps : Nat, |(numerator / denominator : ℚ) - (steps * 2 ^ step : Nat)| =
      |(numerator / (denominator * 2 ^ step : Nat) : ℚ) - steps| * 2 ^ step := by
    intro steps
    rw [← abs_of_pos step_pos, ← abs_mul]
    congr 1
    push_cast
    field_simp
  rw [Prefers, unitsAt_add bounds.1 bounds.2, unitsAt_add lower upper, scaled, scaled]
  rcases nearest with nearer | ⟨tie, even⟩
  · exact .inl (mul_lt_mul_of_pos_right nearer step_pos)
  · exact .inr ⟨by rw [tie], by omega⟩

/-- The rounded rank is as near as any rank of its binade. -/
theorem abs_sub_roundedRank_le (numerator : Nat) (positive : 0 < denominator) {significand : Nat}
    (lower : stepExponent (numerator / denominator) = 0 ∨ 2 ^ 52 ≤ significand)
    (upper : significand ≤ 2 ^ 53) :
    |(numerator / denominator : ℚ) - unitsAt (roundedRank numerator denominator)| ≤
      |(numerator / denominator : ℚ) -
        (significand * 2 ^ stepExponent (numerator / denominator) : Nat)| := by
  rw [← unitsAt_add lower upper]
  by_cases same : stepExponent (numerator / denominator) * 2 ^ 52 + significand =
      roundedRank numerator denominator
  · rw [same]
  · exact (prefers_within numerator positive lower upper same).le

/-- What lies behind an end is farther away than the end. -/
theorem lt_abs_of_behind {units ending other distance : ℚ} (near : distance ≤ |units - ending|)
    (behind : other < ending ∧ ending ≤ units ∨ units ≤ ending ∧ ending < other) :
    distance < |units - other| := by
  rcases behind with ⟨below, reached⟩ | ⟨reached, above⟩
  · rw [abs_of_nonneg (by linarith)] at near ⊢
    linarith
  · rw [abs_of_nonpos (by linarith)] at near ⊢
    linarith

/-- The rounded rank is preferred to every other rank. -/
theorem prefers_roundedRank (numerator : Nat) (positive : 0 < denominator) {other : Nat}
    (different : other ≠ roundedRank numerator denominator) :
    Prefers (numerator / denominator) (roundedRank numerator denominator) other := by
  obtain ⟨above_first, below_next⟩ := quotient_bounds numerator positive
  by_cases before : stepExponent (numerator / denominator) ≠ 0 ∧
      other < stepExponent (numerator / denominator) * 2 ^ 52 + 2 ^ 52
  · -- Before the binade: its first number lies between.
    have units_lt := unitsAt_strictMono before.2
    rw [unitsAt_add (.inr le_rfl) (by omega)] at units_lt
    refine .inl (lt_abs_of_behind (abs_sub_roundedRank_le numerator positive (.inr le_rfl)
      (by omega)) (.inl ⟨by exact_mod_cast units_lt, ?_⟩))
    have reached := above_first.resolve_left before.1
    exact_mod_cast reached
  by_cases behind : stepExponent (numerator / denominator) * 2 ^ 52 + 2 ^ 53 < other
  · -- Behind the binade: the first number of the next one lies between.
    have units_lt := unitsAt_strictMono behind
    rw [unitsAt_add (.inr (by omega)) le_rfl] at units_lt
    refine .inl (lt_abs_of_behind (abs_sub_roundedRank_le numerator positive (.inr (by omega))
      le_rfl) (.inr ⟨?_, by exact_mod_cast units_lt⟩))
    exact_mod_cast below_next.le
  · obtain ⟨significand, rfl⟩ : ∃ significand,
        other = stepExponent (numerator / denominator) * 2 ^ 52 + significand :=
      ⟨other - stepExponent (numerator / denominator) * 2 ^ 52, by omega⟩
    exact prefers_within numerator positive (by omega) (by omega) different

/-- What is as near to the greater of two numbers as to the smaller one is not before their
middle. -/
theorem middle_le {number lower upper : ℚ} (ordered : lower < upper)
    (near : |number - upper| ≤ |number - lower|) : lower + upper ≤ 2 * number := by
  by_contra before
  refine absurd near (not_le.mpr ?_)
  rw [abs_sub_comm number upper]
  exact lt_of_lt_of_le (abs_lt.mpr ⟨by linarith, by linarith⟩) (le_abs_self _)

/-- What is as near to the smaller of two numbers as to the greater one is not behind their
middle. -/
theorem le_middle {number lower upper : ℚ} (ordered : lower < upper)
    (near : |number - lower| ≤ |number - upper|) : 2 * number ≤ lower + upper := by
  by_contra behind
  refine absurd near (not_le.mpr ?_)
  exact lt_of_lt_of_le (abs_lt.mpr ⟨by linarith, by linarith⟩) (le_abs_self _)

/-- Behind an odd rank the rounded rank begins at the middle of the two numbers. -/
theorem succ_le_roundedRank_iff (numerator : Nat) (positive : 0 < denominator) {rank : Nat}
    (odd : rank % 2 = 1) :
    rank + 1 ≤ roundedRank numerator denominator ↔
      (unitsAt rank + unitsAt (rank + 1) : ℚ) ≤ 2 * (numerator / denominator) := by
  have ordered : (unitsAt rank : ℚ) < unitsAt (rank + 1) := by
    exact_mod_cast unitsAt_strictMono (Nat.lt_succ_self rank)
  constructor
  · intro reached
    have units_le : (unitsAt (rank + 1) : ℚ) ≤ unitsAt (roundedRank numerator denominator) := by
      exact_mod_cast unitsAt_strictMono.monotone reached
    have near := (prefers_roundedRank numerator positive (show rank ≠ _ by omega)).le
    have middle := middle_le (lt_of_lt_of_le ordered units_le) near
    linarith
  · intro middle
    by_contra before
    have units_le : (unitsAt (roundedRank numerator denominator) : ℚ) ≤ unitsAt rank := by
      exact_mod_cast unitsAt_strictMono.monotone (by omega)
    have far : |(numerator / denominator : ℚ) - unitsAt (rank + 1)| ≤
        numerator / denominator - unitsAt rank := abs_le.mpr ⟨by linarith, by linarith⟩
    have own := le_abs_self
      ((numerator / denominator : ℚ) - unitsAt (roundedRank numerator denominator))
    rcases prefers_roundedRank numerator positive (show rank + 1 ≠ _ by omega) with
      nearer | ⟨tie, even⟩
    · linarith
    · -- Only the odd rank itself is as near as the next one.
      have same : (unitsAt (roundedRank numerator denominator) : ℚ) = unitsAt rank :=
        le_antisymm units_le (by linarith)
      have same_rank := unitsAt_strictMono.injective (Nat.cast_injective same)
      omega

end Rounded

section Nearest

/-- The exact value of a finite number. -/
def value (magnitude : Magnitude) : ℚ := magnitude.units / unitsPerOne

/-- The number of the format that is nearest to a nonnegative number. -/
structure Nearest (number : ℚ) (magnitude : Magnitude) : Prop where
  /-- The result is infinity from half a step behind the largest finite number on. -/
  overflow : magnitude = infinity ↔ 2 ^ 1024 - 2 ^ 970 ≤ number
  /-- No finite number is nearer than a finite result. -/
  closest : magnitude ≠ infinity → ∀ other, other ≠ infinity →
    |number - magnitude.value| ≤ |number - other.value|
  /-- If another finite number is as near, then the result is the even one of the two. -/
  even : magnitude ≠ infinity → ∀ other, other ≠ infinity → other ≠ magnitude →
    |number - magnitude.value| = |number - other.value| → magnitude.rank % 2 = 0

theorem unitsPerOne_pos : (0 : ℚ) < unitsPerOne := by
  obtain ⟨bias, -, units_eq⟩ := exists_unitsPerOne_eq
  rw [units_eq]
  positivity

theorem rank_ofRank {rank : Nat} (finite : rank < infiniteRank) : (ofRank rank).rank = rank :=
  Nat.min_eq_left finite.le

theorem rank_lt_of_ne_infinity {magnitude : Magnitude} (finite : magnitude ≠ infinity) :
    magnitude.rank < infiniteRank := by
  by_contra reached
  refine finite ?_
  rw [← ofRank_rank magnitude]
  exact ofRank_eq_infinity (not_lt.mp reached)

theorem ofRank_eq_infinity_iff {rank : Nat} : ofRank rank = infinity ↔ infiniteRank ≤ rank := by
  constructor
  · intro infinite
    by_contra finite
    have same := congrArg Magnitude.rank infinite
    rw [rank_ofRank (not_le.mp finite)] at same
    exact finite same.ge
  · exact ofRank_eq_infinity

/-- The largest finite number and the first power of two behind it have their middle where the
overflow begins. -/
theorem unitsAt_infiniteRank :
    (unitsAt (infiniteRank - 1) + unitsAt (infiniteRank - 1 + 1) : ℚ) =
      2 * ((2 ^ 1024 - 2 ^ 970) * unitsPerOne) := by
  obtain ⟨bias, bias_eq, units_eq⟩ := exists_unitsPerOne_eq
  have largest : infiniteRank - 1 = (971 + bias) * 2 ^ 52 + (2 ^ 53 - 1) := by
    change 2047 * 2 ^ 52 - 1 = _
    omega
  have behind : (971 + bias) * 2 ^ 52 + (2 ^ 53 - 1) + 1 = (971 + bias) * 2 ^ 52 + 2 ^ 53 := by
    omega
  have powers : (2 : ℚ) ^ 1024 = 2 ^ 54 * 2 ^ 970 ∧ (2 : ℚ) ^ 971 = 2 * 2 ^ 970 :=
    ⟨pow_add 2 54 970, pow_succ' 2 970⟩
  rw [largest, behind, unitsAt_add (.inr (by omega)) (by omega),
    unitsAt_add (.inr (by omega)) le_rfl, units_eq, powers.1]
  push_cast
  rw [pow_add, powers.2]
  generalize (2 : ℚ) ^ 970 = half
  ring

/-- Distances of values are distances of units. -/
theorem abs_sub_value (units : ℚ) (magnitude : Magnitude) :
    |units / unitsPerOne - magnitude.value| =
      |units - unitsAt magnitude.rank| / unitsPerOne := by
  rw [value, ← sub_div, abs_div, abs_of_pos unitsPerOne_pos]
  rfl

/-- A rounded quotient of units is the nearest number. -/
theorem nearest_round (numerator : Nat) {denominator : Nat} (positive : 0 < denominator) :
    Nearest (numerator / denominator / unitsPerOne) (round numerator denominator) := by
  rw [round_eq_ofRank]
  have finite_rank : ofRank (roundedRank numerator denominator) ≠ infinity →
      (ofRank (roundedRank numerator denominator)).rank = roundedRank numerator denominator :=
    fun finite => rank_ofRank (not_le.mp fun reached => finite (ofRank_eq_infinity reached))
  have odd : (infiniteRank - 1) % 2 = 1 := rfl
  refine ⟨?_, fun finite other other_finite => ?_,
    fun finite other other_finite different tie => ?_⟩
  · rw [ofRank_eq_infinity_iff, le_div_iff₀ unitsPerOne_pos]
    have begins := succ_le_roundedRank_iff numerator positive odd
    rw [unitsAt_infiniteRank, mul_le_mul_iff_right₀ two_pos] at begins
    exact begins
  · rw [abs_sub_value, abs_sub_value, finite_rank finite]
    refine div_le_div_of_nonneg_right ?_ unitsPerOne_pos.le
    by_cases same : other.rank = roundedRank numerator denominator
    · rw [same]
    · exact (prefers_roundedRank numerator positive same).le
  · have other_rank : other.rank ≠ roundedRank numerator denominator := by
      intro same
      rw [← same, ofRank_rank] at different
      exact different rfl
    rw [abs_sub_value, abs_sub_value, finite_rank finite,
      div_left_inj' unitsPerOne_pos.ne'] at tie
    rw [finite_rank finite]
    rcases prefers_roundedRank numerator positive other_rank with nearer | ⟨-, even⟩
    · exact absurd tie nearer.ne
    · exact even

/-- A rounded quotient is the nearest number. -/
theorem nearest_ofRatio (numerator : Nat) {denominator : Nat} (positive : 0 < denominator) :
    Nearest (numerator / denominator) (ofRatio numerator denominator) := by
  have nearest := nearest_round (numerator * unitsPerOne) positive
  have cancelled : ((numerator * unitsPerOne : Nat) / denominator / unitsPerOne : ℚ) =
      numerator / denominator := by
    have nonzero := unitsPerOne_pos.ne'
    push_cast
    field_simp
  rw [cancelled] at nearest
  exact nearest

theorem value_lt_value {magnitude other : Magnitude} (below : magnitude.rank < other.rank) :
    magnitude.value < other.value := by
  refine div_lt_div_of_pos_right ?_ unitsPerOne_pos
  exact_mod_cast unitsAt_strictMono below

/-- Two numbers that are both nearest are not apart: between two even ranks there is another one. -/
theorem Nearest.not_lt {number : ℚ} {magnitude other : Magnitude} (one : Nearest number magnitude)
    (too : Nearest number other) (finite : magnitude ≠ infinity) (other_finite : other ≠ infinity) :
    ¬magnitude.rank < other.rank := by
  intro below
  have different : other ≠ magnitude := fun same => absurd below (by rw [same]; exact lt_irrefl _)
  have tie : |number - magnitude.value| = |number - other.value| :=
    le_antisymm (one.closest finite other other_finite) (too.closest other_finite magnitude finite)
  have even := one.even finite other other_finite different tie
  have other_even := too.even other_finite magnitude finite different.symm tie.symm
  let between := ofRank (magnitude.rank + 1)
  have bounded := rank_lt_of_ne_infinity other_finite
  have between_rank : between.rank = magnitude.rank + 1 := rank_ofRank (by omega)
  have between_finite : between ≠ infinity :=
    fun infinite => absurd (ofRank_eq_infinity_iff.mp infinite) (by omega)
  have after : magnitude.value < between.value := value_lt_value (by omega)
  have before : between.value < other.value := value_lt_value (by omega)
  have nearer : |number - between.value| < |number - magnitude.value| := by
    -- The number is the middle of the two.
    rcases abs_eq_abs.mp tie with same | opposite
    · linarith
    · exact lt_of_lt_of_le (abs_lt.mpr ⟨by linarith, by linarith⟩) (le_abs_self _)
  exact absurd (one.closest finite between between_finite) (not_le.mpr nearer)

/-- A number has one nearest number of the format. -/
theorem Nearest.unique {number : ℚ} {magnitude other : Magnitude}
    (one : Nearest number magnitude) (too : Nearest number other) : magnitude = other := by
  by_cases infinite : magnitude = infinity
  · rw [infinite, too.overflow.mpr (one.overflow.mp infinite)]
  · have other_finite : other ≠ infinity :=
      fun other_infinite => infinite (one.overflow.mpr (too.overflow.mp other_infinite))
    have not_below := one.not_lt too infinite other_finite
    have not_above := too.not_lt one other_finite infinite
    have same : magnitude.rank = other.rank := by omega
    rw [← ofRank_rank magnitude, same, ofRank_rank]

/-- A greater number has a greater nearest number of the format, or the same one. -/
theorem Nearest.mono {number greater : ℚ} {magnitude other : Magnitude}
    (one : Nearest number magnitude) (too : Nearest greater other) (ordered : number ≤ greater) :
    magnitude.rank ≤ other.rank := by
  by_contra behind
  have below : other.rank < magnitude.rank := not_le.mp behind
  have other_finite : other ≠ infinity := by
    rintro rfl
    exact absurd magnitude.bounded (not_le.mpr below)
  have finite : magnitude ≠ infinity := fun infinite =>
    other_finite (too.overflow.mpr ((one.overflow.mp infinite).trans ordered))
  -- The two numbers lie on either side of one middle, so they are the same.
  have after := middle_le (value_lt_value below) (one.closest finite other other_finite)
  have before := le_middle (value_lt_value below) (too.closest other_finite magnitude finite)
  obtain rfl : number = greater := by linarith
  rw [one.unique too] at below
  exact lt_irrefl _ below

end Nearest

end Magnitude

end GeneticProgram
