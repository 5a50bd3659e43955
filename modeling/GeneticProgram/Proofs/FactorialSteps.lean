import GeneticProgram.Double.Arithmetic
import GeneticProgram.Proofs.Outcome
import GeneticProgram.Proofs.Rounding
import Mathlib.Data.Nat.Factorial.Basic

/-!
# The steps of the factorial

The factorial rounds a number to an integer, multiplies integers and converts the product to a
double.  Each of the three steps can fail on its own: only a finite number can be rounded, only an
integer that is not negative has a factorial, and only a product within the format can be converted.
None of them ever does, because each is taken behind a case that leaves the failures out.
-/

namespace GeneticProgram

namespace Magnitude

theorem isInfinite_ofRank {rank : Nat} (small : rank < infiniteRank) :
    (ofRank rank).isInfinite = false := by
  have kept : (ofRank rank).rank = rank := Nat.min_eq_left (Nat.le_of_lt small)
  rw [isInfinite, kept]
  exact beq_false_of_ne (Nat.ne_of_lt small)

/-- Units with fewer binary digits than the last binade has do not round to infinity. -/
theorem isInfinite_round {units exponent : Nat} (small : exponent ≤ 2097)
    (below : units < 2 ^ exponent) : (round units 1).isInfinite = false := by
  have log_le : units.log2 ≤ 2096 := by
    rcases Nat.eq_zero_or_pos units with rfl | positive
    · simp
    · have log_lt := (Nat.log2_lt (Nat.ne_of_gt positive)).mpr below
      omega
  have step_le : stepExponent (units / 1) ≤ 2044 := by
    rw [Nat.div_one, stepExponent]
    omega
  have quotient_lt : units / (1 * 2 ^ stepExponent (units / 1)) < 2 ^ 53 := by
    rw [Nat.one_mul, Nat.div_lt_iff_lt_mul (Nat.two_pow_pos _), ← Nat.pow_add, Nat.div_one]
    refine Nat.lt_of_lt_of_le Nat.lt_log2_self (Nat.pow_le_pow_right (by decide) ?_)
    rw [stepExponent]
    omega
  have significand_le := roundDiv_le_succ units (1 * 2 ^ stepExponent (units / 1))
  have steps_le : stepExponent (units / 1) * 2 ^ 52 ≤ 2044 * 2 ^ 52 :=
    Nat.mul_le_mul_right _ step_le
  apply isInfinite_ofRank
  change stepExponent (units / 1) * 2 ^ 52 +
    roundDiv units (1 * 2 ^ stepExponent (units / 1)) < 2047 * 2 ^ 52
  omega

theorem isInfinite_ofRatio {number exponent : Nat} (small : exponent ≤ 1023)
    (below : number < 2 ^ exponent) : (ofRatio number 1).isInfinite = false := by
  obtain ⟨bias, bias_eq, units_eq⟩ := exists_unitsPerOne_eq
  have product : number * 2 ^ bias < 2 ^ (exponent + bias) := by
    rw [Nat.pow_add]
    exact Nat.mul_lt_mul_of_pos_right below (Nat.two_pow_pos bias)
  have bounded : exponent + bias ≤ 2097 := by omega
  rw [ofRatio, units_eq]
  exact isInfinite_round bounded product

end Magnitude

namespace Double

theorem naturalFactorial_eq (number : Nat) : naturalFactorial number = number.factorial := by
  induction number with
  | zero => rfl
  | succ number induction => rw [naturalFactorial, induction, Nat.factorial_succ]

/-- Up to `170` factorials stay below the last binade. -/
theorem factorial_lt_two_pow {number : Nat} (small : number ≤ 170) :
    number.factorial < 2 ^ 1023 := by
  have greatest : Nat.factorial 170 < 2 ^ 1023 := by decide +kernel
  exact Nat.lt_of_le_of_lt (Nat.factorial_le small) greatest

/-- Up to `170` the factorial is not beyond the doubles. -/
theorem isInfinite_naturalFactorial {number : Nat} (small : number ≤ 170) :
    (ofInt (naturalFactorial number)).isInfinite = false := by
  have product_lt : naturalFactorial number < 2 ^ 1023 := by
    rw [naturalFactorial_eq]
    exact factorial_lt_two_pow small
  exact Magnitude.isInfinite_ofRatio (Nat.le_refl 1023) product_lt

/-- What can go wrong in a step of the factorial. -/
inductive StepFault
  /-- Infinity, or what is not a number, is to be rounded. -/
  | unroundable
  /-- The factorial of a negative integer is asked for. -/
  | negative
  /-- A product beyond the doubles is to be converted. -/
  | tooLarge
deriving DecidableEq

/-- The integer nearest to a finite number, a half going to the even one. -/
def nearestInteger : Double → Except StepFault Int
  | .nan => .error .unroundable
  | .signed negative magnitude =>
    if magnitude.isInfinite then .error .unroundable
    else
      let size : Int := roundDiv magnitude.units Magnitude.unitsPerOne
      .ok (if negative then -size else size)

/-- The factorial of an integer that is not negative. -/
def integerFactorial : Int → Except StepFault Int
  | .ofNat number => .ok (naturalFactorial number)
  | .negSucc _ => .error .negative

/-- The double nearest to a product that is not beyond the doubles. -/
def ofProduct (product : Int) : Except StepFault Double :=
  (ofInt? product).elim (.error .tooLarge) .ok

/-- The factorial of a rounded number; beyond `170` it is not computed. -/
def roundedFactorial (rounded : Int) : Except StepFault Double :=
  if 170 < rounded then .ok infinity
  else if 1 < rounded then do
    let product ← integerFactorial rounded
    ofProduct product
  else .ok one

/-- The factorial with its steps spelled out. -/
def factorialStepwise (number : Double) : Except StepFault Double :=
  if number.isNaN then .ok .nan
  else if number.isInfinite then .ok (if zero.lt number then infinity else one)
  else do
    let rounded ← number.nearestInteger
    roundedFactorial rounded

theorem ofProduct_of_isInfinite {product : Int} (finite : (ofInt product).isInfinite = false) :
    ofProduct product = .ok (ofInt product) := by
  have converted : ofInt? product = some (ofInt product) := by
    rw [ofInt?, if_neg (by rw [finite]; exact Bool.false_ne_true)]
  rw [ofProduct, converted, Option.elim_some]

theorem nearestInteger_of_isInfinite {negative : Bool} {magnitude : Magnitude}
    (finite : magnitude.isInfinite = false) :
    (signed negative magnitude).nearestInteger =
      .ok (if negative then -(roundDiv magnitude.units Magnitude.unitsPerOne : Int)
        else roundDiv magnitude.units Magnitude.unitsPerOne) := by
  simp only [nearestInteger, finite, Bool.false_eq_true, if_false]

theorem zero_lt_of_isInfinite {negative : Bool} {magnitude : Magnitude}
    (infinite : magnitude.isInfinite = true) : zero.lt (signed negative magnitude) = !negative := by
  have rank : magnitude.rank = Magnitude.infiniteRank := by
    simpa [Magnitude.isInfinite] using infinite
  have position : (signed negative magnitude).position? =
      some (if negative then -(Magnitude.infiniteRank : Int) else Magnitude.infiniteRank) := by
    cases negative with
    | true => exact congrArg (fun rank : Nat => some (-(rank : Int))) rank
    | false => exact congrArg (fun rank : Nat => some (rank : Int)) rank
  have origin : zero.position? = some 0 := rfl
  rw [lt, position, origin]
  cases negative with
  | true => rfl
  | false => rfl

theorem roundedFactorial_of_le_one {rounded : Int} (small : rounded ≤ 1) :
    roundedFactorial rounded = .ok one := by
  rw [roundedFactorial, if_neg (by omega), if_neg (by omega)]

theorem roundedFactorial_natural (number : Nat) :
    roundedFactorial number =
      .ok (if 170 < number then infinity else ofInt (naturalFactorial number)) := by
  by_cases large : 170 < number
  · rw [roundedFactorial, if_pos (by omega), if_pos large]
  · rw [if_neg large]
    by_cases counted : 1 < number
    · have product : integerFactorial number = .ok (naturalFactorial number) := rfl
      rw [roundedFactorial, if_neg (by omega), if_pos (by omega), product, Outcome.ok_bind]
      exact ofProduct_of_isInfinite (isInfinite_naturalFactorial (Nat.le_of_not_lt large))
    · have product : (naturalFactorial number : Int) = 1 := by
        obtain rfl | rfl : number = 0 ∨ number = 1 := by omega
        · rfl
        · rfl
      rw [roundedFactorial_of_le_one (by omega), product, one]

/-- No step of the factorial fails. -/
theorem factorialStepwise_eq (number : Double) :
    number.factorialStepwise = .ok number.factorial := by
  cases number with
  | nan => rfl
  | signed negative magnitude =>
      rw [factorialStepwise, factorial, if_neg (by exact Bool.false_ne_true)]
      cases infinite : magnitude.isInfinite with
      | true =>
          rw [if_pos (by exact infinite), if_pos rfl, zero_lt_of_isInfinite infinite]
          cases negative with
          | true => rfl
          | false => rfl
      | false =>
          rw [if_neg (by rw [isInfinite, infinite]; exact Bool.false_ne_true),
            if_neg Bool.false_ne_true, nearestInteger_of_isInfinite infinite, Outcome.ok_bind]
          generalize roundDiv magnitude.units Magnitude.unitsPerOne = size
          cases negative with
          | true => exact roundedFactorial_of_le_one (by simp only [if_true]; omega)
          | false => exact roundedFactorial_natural size

end Double
end GeneticProgram
