import GeneticProgram.Proofs.FactorialSteps
import GeneticProgram.Proofs.NearestDouble
import Mathlib.Algebra.Group.Int.Even

/-!
# The rounded factorial

The factorial of a double is that of the natural number to which it is rounded, a half going to the
even integer and what lies below zero counting as zero.  The result is the double nearest to this
factorial.  The number from which on no product is computed is exactly the first one whose factorial
lies beyond the doubles, so that leaving the product out changes no result.  Rounding the argument,
taking the factorial and rounding the product all keep the order, and so does the whole.
-/

namespace GeneticProgram

section HalfEven

/-- The integer to which a number is rounded, a half going to the even one. -/
structure RoundsTo (number : ℚ) (integer : Int) : Prop where
  /-- The integer is at most half a step away. -/
  near : |number - integer| ≤ 1 / 2
  /-- Of the two integers around a half the even one is taken. -/
  even : |number - integer| = 1 / 2 → Even integer

variable {number greater : ℚ} {integer other : Int}

theorem RoundsTo.neg (rounds : RoundsTo number integer) : RoundsTo (-number) (-integer) := by
  have distance : |-number - (-integer : Int)| = |number - integer| := by
    rw [Int.cast_neg, neg_sub_neg, abs_sub_comm]
  refine ⟨?_, fun half => ?_⟩
  · rw [distance]
    exact rounds.near
  · rw [distance] at half
    exact (rounds.even half).neg

/-- Rounding keeps the order. -/
theorem RoundsTo.mono (rounds : RoundsTo number integer) (rounds_too : RoundsTo greater other)
    (ordered : number ≤ greater) : integer ≤ other := by
  by_contra above
  have apart : (other + 1 : ℚ) ≤ integer := by exact_mod_cast not_le.mp above
  have lower := (abs_le.mp rounds.near).1
  have upper := (abs_le.mp rounds_too.near).2
  -- Both numbers are the half between two neighbours, of which only one is even.
  have down : number - integer = -(1 / 2) := by linarith
  have up : greater - other = 1 / 2 := by linarith
  have neighbours : integer = other + 1 := by
    have cast : (integer : ℚ) = other + 1 := by linarith
    exact_mod_cast cast
  have even := rounds.even (by rw [down, abs_neg, abs_of_pos one_half_pos])
  have even_too := rounds_too.even (by rw [up, abs_of_pos one_half_pos])
  rw [neighbours] at even
  exact Int.even_add_one.mp even even_too

theorem RoundsTo.unique (rounds : RoundsTo number integer) (rounds_too : RoundsTo number other) :
    integer = other :=
  le_antisymm (rounds.mono rounds_too le_rfl) (rounds_too.mono rounds le_rfl)

/-- The units of a number are rounded to whole ones. -/
theorem Magnitude.roundsTo_value (magnitude : Magnitude) :
    RoundsTo magnitude.value (roundDiv magnitude.units unitsPerOne : Int) := by
  have positive : 0 < unitsPerOne := by exact_mod_cast unitsPerOne_pos
  obtain ⟨near, even⟩ := abs_sub_roundDiv magnitude.units positive
  refine ⟨by exact_mod_cast near, fun half => ?_⟩
  have parity := even (by exact_mod_cast half)
  exact_mod_cast Nat.even_iff.mpr parity

end HalfEven

namespace Magnitude

theorem value_nonneg (magnitude : Magnitude) : 0 ≤ magnitude.value :=
  div_nonneg (Nat.cast_nonneg _) unitsPerOne_pos.le

theorem value_le_value {magnitude other : Magnitude} (ordered : magnitude.rank ≤ other.rank) :
    magnitude.value ≤ other.value := by
  refine div_le_div_of_nonneg_right ?_ unitsPerOne_pos.le
  exact_mod_cast unitsAt_strictMono.monotone ordered

theorem value_of_rank_eq_zero {magnitude : Magnitude} (nothing : magnitude.rank = 0) :
    magnitude.value = 0 := by
  have no_units : magnitude.units = 0 := by
    rw [units_eq, nothing, if_pos (Nat.two_pow_pos 52)]
  rw [value, no_units, Nat.cast_zero, zero_div]

end Magnitude

namespace Double

section Order

/-- The exact value of a finite number. -/
def value? : Double → Option ℚ
  | .nan => none
  | .signed negative magnitude =>
    if magnitude = .infinity then none
    else some (if negative then -magnitude.value else magnitude.value)

variable {number other : Double} {value greater : ℚ}

theorem value?_signed (negative : Bool) {magnitude : Magnitude} (finite : magnitude ≠ .infinity) :
    (signed negative magnitude).value? =
      some (if negative then -magnitude.value else magnitude.value) :=
  if_neg finite

theorem exists_of_value? (exact : number.value? = some value) :
    ∃ negative magnitude, number = .signed negative magnitude ∧ magnitude ≠ .infinity ∧
      value = if negative then -magnitude.value else magnitude.value := by
  cases number with
  | nan => cases exact
  | signed negative magnitude =>
      rw [value?] at exact
      split at exact
      · cases exact
      · rename_i finite
        exact ⟨negative, magnitude, rfl, finite, (Option.some.inj exact).symm⟩

theorem le_signed_iff {negative other_negative : Bool} {magnitude other : Magnitude} :
    (signed negative magnitude).le (signed other_negative other) = true ↔
      (if negative then -(magnitude.rank : Int) else magnitude.rank) ≤
        if other_negative then -(other.rank : Int) else other.rank := by
  cases negative <;> cases other_negative <;> simp [le, position?]

/-- Finite numbers are ordered by their values. -/
theorem value_le_of_le (exact : number.value? = some value) (exact_too : other.value? = some greater)
    (ordered : number.le other = true) : value ≤ greater := by
  obtain ⟨negative, magnitude, rfl, -, rfl⟩ := exists_of_value? exact
  obtain ⟨other_negative, other, rfl, -, rfl⟩ := exists_of_value? exact_too
  rw [le_signed_iff] at ordered
  have nonnegative := magnitude.value_nonneg
  have other_nonnegative := other.value_nonneg
  cases negative <;> cases other_negative <;>
    simp only [Bool.false_eq_true, if_true, if_false] at ordered ⊢
  · exact Magnitude.value_le_value (by omega)
  · -- Only zeros are ordered against their signs.
    have nothing := Magnitude.value_of_rank_eq_zero (show magnitude.rank = 0 by omega)
    have nothing_too := Magnitude.value_of_rank_eq_zero (show other.rank = 0 by omega)
    rw [nothing, nothing_too, neg_zero]
  · linarith
  · exact neg_le_neg (Magnitude.value_le_value (by omega))

theorem ne_nan_of_le (ordered : number.le other = true) : number ≠ .nan ∧ other ≠ .nan := by
  constructor
  · rintro rfl
    cases ordered
  · rintro rfl
    rcases number with _ | ⟨_ | _, _⟩ <;> cases ordered

theorem le_self (ordered : number ≠ .nan) : number.le number = true := by
  cases number with
  | nan => exact absurd rfl ordered
  | signed negative magnitude => exact le_signed_iff.mpr le_rfl

theorem le_infinity (ordered : number ≠ .nan) : number.le infinity = true := by
  cases number with
  | nan => exact absurd rfl ordered
  | signed negative magnitude =>
      have bounded : magnitude.rank ≤ Magnitude.infinity.rank := magnitude.bounded
      refine le_signed_iff.mpr ?_
      simp only [Bool.false_eq_true, if_false]
      split <;> omega

theorem eq_infinity_of_le (ordered : infinity.le number = true) : number = infinity := by
  cases number with
  | nan => cases ordered
  | signed negative magnitude =>
      have positive : 0 < Magnitude.infinity.rank := by decide
      have reached := le_signed_iff.mp ordered
      cases negative with
      | true =>
          simp only [Bool.false_eq_true, if_false, if_true] at reached
          omega
      | false =>
          simp only [Bool.false_eq_true, if_false, Nat.cast_le] at reached
          rw [← Magnitude.ofRank_rank magnitude, Magnitude.ofRank_eq_infinity reached, infinity]

/-- Nothing finite is below the negative infinity. -/
theorem not_le_negativeInfinity (exact : number.value? = some value) :
    ¬number.le (.signed true .infinity) = true := by
  obtain ⟨negative, magnitude, rfl, finite, -⟩ := exists_of_value? exact
  have below : magnitude.rank < Magnitude.infinity.rank := Magnitude.rank_lt_of_ne_infinity finite
  rw [le_signed_iff]
  simp only [if_true]
  split <;> omega

end Order

section Argument

/-- The natural number whose factorial is taken.  A finite number is rounded, what lies below zero
counts as zero, and so does the negative infinity. -/
inductive CountsAs : Double → Nat → Prop
  | finite {number : Double} {value : ℚ} {integer : Int} (exact : number.value? = some value)
      (rounds : RoundsTo value integer) : CountsAs number integer.toNat
  | negativeInfinity : CountsAs (.signed true .infinity) 0

variable {number other : Double} {count more : Nat}

theorem CountsAs.ne_nan (counts : number.CountsAs count) : number ≠ .nan := by
  cases counts with
  | negativeInfinity => simp
  | finite exact rounds =>
      rintro rfl
      cases exact

/-- The natural numbers keep the order of the numbers that count as them. -/
theorem CountsAs.mono (counts : number.CountsAs count) (counts_too : other.CountsAs more)
    (ordered : number.le other = true) : count ≤ more := by
  cases counts with
  | negativeInfinity => exact Nat.zero_le more
  | finite exact rounds =>
      cases counts_too with
      | negativeInfinity => exact absurd ordered (not_le_negativeInfinity exact)
      | finite exact_too rounds_too =>
          exact Int.toNat_le_toNat
            (rounds.mono rounds_too (value_le_of_le exact exact_too ordered))

theorem CountsAs.unique (counts : number.CountsAs count) (counts_too : number.CountsAs more) :
    count = more := by
  have self := le_self counts.ne_nan
  exact le_antisymm (counts.mono counts_too self) (counts_too.mono counts self)

/-- The integer to which a finite number is rounded. -/
theorem roundsTo_signed (negative : Bool) (magnitude : Magnitude) :
    RoundsTo (if negative then -magnitude.value else magnitude.value)
      (if negative then -(roundDiv magnitude.units Magnitude.unitsPerOne : Int)
        else roundDiv magnitude.units Magnitude.unitsPerOne) := by
  cases negative with
  | true => exact magnitude.roundsTo_value.neg
  | false => exact magnitude.roundsTo_value

/-- Every number below the positive infinity counts as a natural number. -/
theorem exists_countsAs (ordered : number ≠ .nan) (bounded : number ≠ infinity) :
    ∃ count, number.CountsAs count := by
  cases number with
  | nan => exact absurd rfl ordered
  | signed negative magnitude =>
      by_cases infinite : magnitude = .infinity
      · subst infinite
        cases negative with
        | true => exact ⟨0, .negativeInfinity⟩
        | false => exact absurd rfl bounded
      · exact ⟨_, .finite (value?_signed negative infinite) (roundsTo_signed negative magnitude)⟩

end Argument

section Rounded

variable {number other : Double} {count : Nat}

theorem ofInt_natural (product : Nat) :
    ofInt product = .signed false (.ofRatio product 1) := by
  simp [ofInt]

theorem nearest_natural (product : Nat) : (Magnitude.ofRatio product 1).Nearest product := by
  simpa using Magnitude.nearest_ofRatio product one_pos

theorem le_ofInt {product greater : Nat} (ordered : product ≤ greater) :
    (ofInt product).le (ofInt greater) = true := by
  have ranks := (nearest_natural product).mono (nearest_natural greater) (by exact_mod_cast ordered)
  rw [ofInt_natural, ofInt_natural, le_signed_iff]
  simp only [Bool.false_eq_true, if_false]
  exact_mod_cast ranks

/-- From `171` on factorials reach the first power of two behind the doubles. -/
theorem two_pow_le_factorial (large : 170 < count) : 2 ^ 1024 ≤ count.factorial := by
  have least : 2 ^ 1024 ≤ Nat.factorial 171 := by decide +kernel
  exact least.trans (Nat.factorial_le large)

/-- The factorials that are not computed are exactly those beyond the doubles. -/
theorem beyond_iff (count : Nat) :
    170 < count ↔ (2 ^ 1024 - 2 ^ 970 : ℚ) ≤ count.factorial := by
  constructor
  · intro large
    have positive : (0 : ℚ) ≤ 2 ^ 970 := by positivity
    have reached : (2 ^ 1024 : ℚ) ≤ count.factorial := by
      exact_mod_cast two_pow_le_factorial large
    exact (sub_le_self _ positive).trans reached
  · intro beyond
    by_contra small
    have below : (count.factorial : ℚ) < 2 ^ 1023 := by
      exact_mod_cast factorial_lt_two_pow (not_lt.mp small)
    have half : (2 ^ 1023 : ℚ) ≤ 2 ^ 1024 - 2 ^ 970 := by
      have step : (2 : ℚ) ^ 970 ≤ 2 ^ 1023 := pow_le_pow_right₀ one_le_two (by omega)
      rw [le_sub_iff_add_le, pow_succ' (2 : ℚ) 1023, two_mul]
      exact add_le_add_right step _
    exact absurd (half.trans beyond) (not_le.mpr below)

/-- The factorial is the conversion of the product, also where the product is not computed. -/
theorem CountsAs.factorial_eq (counts : number.CountsAs count) :
    number.factorial = ofInt count.factorial := by
  cases counts with
  | negativeInfinity => rfl
  | finite exact rounds =>
      obtain ⟨negative, magnitude, rfl, finite, rfl⟩ := exists_of_value? exact
      obtain rfl := rounds.unique (roundsTo_signed negative magnitude)
      have kept : magnitude.isInfinite = false :=
        beq_false_of_ne (Magnitude.rank_lt_of_ne_infinity finite).ne
      rw [factorial, kept, if_neg Bool.false_ne_true]
      cases negative with
      | true =>
          have nothing : (-(roundDiv magnitude.units Magnitude.unitsPerOne : Int)).toNat = 0 := by
            omega
          rw [if_pos rfl, if_pos rfl, nothing]
          rfl
      | false =>
          rw [if_neg Bool.false_ne_true, if_neg Bool.false_ne_true, Int.toNat_natCast]
          dsimp only
          split
          · rename_i large
            rw [ofInt_natural, Magnitude.ofRatio_eq_infinity le_rfl (two_pow_le_factorial large)]
            rfl
          · rw [naturalFactorial_eq]

/-- The factorial of infinity is infinity, and every other factorial is the conversion of a
product. -/
theorem factorial_cases (ordered : number ≠ .nan) :
    number = infinity ∧ number.factorial = infinity ∨
      number ≠ infinity ∧ ∃ count, number.CountsAs count ∧
        number.factorial = ofInt count.factorial := by
  by_cases infinite : number = infinity
  · exact .inl ⟨infinite, by rw [infinite]; rfl⟩
  · obtain ⟨count, counts⟩ := exists_countsAs ordered infinite
    exact .inr ⟨infinite, count, counts, counts.factorial_eq⟩

theorem one_le_factorial (ordered : number ≠ .nan) : one.le number.factorial = true := by
  rcases factorial_cases ordered with ⟨-, result⟩ | ⟨-, count, -, result⟩
  · rw [result]
    exact le_infinity (by simp [one, ofInt])
  · rw [result]
    exact le_ofInt count.factorial_pos

/-- The factorial keeps the order of numbers. -/
theorem factorial_mono (ordered : number.le other = true) :
    number.factorial.le other.factorial = true := by
  obtain ⟨not_nan, other_not_nan⟩ := ne_nan_of_le ordered
  rcases factorial_cases other_not_nan with ⟨-, result⟩ | ⟨bounded, more, counts_too, result⟩
  · rw [result]
    exact le_infinity (ne_nan_of_le (one_le_factorial not_nan)).2
  · rcases factorial_cases not_nan with ⟨rfl, -⟩ | ⟨-, count, counts, own_result⟩
    · exact absurd (eq_infinity_of_le ordered) bounded
    · rw [result, own_result]
      exact le_ofInt (Nat.factorial_le (counts.mono counts_too ordered))

theorem CountsAs.factorial_eq_infinity_iff (counts : number.CountsAs count) :
    number.factorial = infinity ↔ (2 ^ 1024 - 2 ^ 970 : ℚ) ≤ count.factorial := by
  rw [counts.factorial_eq, ofInt_natural, infinity, Double.signed.injEq,
    ← (nearest_natural count.factorial).overflow]
  simp

end Rounded

/-- On every number the steps of the factorial succeed.  A number other than the positive infinity
counts as one natural number, its factorial is the double nearest to the factorial of this natural
number, and the result is infinity exactly for infinity and where the exact factorial lies beyond the
doubles, which is where the steps leave the product out.  The result is at least one, and a greater
number has a greater factorial or the same. -/
theorem factorial_is_nearest_and_monotone (number : Double) (ordered : number ≠ .nan) :
    number.factorialStepwise = .ok number.factorial ∧
      (number ≠ infinity → ∃! count, number.CountsAs count) ∧
      (∀ count, number.CountsAs count →
        (∃ result : Magnitude, number.factorial = .signed false result ∧
          result.Nearest count.factorial ∧
          ∀ other : Magnitude, other.Nearest count.factorial → other = result) ∧
        (170 < count ↔ (2 ^ 1024 - 2 ^ 970 : ℚ) ≤ count.factorial)) ∧
      (number.factorial = infinity ↔ number = infinity ∨
        ∃ count, number.CountsAs count ∧ (2 ^ 1024 - 2 ^ 970 : ℚ) ≤ count.factorial) ∧
      one.le number.factorial = true ∧
      ∀ other, number.le other = true → number.factorial.le other.factorial = true := by
  refine ⟨factorialStepwise_eq number, fun bounded => ?_, fun count counts => ⟨?_, beyond_iff count⟩,
    ⟨fun result => ?_, ?_⟩, one_le_factorial ordered, fun other => factorial_mono⟩
  · obtain ⟨count, counts⟩ := exists_countsAs ordered bounded
    exact ⟨count, counts, fun other counts_too => counts_too.unique counts⟩
  · have nearest := nearest_natural count.factorial
    exact ⟨_, counts.factorial_eq.trans (ofInt_natural _), nearest,
      fun other nearest_too => nearest_too.unique nearest⟩
  · refine (factorial_cases ordered).imp And.left ?_
    rintro ⟨-, count, counts, -⟩
    exact ⟨count, counts, counts.factorial_eq_infinity_iff.mp result⟩
  · rintro (rfl | ⟨count, counts, beyond⟩)
    · rfl
    · exact counts.factorial_eq_infinity_iff.mpr beyond

/-- The half behind `170` goes to the even integer, whose factorial is the last one among the
doubles. -/
theorem factorial_is_nearest_and_monotone_last_half :
    let number : Double := .signed false (.ofRatio 341 2)
    number ≠ .nan ∧ number.value? = some (341 / 2) ∧ number.CountsAs 170 ∧
      number.factorialStepwise = .ok number.factorial ∧
      (∃ result : Magnitude, number.factorial = .signed false result ∧
        result.Nearest (Nat.factorial 170)) ∧
      number.factorial ≠ infinity ∧ one.le number.factorial = true := by
  intro number
  have not_nan : number ≠ .nan := by simp [number]
  have finite : Magnitude.ofRatio 341 2 ≠ .infinity := by decide +kernel
  have exact : number.value? = some (341 / 2) := by
    have units : (Magnitude.ofRatio 341 2).units * 2 = 341 * Magnitude.unitsPerOne := by
      decide +kernel
    have cast : ((Magnitude.ofRatio 341 2).units : ℚ) * 2 = 341 * Magnitude.unitsPerOne := by
      exact_mod_cast units
    have value : (Magnitude.ofRatio 341 2).value = 341 / 2 := by
      rw [Magnitude.value, div_eq_div_iff Magnitude.unitsPerOne_pos.ne' two_ne_zero, cast]
    rw [value?_signed false finite, value]
    simp only [Bool.false_eq_true, if_false]
  have rounds : RoundsTo (341 / 2) 170 := ⟨by norm_num, fun _ => by decide⟩
  have counts : number.CountsAs 170 := .finite exact rounds
  obtain ⟨steps, -, nearest, infinite, least, -⟩ :=
    factorial_is_nearest_and_monotone number not_nan
  obtain ⟨⟨result, result_eq, result_nearest, -⟩, cut⟩ := nearest 170 counts
  refine ⟨not_nan, exact, counts, steps, ⟨result, result_eq, result_nearest⟩, ?_, least⟩
  rw [ne_eq, infinite]
  rintro (same | ⟨count, counts_too, beyond⟩)
  · exact finite (Double.signed.inj same).2
  · obtain rfl := counts_too.unique counts
    exact absurd (cut.mpr beyond) (by omega)

end Double

end GeneticProgram
