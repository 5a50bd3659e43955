import GeneticProgram.Proofs.PlaneWalk
import Mathlib.Data.Finset.Prod
import Mathlib.Data.Int.ModEq

/-!
# The food on a landscape

Food is put on cells and taken from them at any pair of integers, congruent pairs naming the same
cell.  One change settles what is found at the locations that are congruent to its own and leaves
all others as they were, so that after any history each cell is as the last change there left it.
The number of cells with food is counted from the same history.
-/

namespace GeneticProgram

/-- A change of the food on a landscape. -/
inductive FoodChange
  | place (location : Location)
  | remove (location : Location)

namespace FoodChange

/-- Where the change is made. -/
def location : FoodChange → Location
  | .place location => location
  | .remove location => location

/-- The change leaves food there. -/
def isPlacement : FoodChange → Bool
  | .place _ => true
  | .remove _ => false

end FoodChange

namespace Location

/-- Two locations name the same cell of a grid: their coordinates are congruent. -/
def SameCell (width height : Int) (first second : Location) : Prop :=
  first.x ≡ second.x [ZMOD width] ∧ first.y ≡ second.y [ZMOD height]

instance (width height : Int) (first second : Location) :
    Decidable (SameCell width height first second) :=
  inferInstanceAs (Decidable (_ ∧ _))

/-- The last change at a location that names the same cell. -/
def lastChange? (width height : Int) (history : List FoodChange) (location : Location) :
    Option FoodChange :=
  history.reverse.find? fun change => SameCell width height change.location location

/-- The last change at a location that names the same cell has left food there. -/
def isStocked (width height : Int) (history : List FoodChange) (location : Location) : Bool :=
  (location.lastChange? width height history).any FoodChange.isPlacement

theorem lastChange?_concat (width height : Int) (history : List FoodChange) (last : FoodChange)
    (location : Location) :
    location.lastChange? width height (history ++ [last]) =
      if SameCell width height last.location location then some last
      else location.lastChange? width height history := by
  rw [lastChange?, List.reverse_append, List.reverse_singleton, List.singleton_append,
    List.find?_cons]
  split
  · rename_i same
    rw [if_pos (of_decide_eq_true same)]
  · rename_i other
    rw [if_neg (of_decide_eq_false other), lastChange?]

end Location

namespace Landscape

open Location

variable {landscape : Landscape}

/-! ## One change -/

/-- The landscape after a change. -/
def change (landscape : Landscape) : FoodChange → Landscape
  | .place location => landscape.setFoodAt location
  | .remove location => landscape.removeFoodAt location

theorem wrap_eq_wrap_iff {first second : Location} :
    landscape.wrap first = landscape.wrap second ↔
      SameCell landscape.width landscape.height first second := by
  rw [wrap, wrap, Location.mk.injEq]
  exact Iff.rfl

/-- Locations that name the same cell hold the same food. -/
theorem isFoodAt_congr {first second : Location}
    (same : SameCell landscape.width landscape.height first second) :
    landscape.isFoodAt first = landscape.isFoodAt second := by
  rw [isFoodAt, isFoodAt, wrap_eq_wrap_iff.mpr same]

theorem setFoodAt_eq_self {location : Location} (stocked : landscape.isFoodAt location = true) :
    landscape.setFoodAt location = landscape :=
  dif_pos (isFoodAt_iff.mp stocked)

theorem food_setFoodAt {location : Location} (bare : landscape.isFoodAt location = false) :
    (landscape.setFoodAt location).food = landscape.wrap location :: landscape.food := by
  have absent : landscape.wrap location ∉ landscape.food := by
    rw [← isFoodAt_iff, bare]
    simp
  rw [setFoodAt, dif_neg absent]

theorem size_change (landscape : Landscape) (step : FoodChange) :
    (landscape.change step).width = landscape.width ∧
      (landscape.change step).height = landscape.height := by
  cases step with
  | place location =>
      rw [change, setFoodAt]
      split
      · exact ⟨rfl, rfl⟩
      · exact ⟨rfl, rfl⟩
  | remove location => exact ⟨rfl, rfl⟩

theorem wrap_change (landscape : Landscape) (step : FoodChange) (location : Location) :
    (landscape.change step).wrap location = landscape.wrap location := by
  obtain ⟨width_eq, height_eq⟩ := landscape.size_change step
  rw [wrap, wrap, width_eq, height_eq]

/-- Food that is put on a cell is found there, and nothing else has changed. -/
theorem isFoodAt_setFoodAt (landscape : Landscape) (cell location : Location) :
    (landscape.setFoodAt cell).isFoodAt location =
      if SameCell landscape.width landscape.height cell location then true
      else landscape.isFoodAt location := by
  cases stocked : landscape.isFoodAt cell with
  | true =>
      rw [setFoodAt_eq_self stocked]
      split
      · rename_i same
        rw [← isFoodAt_congr same, stocked]
      · rfl
  | false =>
      have wrapped : (landscape.setFoodAt cell).wrap location = landscape.wrap location :=
        landscape.wrap_change (.place cell) location
      rw [isFoodAt, food_setFoodAt stocked, wrapped, List.contains_cons, ← isFoodAt]
      split
      · rename_i same
        rw [wrap_eq_wrap_iff.mpr same, beq_self_eq_true, Bool.true_or]
      · rename_i other
        rw [beq_false_of_ne fun equal => other (wrap_eq_wrap_iff.mp equal.symm), Bool.false_or]

theorem isFoodAt_removeFoodAt (landscape : Landscape) (cell location : Location) :
    (landscape.removeFoodAt cell).isFoodAt location =
      if SameCell landscape.width landscape.height cell location then false
      else landscape.isFoodAt location := by
  rw [Bool.eq_iff_iff, isFoodAt_removeFoodAt_iff, ne_comm, Ne, wrap_eq_wrap_iff]
  split
  · rename_i same
    simp [same]
  · rename_i other
    simp [other]

/-- A change settles what is found on its cell and leaves the others as they were. -/
theorem isFoodAt_change (landscape : Landscape) (step : FoodChange) (location : Location) :
    (landscape.change step).isFoodAt location =
      if SameCell landscape.width landscape.height step.location location then step.isPlacement
      else landscape.isFoodAt location := by
  cases step with
  | place cell => exact landscape.isFoodAt_setFoodAt cell location
  | remove cell => exact landscape.isFoodAt_removeFoodAt cell location

/-- A change fills one cell more, one cell less or as many as before. -/
theorem foodCount_change (landscape : Landscape) (step : FoodChange) :
    (landscape.change step).foodCount ≤ landscape.foodCount + 1 ∧
      landscape.foodCount ≤ (landscape.change step).foodCount + 1 := by
  cases step with
  | place cell =>
      rw [change]
      cases stocked : landscape.isFoodAt cell with
      | true =>
          rw [setFoodAt_eq_self stocked]
          omega
      | false =>
          rw [foodCount, foodCount, food_setFoodAt stocked, List.length_cons]
          omega
  | remove cell =>
      rw [change]
      cases stocked : landscape.isFoodAt cell with
      | true =>
          have taken := foodCount_removeFoodAt stocked
          omega
      | false =>
          rw [removeFoodAt_eq_self stocked]
          omega

/-! ## A history of changes -/

/-- The landscape after a history of changes. -/
def after (landscape : Landscape) (history : List FoodChange) : Landscape :=
  history.foldl change landscape

theorem after_concat (landscape : Landscape) (history : List FoodChange) (last : FoodChange) :
    landscape.after (history ++ [last]) = (landscape.after history).change last := by
  rw [after, List.foldl_append, List.foldl_cons, List.foldl_nil, ← after]

theorem after_append (landscape : Landscape) (first second : List FoodChange) :
    landscape.after (first ++ second) = (landscape.after first).after second :=
  List.foldl_append

theorem size_after (landscape : Landscape) (history : List FoodChange) :
    (landscape.after history).width = landscape.width ∧
      (landscape.after history).height = landscape.height := by
  induction history using List.reverseRecOn with
  | nil => exact ⟨rfl, rfl⟩
  | append_singleton earlier last induction =>
      obtain ⟨width_eq, height_eq⟩ := (landscape.after earlier).size_change last
      rw [after_concat, width_eq, height_eq]
      exact induction

/-- On a landscape that was bare the last change at a cell decides what is found there. -/
theorem isFoodAt_after (bare : landscape.food = []) (history : List FoodChange)
    (location : Location) :
    (landscape.after history).isFoodAt location =
      location.isStocked landscape.width landscape.height history := by
  induction history using List.reverseRecOn with
  | nil =>
      rw [after, List.foldl_nil, isFoodAt, bare]
      rfl
  | append_singleton earlier last induction =>
      obtain ⟨width_eq, height_eq⟩ := landscape.size_after earlier
      rw [after_concat, isFoodAt_change, width_eq, height_eq, induction, isStocked, isStocked,
        lastChange?_concat]
      split
      · rfl
      · rfl

/-- A new landscape is a bare one on which the given food was put, cell by cell. -/
theorem create_eq_after {width height : Int} (wide : 0 < width) (high : 0 < height)
    (food : List Location) :
    ∃ bare : Landscape, bare.width = width ∧ bare.height = height ∧ bare.food = [] ∧
      create width height food = .ok (bare.after (food.map .place)) := by
  refine ⟨⟨width, height, [], wide, high, List.nodup_nil, by simp⟩, rfl, rfl, rfl, ?_⟩
  rw [create, dif_pos ⟨wide, high⟩, after, List.foldl_map]
  rfl

/-! ## The cells with food -/

/-- The cells of a grid, each by its least coordinates. -/
def cells (width height : Int) : Finset (Nat × Nat) :=
  Finset.range width.toNat ×ˢ Finset.range height.toNat

/-- The location of a cell. -/
def locationOf (cell : Nat × Nat) : Location := ⟨cell.1, cell.2⟩

theorem locationOf_injective : Function.Injective locationOf := by
  rintro ⟨x, y⟩ ⟨x', y'⟩ same
  obtain ⟨first, second⟩ := Location.mk.inj same
  exact Prod.ext (Int.ofNat.inj first) (Int.ofNat.inj second)

theorem mem_cells_iff {cell : Nat × Nat} :
    cell ∈ cells landscape.width landscape.height ↔ landscape.Contains (locationOf cell) := by
  rw [cells, Finset.mem_product, Finset.mem_range, Finset.mem_range, Int.lt_toNat, Int.lt_toNat,
    Contains, locationOf]
  constructor
  · rintro ⟨east, south⟩
    exact ⟨Int.natCast_nonneg _, east, Int.natCast_nonneg _, south⟩
  · rintro ⟨-, east, -, south⟩
    exact ⟨east, south⟩

theorem exists_locationOf {location : Location} (within : landscape.Contains location) :
    ∃ cell, locationOf cell = location := by
  refine ⟨(location.x.toNat, location.y.toNat), ?_⟩
  rw [locationOf, Int.toNat_of_nonneg within.1, Int.toNat_of_nonneg within.2.2.1]

/-- The cells with food are counted once each. -/
theorem foodCount_eq_card (landscape : Landscape) :
    landscape.foodCount =
      ((cells landscape.width landscape.height).filter fun cell =>
        landscape.isFoodAt (locationOf cell)).card := by
  rw [foodCount, ← List.toFinset_card_of_nodup landscape.food_nodup,
    ← Finset.card_image_of_injective _ locationOf_injective]
  congr 1
  ext location
  rw [List.mem_toFinset, Finset.mem_image]
  constructor
  · intro listed
    have within := contains_of_mem_food listed
    obtain ⟨cell, rfl⟩ := exists_locationOf within
    refine ⟨cell, Finset.mem_filter.mpr ⟨mem_cells_iff.mpr within, ?_⟩, rfl⟩
    rwa [isFoodAt_iff, wrap_of_contains within]
  · rintro ⟨cell, filtered, rfl⟩
    obtain ⟨listed, stocked⟩ := Finset.mem_filter.mp filtered
    rwa [isFoodAt_iff, wrap_of_contains (mem_cells_iff.mp listed)] at stocked

theorem foodCount_le (landscape : Landscape) :
    (landscape.foodCount : Int) ≤ landscape.width * landscape.height := by
  have bounded := landscape.foodCount_eq_card.trans_le (Finset.card_filter_le _ _)
  rw [cells, Finset.card_product, Finset.card_range, Finset.card_range] at bounded
  calc
    (landscape.foodCount : Int) ≤ (landscape.width.toNat * landscape.height.toNat : Nat) :=
      Int.ofNat_le.mpr bounded
    _ = landscape.width * landscape.height := by
      rw [Int.natCast_mul, Int.toNat_of_nonneg landscape.width_pos.le,
        Int.toNat_of_nonneg landscape.height_pos.le]

/-- After any history the last change at a congruent location, the first food included, decides what
is found at a location.  As many cells hold food as were left with it, at most as many as there are,
and each change makes a difference of at most one. -/
theorem food_decided_by_last_change {width height : Int} (wide : 0 < width) (high : 0 < height)
    (food : List Location) :
    ∃ landscape, create width height food = .ok landscape ∧
      ∀ changes : List FoodChange,
        let history := food.map FoodChange.place ++ changes
        (∀ location, (landscape.after changes).isFoodAt location =
          location.isStocked width height history) ∧
        (landscape.after changes).foodCount =
          ((cells width height).filter fun cell =>
            (locationOf cell).isStocked width height history).card ∧
        ((landscape.after changes).foodCount : Int) ≤ width * height ∧
        ∀ last, (landscape.after (changes ++ [last])).foodCount ≤
            (landscape.after changes).foodCount + 1 ∧
          (landscape.after changes).foodCount ≤
            (landscape.after (changes ++ [last])).foodCount + 1 := by
  obtain ⟨bare, rfl, rfl, empty, created⟩ := create_eq_after wide high food
  refine ⟨_, created, fun changes => ?_⟩
  rw [← after_append]
  obtain ⟨width_eq, height_eq⟩ := bare.size_after (food.map .place ++ changes)
  have found := bare.isFoodAt_after empty (food.map .place ++ changes)
  refine ⟨found, ?_, ?_, fun last => ?_⟩
  · rw [foodCount_eq_card, width_eq, height_eq]
    simp only [found]
  · rw [← width_eq, ← height_eq]
    exact foodCount_le _
  · rw [after_concat, ← after_append]
    exact foodCount_change _ last

/-- One cell is filled again under another name, one is emptied from far away, and one is filled
from across the border. -/
theorem food_decided_by_last_change_four_by_three :
    (0 : Int) < 4 ∧ (0 : Int) < 3 ∧
      ∃ landscape, create 4 3 [⟨0, 0⟩, ⟨3, 2⟩] = .ok landscape ∧
        let later := landscape.after
          [.place ⟨-1, -1⟩, .remove ⟨4000000000000000000000, -3⟩, .place ⟨5, -1⟩]
        later.isFoodAt ⟨0, 0⟩ = false ∧ later.isFoodAt ⟨-7, 3000000000000000000002⟩ = true ∧
          later.foodCount = 2 := by
  have wide : (0 : Int) < 4 := by decide
  have high : (0 : Int) < 3 := by decide
  obtain ⟨landscape, created, law⟩ := food_decided_by_last_change wide high [⟨0, 0⟩, ⟨3, 2⟩]
  obtain ⟨found, counted, -, -⟩ :=
    law [.place ⟨-1, -1⟩, .remove ⟨4000000000000000000000, -3⟩, .place ⟨5, -1⟩]
  refine ⟨wide, high, landscape, created, (found _).trans ?_, (found _).trans ?_,
    counted.trans ?_⟩
  · decide
  · decide
  · decide

end Landscape
end GeneticProgram
