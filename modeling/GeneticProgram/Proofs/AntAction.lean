import GeneticProgram.Proofs.EvaluationCourse
import Mathlib.Algebra.Ring.Nat
import Mathlib.Data.List.Basic

/-!
# What an action does

An action without a move left changes nothing.  Any other action uses up one move; a turn or a skip
leaves the landscape as it is, and a move takes the food from the cell that the ant enters, one more
cell emptied if there was any.  All that is said about runs in a world is derived from this.
-/

namespace GeneticProgram

namespace Numbered

/-! Items of a list that are known by their numbers. -/

variable {Item : Type} {items : List Item} {number : Nat} {item : Item}

theorem set_eq_self (listed : items[number]? = some item) : items.set number item = items := by
  obtain ⟨bounded, rfl⟩ := List.getElem?_eq_some_iff.mp listed
  exact List.set_getElem_self bounded

/-- A replaced item may be changed before or after. -/
theorem set_modify (change : Item → Item) (items : List Item) (number : Nat) (item : Item) :
    (items.modify number change).set number (change item) =
      (items.set number item).modify number change := by
  induction items generalizing number with
  | nil => cases number <;> rfl
  | cons first rest induction =>
      cases number with
      | zero => rfl
      | succ number => simp [induction number]

/-- A replaced item gives its share of a sum back. -/
theorem sum_map_set (measure : Item → Nat) (listed : items[number]? = some item) (other : Item) :
    ((items.set number other).map measure).sum + measure item =
      (items.map measure).sum + measure other := by
  induction items generalizing number with
  | nil => cases listed
  | cons first rest induction =>
      cases number with
      | zero =>
          obtain rfl := Option.some.inj listed
          simp only [List.set_cons_zero, List.map_cons, List.sum_cons]
          omega
      | succ number =>
          have shared := induction listed
          simp only [List.set_cons_succ, List.map_cons, List.sum_cons]
          omega

end Numbered

namespace Landscape

/-- The location is one of the least nonnegative ones that name a cell. -/
def Contains (landscape : Landscape) (location : Location) : Prop :=
  0 ≤ location.x ∧ location.x < landscape.width ∧ 0 ≤ location.y ∧ location.y < landscape.height

theorem contains_wrap (landscape : Landscape) (location : Location) :
    landscape.Contains (landscape.wrap location) := by
  have width := landscape.width_pos
  have height := landscape.height_pos
  exact ⟨Int.emod_nonneg _ (by omega), Int.emod_lt_of_pos _ width,
    Int.emod_nonneg _ (by omega), Int.emod_lt_of_pos _ height⟩

theorem isFoodAt_iff {landscape : Landscape} {location : Location} :
    landscape.isFoodAt location = true ↔ landscape.wrap location ∈ landscape.food := by
  rw [isFoodAt, List.contains_iff_mem]

/-- Food taken from a cell is gone from there and nowhere else. -/
theorem isFoodAt_removeFoodAt_iff {landscape : Landscape} {cell location : Location} :
    (landscape.removeFoodAt cell).isFoodAt location = true ↔
      landscape.isFoodAt location = true ∧ landscape.wrap location ≠ landscape.wrap cell := by
  rw [isFoodAt_iff, isFoodAt_iff, and_comm]
  exact landscape.food_nodup.mem_erase_iff

/-- Where there is no food, none can be taken. -/
theorem removeFoodAt_eq_self {landscape : Landscape} {cell : Location}
    (bare : landscape.isFoodAt cell = false) : landscape.removeFoodAt cell = landscape := by
  have absent : landscape.wrap cell ∉ landscape.food := by
    rw [← isFoodAt_iff, bare]
    simp
  obtain ⟨width, height, food, _, _, _, _⟩ := landscape
  simp only [removeFoodAt, Landscape.mk.injEq, true_and]
  exact List.erase_of_not_mem absent

theorem foodCount_removeFoodAt {landscape : Landscape} {cell : Location}
    (stocked : landscape.isFoodAt cell = true) :
    (landscape.removeFoodAt cell).foodCount + 1 = landscape.foodCount := by
  have listed := isFoodAt_iff.mp stocked
  have positive := List.length_pos_of_mem listed
  have shortened := List.length_erase_of_mem listed
  simp only [foodCount, removeFoodAt]
  omega

end Landscape

namespace Ant

/-- A step ahead empties the cell that is entered, and food that was there counts as eaten. -/
theorem advance_eq (ant : Ant) (landscape : Landscape) :
    ant.advance landscape =
      ({ ant with
          moves := ant.moves + 1
          location := ant.locationAhead landscape
          eaten := ant.eaten + (landscape.isFoodAt (ant.locationAhead landscape)).toNat },
        landscape.removeFoodAt (ant.locationAhead landscape)) := by
  rw [advance]
  cases stocked : landscape.isFoodAt (ant.locationAhead landscape) with
  | false =>
      rw [Landscape.removeFoodAt_eq_self stocked]
      rfl
  | true => rfl

/-- What every action with a move left does to an ant and its landscape. -/
structure Acted (ant : Ant) (landscape : Landscape) (after : Ant × Landscape) : Prop where
  /-- The ant stays on its landscape. -/
  home : after.1.home = ant.home
  /-- The budget is a fixed one. -/
  maxMoves : after.1.maxMoves = ant.maxMoves
  /-- One move is used up. -/
  moves : after.1.moves = ant.moves + 1
  /-- The ant stays where it is or steps ahead. -/
  location : after.1.location = ant.location ∨ after.1.location = ant.locationAhead landscape
  /-- What is eaten is taken from the landscape. -/
  eaten : after.1.eaten + after.2.foodCount = ant.eaten + landscape.foodCount
  /-- At most one cell is emptied. -/
  bite : after.1.eaten ≤ ant.eaten + 1
  /-- The landscape keeps its columns. -/
  width : after.2.width = landscape.width
  /-- The landscape keeps its rows. -/
  height : after.2.height = landscape.height
  /-- No food appears. -/
  food : ∀ cell, after.2.isFoodAt cell = true → landscape.isFoodAt cell = true

theorem acted_advance (ant : Ant) (landscape : Landscape) :
    ant.Acted landscape (ant.advance landscape) := by
  rw [advance_eq]
  refine ⟨rfl, rfl, rfl, .inr rfl, ?_, ?_, rfl, rfl, fun cell stocked => ?_⟩
  · cases stocked : landscape.isFoodAt (ant.locationAhead landscape) with
    | false => rw [Landscape.removeFoodAt_eq_self stocked]; rfl
    | true =>
        have counted := Landscape.foodCount_removeFoodAt stocked
        simp only [Bool.toNat_true]
        omega
  · have single := Bool.toNat_le (landscape.isFoodAt (ant.locationAhead landscape))
    simp only
    omega
  · exact (Landscape.isFoodAt_removeFoodAt_iff.mp stocked).1

theorem acted_perform {ant : Ant} (able : ant.canAct = true) (action : Action)
    (landscape : Landscape) : ant.Acted landscape (ant.perform action landscape) := by
  cases action with
  | move =>
      rw [perform, if_pos able]
      exact ant.acted_advance landscape
  | turnLeft =>
      rw [perform, if_pos able]
      exact ⟨rfl, rfl, rfl, .inl rfl, rfl, Nat.le_succ _, rfl, rfl, fun _ => id⟩
  | turnRight =>
      rw [perform, if_pos able]
      exact ⟨rfl, rfl, rfl, .inl rfl, rfl, Nat.le_succ _, rfl, rfl, fun _ => id⟩
  | skip =>
      rw [perform, if_pos able]
      exact ⟨rfl, rfl, rfl, .inl rfl, rfl, Nat.le_succ _, rfl, rfl, fun _ => id⟩

theorem perform_of_exhausted {ant : Ant} (exhausted : ant.canAct = false) (action : Action)
    (landscape : Landscape) : ant.perform action landscape = (ant, landscape) := by
  cases action <;> rw [perform, exhausted] <;> rfl

theorem home_perform (ant : Ant) (action : Action) (landscape : Landscape) :
    (ant.perform action landscape).1.home = ant.home := by
  cases able : ant.canAct with
  | false => rw [perform_of_exhausted able]
  | true => exact (acted_perform able action landscape).home

end Ant

namespace World

theorem antOnLand?_eq_some_iff {world : World} {number : Nat} {ant : Ant} {landscape : Landscape} :
    world.antOnLand? number = some (ant, landscape) ↔
      world.ants[number]? = some ant ∧ world.landscapes[ant.home]? = some landscape := by
  simp only [antOnLand?, bind, Option.bind_eq_some_iff, pure, Option.some.injEq, Prod.mk.injEq]
  constructor
  · rintro ⟨found, listed, land, placed, rfl, rfl⟩
    exact ⟨listed, placed⟩
  · rintro ⟨listed, placed⟩
    exact ⟨ant, listed, landscape, placed, rfl, rfl⟩

/-- The world with an ant and its landscape replaced. -/
def update (world : World) (number : Nat) (ant : Ant) (after : Ant × Landscape) : World :=
  (world.setAnt number after.1).setLandscape ant.home after.2

theorem act_eq_update {world : World} {number : Nat} {ant : Ant} {landscape : Landscape}
    (standing : world.antOnLand? number = some (ant, landscape)) (action : Action) :
    world.act number action = world.update number ant (ant.perform action landscape) := by
  simp only [act, standing]
  rfl

theorem update_self {world : World} {number : Nat} {ant : Ant} {landscape : Landscape}
    (standing : world.antOnLand? number = some (ant, landscape)) :
    world.update number ant (ant, landscape) = world := by
  obtain ⟨listed, placed⟩ := antOnLand?_eq_some_iff.mp standing
  simp only [update, setAnt, setLandscape]
  rw [Numbered.set_eq_self listed, Numbered.set_eq_self placed]

/-- An ant without a move left changes nothing. -/
theorem act_of_exhausted {world : World} {number : Nat} {ant : Ant} {landscape : Landscape}
    (standing : world.antOnLand? number = some (ant, landscape)) (exhausted : ant.canAct = false)
    (action : Action) : world.act number action = world := by
  rw [act_eq_update standing, Ant.perform_of_exhausted exhausted, update_self standing]

/-- What an action can do to a world: nothing, or what it does to an ant with a move left and to
the landscape on which the ant stands. -/
theorem act_cases (world : World) (number : Nat) (action : Action) :
    world.act number action = world ∨
      ∃ ant landscape, world.antOnLand? number = some (ant, landscape) ∧ ant.canAct = true ∧
        world.act number action = world.update number ant (ant.perform action landscape) := by
  cases standing : world.antOnLand? number with
  | none => exact .inl (by simp only [act, standing])
  | some found =>
      obtain ⟨ant, landscape⟩ := found
      cases able : ant.canAct with
      | false => exact .inl (act_of_exhausted standing able action)
      | true => exact .inr ⟨ant, landscape, rfl, able, act_eq_update standing action⟩

end World

end GeneticProgram
