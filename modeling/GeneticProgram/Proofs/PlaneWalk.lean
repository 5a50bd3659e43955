import GeneticProgram.Proofs.AntAction
import Mathlib.Algebra.BigOperators.Group.List.Basic
import Mathlib.Data.List.Nodup
import Mathlib.Logic.Function.Iterate
import Mathlib.Tactic.LinearCombination

/-!
# The plane walk behind a run

An ant that wraps its location at every step ends where it would end on the infinite plane, wrapped
once.  Its run takes the actions for which the budget lasts and drops the others; the ant has then
turned by the balance of its turns, and the cells that are named by the places of the plane walk are
empty, each of them eaten once.  A straight walk as long as the landscape is wide or high leads back
to its start and has emptied the row or the column.
-/

namespace GeneticProgram

namespace Orientation

/-- The direction after a number of quarter turns clockwise. -/
def turned (orientation : Orientation) (quarters : Int) : Orientation :=
  right^[(quarters % 4).toNat] orientation

theorem turned_zero (orientation : Orientation) : orientation.turned 0 = orientation := rfl

theorem turned_right (orientation : Orientation) (quarters : Int) :
    orientation.right.turned quarters = orientation.turned (quarters + 1) := by
  have quarter : quarters % 4 = 0 ∧ (quarters + 1) % 4 = 1 ∨
      quarters % 4 = 1 ∧ (quarters + 1) % 4 = 2 ∨
      quarters % 4 = 2 ∧ (quarters + 1) % 4 = 3 ∨
      quarters % 4 = 3 ∧ (quarters + 1) % 4 = 0 := by omega
  rcases quarter with ⟨before, after⟩ | ⟨before, after⟩ | ⟨before, after⟩ | ⟨before, after⟩ <;>
    rw [turned, turned, before, after] <;> cases orientation <;> rfl

theorem turned_left (orientation : Orientation) (quarters : Int) :
    orientation.left.turned quarters = orientation.turned (quarters - 1) := by
  have back : orientation.left.right = orientation := by cases orientation <;> rfl
  have turn := orientation.left.turned_right (quarters - 1)
  rw [back, sub_add_cancel] at turn
  exact turn.symm

theorem step_along_row {orientation : Orientation}
    (facing : orientation = .east ∨ orientation = .west) :
    orientation.step.y = 0 ∧ (orientation.step.x = 1 ∨ orientation.step.x = -1) := by
  rcases facing with rfl | rfl <;> decide

theorem step_along_column {orientation : Orientation}
    (facing : orientation = .north ∨ orientation = .south) :
    orientation.step.x = 0 ∧ (orientation.step.y = 1 ∨ orientation.step.y = -1) := by
  rcases facing with rfl | rfl <;> decide

/-- The steps of the moves among some actions, on the plane. -/
def strides : Orientation → List Action → List Location
  | _, [] => []
  | orientation, .move :: rest => orientation.step :: strides orientation rest
  | orientation, .turnLeft :: rest => strides orientation.left rest
  | orientation, .turnRight :: rest => strides orientation.right rest
  | orientation, .skip :: rest => strides orientation rest

theorem strides_replicate_move (orientation : Orientation) (count : Nat) :
    orientation.strides (List.replicate count .move) = List.replicate count orientation.step := by
  induction count with
  | zero => rfl
  | succ count induction => rw [List.replicate_succ, strides, induction, List.replicate_succ]

end Orientation

/-- The right turns among some actions less the left turns. -/
def Action.quarterTurns (actions : List Action) : Int :=
  actions.count .turnRight - actions.count .turnLeft

@[simp] theorem Action.quarterTurns_move (rest : List Action) :
    quarterTurns (.move :: rest) = quarterTurns rest := rfl

@[simp] theorem Action.quarterTurns_turnLeft (rest : List Action) :
    quarterTurns (.turnLeft :: rest) = quarterTurns rest - 1 := by
  rw [quarterTurns, List.count_cons_of_ne (by decide), List.count_cons_self, quarterTurns]
  omega

@[simp] theorem Action.quarterTurns_turnRight (rest : List Action) :
    quarterTurns (.turnRight :: rest) = quarterTurns rest + 1 := by
  rw [quarterTurns, List.count_cons_self, List.count_cons_of_ne (by decide), quarterTurns]
  omega

@[simp] theorem Action.quarterTurns_skip (rest : List Action) :
    quarterTurns (.skip :: rest) = quarterTurns rest := rfl

namespace Location

/-- The place one step away. -/
def shift (location step : Location) : Location := ⟨location.x + step.x, location.y + step.y⟩

/-- The place reached by some steps, one after another. -/
def displace (start : Location) (steps : List Location) : Location :=
  ⟨start.x + (steps.map x).sum, start.y + (steps.map y).sum⟩

/-- The places entered by some steps, one after another. -/
def trail : Location → List Location → List Location
  | _, [] => []
  | start, step :: rest => start.shift step :: trail (start.shift step) rest

theorem displace_nil (start : Location) : start.displace [] = start := by
  simp [displace]

theorem displace_cons (start step : Location) (rest : List Location) :
    start.displace (step :: rest) = (start.shift step).displace rest := by
  simp [displace, shift, add_assoc]

theorem displace_replicate (start step : Location) (count : Nat) :
    start.displace (List.replicate count step) =
      ⟨start.x + count * step.x, start.y + count * step.y⟩ := by
  simp [displace]

/-- A straight walk enters the places at the distances up to its length. -/
theorem mem_trail_replicate {start step place : Location} {count : Nat} :
    place ∈ start.trail (List.replicate count step) ↔
      ∃ distance, 0 < distance ∧ distance ≤ count ∧
        place = start.displace (List.replicate distance step) := by
  induction count generalizing start with
  | zero =>
      constructor
      · intro entered
        cases entered
      · rintro ⟨distance, positive, bounded, -⟩
        omega
  | succ count induction =>
      rw [List.replicate_succ, trail, List.mem_cons, induction]
      constructor
      · rintro (rfl | ⟨distance, -, bounded, rfl⟩)
        · exact ⟨1, by omega, by omega, by rw [List.replicate_one, displace_cons, displace_nil]⟩
        · exact ⟨distance + 1, by omega, by omega, by rw [List.replicate_succ, displace_cons]⟩
      · rintro ⟨distance, positive, bounded, rfl⟩
        obtain ⟨earlier, rfl⟩ := Nat.exists_eq_succ_of_ne_zero positive.ne'
        rw [List.replicate_succ, displace_cons]
        rcases Nat.eq_zero_or_pos earlier with rfl | later
        · exact .inl (displace_nil _)
        · exact .inr ⟨earlier, later, by omega, rfl⟩

end Location

namespace Landscape

theorem wrap_of_contains {landscape : Landscape} {location : Location}
    (within : landscape.Contains location) : landscape.wrap location = location := by
  obtain ⟨west, east, north, south⟩ := within
  rw [wrap, Int.emod_eq_of_lt west east, Int.emod_eq_of_lt north south]

theorem contains_of_mem_food {landscape : Landscape} {cell : Location}
    (listed : cell ∈ landscape.food) : landscape.Contains cell := by
  rw [← landscape.food_wrapped cell listed]
  exact landscape.contains_wrap cell

/-- Before some steps it makes no difference whether the start is wrapped. -/
theorem wrap_displace_wrap (landscape : Landscape) (start : Location) (steps : List Location) :
    landscape.wrap ((landscape.wrap start).displace steps) =
      landscape.wrap (start.displace steps) := by
  simp [wrap, Location.displace]

theorem wrap_shift_wrap (landscape : Landscape) (start step : Location) :
    landscape.wrap ((landscape.wrap start).shift step) = landscape.wrap (start.shift step) := by
  simp [wrap, Location.shift]

/-- The cells that are entered from a place by some steps. -/
def cellsEntered (landscape : Landscape) (start : Location) (steps : List Location) :
    List Location :=
  (start.trail steps).map landscape.wrap

theorem cellsEntered_cons (landscape : Landscape) (start step : Location)
    (rest : List Location) :
    landscape.cellsEntered start (step :: rest) =
      landscape.wrap (start.shift step) :: landscape.cellsEntered (start.shift step) rest := rfl

/-- A walk enters the same cells from any place that names its start. -/
theorem cellsEntered_congr {landscape : Landscape} {first second : Location}
    (same : landscape.wrap first = landscape.wrap second) (steps : List Location) :
    landscape.cellsEntered first steps = landscape.cellsEntered second steps := by
  induction steps generalizing first second with
  | nil => rfl
  | cons step rest induction =>
      have next : landscape.wrap (first.shift step) = landscape.wrap (second.shift step) := by
        rw [← wrap_shift_wrap, same, wrap_shift_wrap]
      rw [cellsEntered_cons, cellsEntered_cons, next, induction next]

theorem mem_cellsEntered_replicate {landscape : Landscape} {start step cell : Location}
    {count : Nat} :
    cell ∈ landscape.cellsEntered start (List.replicate count step) ↔
      ∃ distance : Nat, 0 < distance ∧ distance ≤ count ∧
        cell.x = (start.x + distance * step.x) % landscape.width ∧
        cell.y = (start.y + distance * step.y) % landscape.height := by
  obtain ⟨x, y⟩ := cell
  simp only [cellsEntered, List.mem_map, Location.mem_trail_replicate]
  constructor
  · rintro ⟨_, ⟨distance, positive, bounded, rfl⟩, same⟩
    rw [Location.displace_replicate, wrap, Location.mk.injEq] at same
    exact ⟨distance, positive, bounded, same.1.symm, same.2.symm⟩
  · rintro ⟨distance, positive, bounded, rfl, rfl⟩
    refine ⟨_, ⟨distance, positive, bounded, rfl⟩, ?_⟩
    rw [Location.displace_replicate, wrap]

/-- In steps of one every residue is met within one round. -/
theorem exists_distance {size target unit : Int} (nonnegative : 0 ≤ target)
    (bounded : target < size) (single : unit = 1 ∨ unit = -1) (start : Int) :
    ∃ distance : Nat, 0 < distance ∧ distance ≤ size.toNat ∧
      target = (start + distance * unit) % size := by
  have positive : 0 < size := by omega
  obtain ⟨ahead, ahead_eq⟩ : ∃ ahead, ahead = (target - start) * unit - 1 := ⟨_, rfl⟩
  have least := Int.emod_nonneg ahead positive.ne'
  have less := Int.emod_lt_of_pos ahead positive
  refine ⟨(ahead % size).toNat + 1, by omega, by omega, ?_⟩
  have square : unit * unit = 1 := by rcases single with rfl | rfl <;> rfl
  have reached : start + ((ahead % size).toNat + 1 : Nat) * unit =
      target + size * (-(ahead / size) * unit) := by
    rw [Nat.cast_succ, Int.toNat_of_nonneg least, Int.emod_def]
    linear_combination (target - start) * square + unit * ahead_eq
  rw [reached, Int.add_mul_emod_self_left, Int.emod_eq_of_lt nonnegative bounded]

section Round

variable {landscape : Landscape} {start step cell : Location}

/-- Once around to the east or to the west all of a row is entered. -/
theorem contains_cellsEntered_row (within : landscape.Contains start)
    (inside : landscape.Contains cell) (level : step.y = 0)
    (single : step.x = 1 ∨ step.x = -1) :
    (landscape.cellsEntered start (List.replicate landscape.width.toNat step)).contains cell =
      (cell.y == start.y) := by
  obtain ⟨-, -, north, south⟩ := within
  obtain ⟨distance, positive, bounded, met⟩ :=
    exists_distance inside.1 inside.2.1 single start.x
  rw [Bool.eq_iff_iff, List.contains_iff_mem, mem_cellsEntered_replicate, beq_iff_eq]
  simp only [level, mul_zero, add_zero, Int.emod_eq_of_lt north south]
  exact ⟨fun ⟨_, _, _, _, aligned⟩ => aligned,
    fun aligned => ⟨distance, positive, bounded, met, aligned⟩⟩

/-- Once around to the north or to the south all of a column is entered. -/
theorem contains_cellsEntered_column (within : landscape.Contains start)
    (inside : landscape.Contains cell) (upright : step.x = 0)
    (single : step.y = 1 ∨ step.y = -1) :
    (landscape.cellsEntered start (List.replicate landscape.height.toNat step)).contains cell =
      (cell.x == start.x) := by
  obtain ⟨west, east, -, -⟩ := within
  obtain ⟨distance, positive, bounded, met⟩ :=
    exists_distance inside.2.2.1 inside.2.2.2 single start.y
  rw [Bool.eq_iff_iff, List.contains_iff_mem, mem_cellsEntered_replicate, beq_iff_eq]
  simp only [upright, mul_zero, add_zero, Int.emod_eq_of_lt west east]
  exact ⟨fun ⟨_, _, _, aligned, _⟩ => aligned,
    fun aligned => ⟨distance, positive, bounded, aligned, met⟩⟩

theorem wrap_displace_row (within : landscape.Contains start) (level : step.y = 0) :
    landscape.wrap (start.displace (List.replicate landscape.width.toNat step)) = start := by
  rw [Location.displace_replicate, level, Int.toNat_of_nonneg landscape.width_pos.le, mul_zero,
    add_zero, wrap, Int.add_mul_emod_self_left]
  exact wrap_of_contains within

theorem wrap_displace_column (within : landscape.Contains start) (upright : step.x = 0) :
    landscape.wrap (start.displace (List.replicate landscape.height.toNat step)) = start := by
  rw [Location.displace_replicate, upright, Int.toNat_of_nonneg landscape.height_pos.le, mul_zero,
    add_zero, wrap, Int.add_mul_emod_self_left]
  exact wrap_of_contains within

end Round

/-- The landscape without the food on some cells. -/
def clear (landscape : Landscape) (gone : Location → Bool) : Landscape :=
  { landscape with
    food := landscape.food.filter fun cell => !gone cell
    food_nodup := landscape.food_nodup.filter _
    food_wrapped := fun cell listed => landscape.food_wrapped cell (List.mem_of_mem_filter listed) }

@[simp] theorem wrap_clear (landscape : Landscape) (gone : Location → Bool) :
    (landscape.clear gone).wrap = landscape.wrap := rfl

@[simp] theorem cellsEntered_clear (landscape : Landscape) (gone : Location → Bool) :
    (landscape.clear gone).cellsEntered = landscape.cellsEntered := rfl

/-- Only the cells that hold food matter. -/
theorem clear_congr {landscape : Landscape} {first second : Location → Bool}
    (agree : ∀ cell ∈ landscape.food, first cell = second cell) :
    landscape.clear first = landscape.clear second := by
  simp only [clear, mk.injEq, true_and]
  exact List.filter_congr fun cell listed => by rw [agree cell listed]

/-- Cells can be cleared one after another. -/
theorem clear_cons (landscape : Landscape) (cell : Location) (cells : List Location) :
    landscape.clear (cell :: cells).contains =
      (landscape.clear (· == cell)).clear cells.contains := by
  simp only [clear, List.filter_filter, List.contains_cons, Bool.not_or, Bool.and_comm]

theorem clear_eq_self {landscape : Landscape} {gone : Location → Bool}
    (kept : ∀ cell ∈ landscape.food, gone cell = false) : landscape.clear gone = landscape := by
  obtain ⟨width, height, food, _, _, _, _⟩ := landscape
  simp only [clear, mk.injEq, true_and]
  exact List.filter_eq_self.mpr fun cell listed => by rw [kept cell listed]; rfl

theorem removeFoodAt_eq_clear (landscape : Landscape) (cell : Location) :
    landscape.removeFoodAt cell = landscape.clear (· == landscape.wrap cell) := by
  simp only [removeFoodAt, clear, mk.injEq, true_and]
  exact landscape.food_nodup.erase_eq_filter _

/-- What is cleared and what is left add up. -/
theorem foodCount_clear (landscape : Landscape) (gone : Location → Bool) :
    landscape.food.countP gone + (landscape.clear gone).foodCount = landscape.foodCount := by
  rw [foodCount, foodCount, landscape.food.length_eq_countP_add_countP gone, clear,
    ← List.countP_eq_length_filter]
  simp only [Bool.not_eq_true, Bool.decide_eq_false]

/-- A cell that is cleared again is not counted again. -/
theorem countP_food_cons (landscape : Landscape) (cell : Location) (cells : List Location) :
    landscape.food.countP (cell :: cells).contains =
      landscape.food.count cell + (landscape.clear (· == cell)).food.countP cells.contains := by
  have together := landscape.foodCount_clear (cell :: cells).contains
  have once := landscape.foodCount_clear (· == cell)
  have again := (landscape.clear (· == cell)).foodCount_clear cells.contains
  rw [clear_cons] at together
  rw [List.count]
  omega

theorem toNat_isFoodAt (landscape : Landscape) (cell : Location) :
    (landscape.isFoodAt cell).toNat = landscape.food.count (landscape.wrap cell) := by
  rw [isFoodAt, landscape.food_nodup.count]
  cases stocked : landscape.food.contains (landscape.wrap cell) with
  | false => rw [if_neg (by simpa using stocked), Bool.toNat_false]
  | true => rw [if_pos (by simpa using stocked), Bool.toNat_true]

end Landscape

namespace Ant

/-- The moves that the budget still allows, none if it is overdrawn. -/
def movesLeft (ant : Ant) : Nat := (max 0 (ant.maxMoves - ant.moves)).toNat

/-- What a walk on the plane makes of an ant and its landscape: all turns are made, the end of the
walk is wrapped, and the cells that are entered are emptied, each of them once. -/
def walked (actions : List Action) (ant : Ant) (landscape : Landscape) : Ant × Landscape :=
  let steps := ant.orientation.strides actions
  let entered := landscape.cellsEntered ant.location steps
  ({ ant with
      moves := ant.moves + actions.length
      location := landscape.wrap (ant.location.displace steps)
      orientation := ant.orientation.turned (Action.quarterTurns actions)
      eaten := ant.eaten + landscape.food.countP entered.contains },
    landscape.clear entered.contains)

variable {ant : Ant} {landscape : Landscape}

theorem walked_nil (within : landscape.Contains ant.location) :
    ant.walked [] landscape = (ant, landscape) := by
  have bare : landscape.clear ([] : List Location).contains = landscape :=
    Landscape.clear_eq_self fun _ _ => List.contains_nil
  have uneaten : landscape.food.countP ([] : List Location).contains = 0 :=
    List.countP_eq_zero.mpr fun _ _ => by simp
  simp only [walked, Orientation.strides, Landscape.cellsEntered, Location.trail, List.map_nil]
  rw [bare, uneaten, Location.displace_nil, Landscape.wrap_of_contains within]
  rfl

theorem perform_move (able : ant.canAct = true) :
    ant.perform .move landscape =
      ({ ant with
          moves := ant.moves + 1
          location := ant.locationAhead landscape
          eaten := ant.eaten + landscape.food.count (ant.locationAhead landscape) },
        landscape.clear (· == ant.locationAhead landscape)) := by
  have wrapped : landscape.wrap (ant.locationAhead landscape) = ant.locationAhead landscape :=
    landscape.wrap_wrap _
  rw [perform, if_pos able, advance_eq, Landscape.toNat_isFoodAt, Landscape.removeFoodAt_eq_clear,
    wrapped]

/-- A walk is its first action and the walk that remains. -/
theorem walked_cons (able : ant.canAct = true) (action : Action) (rest : List Action) :
    ant.walked (action :: rest) landscape =
      (ant.perform action landscape).1.walked rest (ant.perform action landscape).2 := by
  have longer : ant.moves + (rest.length + 1) = ant.moves + 1 + rest.length := by omega
  cases action with
  | move =>
      -- The rest of the walk starts at a wrapped place and enters the same cells from there.
      have same := Landscape.cellsEntered_congr
        (landscape.wrap_wrap (ant.location.shift ant.orientation.step))
        (ant.orientation.strides rest)
      have ahead : ant.locationAhead landscape =
        landscape.wrap (ant.location.shift ant.orientation.step) := rfl
      rw [perform_move able, ahead]
      simp only [walked, Orientation.strides, Landscape.cellsEntered_cons, Location.displace_cons,
        Landscape.wrap_clear, Landscape.cellsEntered_clear, Landscape.wrap_displace_wrap, same,
        Landscape.clear_cons, Landscape.countP_food_cons, List.length_cons, longer,
        Action.quarterTurns_move, Nat.add_assoc]
  | turnLeft =>
      rw [perform, if_pos able]
      simp only [walked, Orientation.strides, Orientation.turned_left, List.length_cons, longer,
        Action.quarterTurns_turnLeft]
  | turnRight =>
      rw [perform, if_pos able]
      simp only [walked, Orientation.strides, Orientation.turned_right, List.length_cons, longer,
        Action.quarterTurns_turnRight]
  | skip =>
      rw [perform, if_pos able]
      simp only [walked, Orientation.strides, List.length_cons, longer, Action.quarterTurns_skip]

/-- An ant that acts stays on its landscape. -/
theorem contains_perform (within : landscape.Contains ant.location) (able : ant.canAct = true)
    (action : Action) :
    (ant.perform action landscape).2.Contains (ant.perform action landscape).1.location := by
  have acted := acted_perform able action landscape
  rw [Landscape.Contains, acted.width, acted.height]
  rcases acted.location with stays | steps
  · rw [stays]
    exact within
  · rw [steps]
    exact landscape.contains_wrap _

theorem movesLeft_of_exhausted (exhausted : ant.canAct = false) : ant.movesLeft = 0 := by
  have used : ant.maxMoves ≤ ant.moves := by simpa [canAct] using exhausted
  rw [movesLeft]
  omega

theorem movesLeft_perform (able : ant.canAct = true) (action : Action) (landscape : Landscape) :
    ant.movesLeft = (ant.perform action landscape).1.movesLeft + 1 := by
  have acted := acted_perform able action landscape
  have left : (ant.moves : Int) < ant.maxMoves := by simpa [canAct] using able
  rw [movesLeft, movesLeft, acted.maxMoves, acted.moves]
  omega

theorem performAll_cons (action : Action) (rest : List Action) :
    ant.performAll (action :: rest) landscape =
      (ant.perform action landscape).1.performAll rest (ant.perform action landscape).2 := rfl

/-- A run is the wrapped walk of the actions for which the budget lasts. -/
theorem performAll_eq_walked (within : landscape.Contains ant.location) (actions : List Action) :
    ant.performAll actions landscape = ant.walked (actions.take ant.movesLeft) landscape := by
  -- An exhausted ant drops the action; any other ant takes the first step of its walk.
  induction actions generalizing ant landscape with
  | nil => rw [List.take_nil, walked_nil within]; rfl
  | cons action rest induction =>
      rw [performAll_cons]
      cases able : ant.canAct with
      | false =>
          rw [perform_of_exhausted able, induction within, movesLeft_of_exhausted able,
            List.take_zero, List.take_zero]
      | true =>
          rw [induction (contains_perform within able action),
            movesLeft_perform able action landscape, List.take_succ_cons, walked_cons able]

/-- A straight walk that ends at its start leaves the ant as it was, apart from the account. -/
theorem performAll_replicate_move (within : landscape.Contains ant.location) {count : Nat}
    (enough : count ≤ ant.movesLeft) {line : Location → Bool}
    (back : landscape.wrap
      (ant.location.displace (List.replicate count ant.orientation.step)) = ant.location)
    (swept : ∀ cell, landscape.Contains cell →
      (landscape.cellsEntered ant.location
        (List.replicate count ant.orientation.step)).contains cell = line cell) :
    ant.performAll (List.replicate count .move) landscape =
      ({ ant with
          moves := ant.moves + count
          eaten := ant.eaten + landscape.food.countP line },
        landscape.clear line) := by
  have agree : ∀ cell ∈ landscape.food, (landscape.cellsEntered ant.location
      (List.replicate count ant.orientation.step)).contains cell = line cell :=
    fun cell listed => swept cell (Landscape.contains_of_mem_food listed)
  have straight : Action.quarterTurns (List.replicate count .move) = 0 := by
    simp [Action.quarterTurns, List.count_replicate]
  rw [performAll_eq_walked within, List.take_of_length_le (by rwa [List.length_replicate])]
  simp only [walked, Orientation.strides_replicate_move, straight, Orientation.turned_zero, back,
    List.length_replicate, Landscape.clear_congr agree]
  rw [List.countP_congr fun cell listed => by rw [agree cell listed]]

end Ant

namespace World

variable {world : World} {number : Nat} {ant : Ant} {landscape : Landscape}

theorem antOnLand?_update (standing : world.antOnLand? number = some (ant, landscape))
    {after : Ant × Landscape} (home : after.1.home = ant.home) :
    (world.update number ant after).antOnLand? number = some after := by
  obtain ⟨listed, placed⟩ := antOnLand?_eq_some_iff.mp standing
  obtain ⟨numbered, -⟩ := List.getElem?_eq_some_iff.mp listed
  obtain ⟨mapped, -⟩ := List.getElem?_eq_some_iff.mp placed
  refine antOnLand?_eq_some_iff.mpr ⟨List.getElem?_set_self numbered, ?_⟩
  rw [home]
  exact List.getElem?_set_self mapped

theorem update_update {first : Ant × Landscape} (home : first.1.home = ant.home)
    (second : Ant × Landscape) :
    (world.update number ant first).update number first.1 second =
      world.update number ant second := by
  simp only [update, setAnt, setLandscape, home, List.set_set]

/-- What one ant does in a world is what it does by itself on its landscape. -/
theorem actAll_eq_update (standing : world.antOnLand? number = some (ant, landscape))
    (actions : List Action) :
    world.actAll (actions.map (Deed.mk number)) =
      world.update number ant (ant.performAll actions landscape) := by
  induction actions generalizing world ant landscape with
  | nil => exact (update_self standing).symm
  | cons action rest induction =>
      have home := ant.home_perform action landscape
      rw [List.map_cons, actAll_cons, act_eq_update standing, Ant.performAll_cons]
      generalize ant.perform action landscape = after at home
      obtain ⟨moved, land⟩ := after
      rw [induction (antOnLand?_update standing home), update_update home]

end World

namespace Ant

/-- The run of an ant on its landscape is the wrapped image of a walk on the infinite plane.  The
actions for which the budget lasts are counted, the balance of their turns is the turn of the ant,
the sum of their steps leads to where it stands, and the cells that they enter lose their food,
which is eaten once.  Once around, the ant is back and its row or column is empty.  In a world with
other ants and landscapes the run is the same and changes nothing else. -/
theorem run_is_wrapped_plane_walk {ant : Ant} {landscape : Landscape}
    (within : landscape.Contains ant.location) :
    (∀ actions : List Action,
        let count := min actions.length ant.movesLeft
        let steps := ant.orientation.strides (actions.take count)
        let entered := landscape.cellsEntered ant.location steps
        ant.performAll actions landscape =
          ({ ant with
              moves := ant.moves + count
              location := landscape.wrap (ant.location.displace steps)
              orientation := ant.orientation.turned (Action.quarterTurns (actions.take count))
              eaten := ant.eaten + landscape.food.countP entered.contains },
            landscape.clear entered.contains)) ∧
      (ant.orientation = .east ∨ ant.orientation = .west →
        landscape.width.toNat ≤ ant.movesLeft →
        ant.performAll (List.replicate landscape.width.toNat .move) landscape =
          ({ ant with
              moves := ant.moves + landscape.width.toNat
              eaten := ant.eaten + landscape.food.countP (·.y == ant.location.y) },
            landscape.clear (·.y == ant.location.y))) ∧
      (ant.orientation = .north ∨ ant.orientation = .south →
        landscape.height.toNat ≤ ant.movesLeft →
        ant.performAll (List.replicate landscape.height.toNat .move) landscape =
          ({ ant with
              moves := ant.moves + landscape.height.toNat
              eaten := ant.eaten + landscape.food.countP (·.x == ant.location.x) },
            landscape.clear (·.x == ant.location.x))) ∧
      ∀ (world : World) (number : Nat) (actions : List Action),
        world.antOnLand? number = some (ant, landscape) →
        world.actAll (actions.map (Deed.mk number)) =
          world.update number ant (ant.performAll actions landscape) := by
  refine ⟨fun actions => ?_, fun facing enough => ?_, fun facing enough => ?_,
    fun world number actions standing => World.actAll_eq_update standing actions⟩
  · intro count steps entered
    have first : actions.take ant.movesLeft = actions.take count := by
      rw [List.take_eq_take_min, Nat.min_comm]
    have length : (actions.take count).length = count := by
      rw [List.length_take, Nat.min_eq_left (Nat.min_le_left _ _)]
    rw [performAll_eq_walked within, first, walked, length]
  · obtain ⟨level, single⟩ := Orientation.step_along_row facing
    exact performAll_replicate_move within enough (Landscape.wrap_displace_row within level)
      fun cell inside => Landscape.contains_cellsEntered_row within inside level single
  · obtain ⟨upright, single⟩ := Orientation.step_along_column facing
    exact performAll_replicate_move within enough (Landscape.wrap_displace_column within upright)
      fun cell inside => Landscape.contains_cellsEntered_column within inside upright single

/-- On a landscape of three columns and two rows an ant with four moves left crosses both seams,
eats once, comes back to an emptied cell, and is asked for one more move in vain; in a world of its
own it goes around its row. -/
theorem run_is_wrapped_plane_walk_across_seams :
    let landscape : Landscape :=
      ⟨3, 2, [⟨0, 0⟩, ⟨1, 0⟩, ⟨2, 1⟩], by decide, by decide, by decide, by decide⟩
    let ant : Ant := ⟨0, 9, ⟨2, 0⟩, .east, 5, 1⟩
    let actions : List Action := [.move, .turnLeft, .move, .move, .move]
    landscape.Contains ant.location ∧
      ant.performAll actions landscape =
        (⟨0, 9, ⟨0, 0⟩, .north, 9, 2⟩,
          landscape.clear [⟨0, 0⟩, ⟨0, 1⟩, ⟨0, 0⟩].contains) ∧
      (⟨[landscape], [ant]⟩ : World).actAll (List.replicate 3 ⟨0, .move⟩) =
        ⟨[landscape.clear (·.y == 0)], [⟨0, 9, ⟨2, 0⟩, .east, 8, 3⟩]⟩ := by
  intro landscape ant actions
  have within : landscape.Contains ant.location :=
    ⟨by decide, by decide, by decide, by decide⟩
  have entered : landscape.cellsEntered ant.location [⟨1, 0⟩, ⟨0, -1⟩, ⟨0, -1⟩] =
      [⟨0, 0⟩, ⟨0, 1⟩, ⟨0, 0⟩] := by decide
  obtain ⟨walk, row, -, acts⟩ := run_is_wrapped_plane_walk within
  refine ⟨within, ?_, ?_⟩
  · refine (walk actions).trans (Prod.ext (by decide) ?_)
    rw [← entered]
    rfl
  · refine (acts ⟨[landscape], [ant]⟩ 0 (List.replicate 3 .move) rfl).trans ?_
    exact congrArg _ (row (.inl rfl) (by decide))

end Ant
end GeneticProgram
