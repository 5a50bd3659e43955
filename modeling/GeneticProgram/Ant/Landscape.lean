/-!
# Landscapes

A landscape is a grid of cells that closes on itself in both directions.  A cell holds food or not.
Any pair of integers names a cell, congruent pairs naming the same one.
-/

namespace GeneticProgram

/-- A pair of coordinates, the second one growing to the south. -/
structure Location where
  /-- Distance to the east. -/
  x : Int
  /-- Distance to the south. -/
  y : Int
deriving DecidableEq

/-- A grid that closes on itself, with the cells that hold food. -/
structure Landscape where
  /-- Number of columns. -/
  width : Int
  /-- Number of rows. -/
  height : Int
  /-- The cells that hold food, each by its least nonnegative coordinates. -/
  food : List Location
  /-- There is a column. -/
  width_pos : 0 < width
  /-- There is a row. -/
  height_pos : 0 < height
  /-- No cell is listed twice. -/
  food_nodup : food.Nodup
  /-- The listed coordinates are the least ones. -/
  food_wrapped : ∀ cell ∈ food, ⟨cell.x % width, cell.y % height⟩ = cell

/-- The refused dimensions of a landscape. -/
structure LandscapeError where
  /-- Number of columns. -/
  width : Int
  /-- Number of rows. -/
  height : Int
deriving DecidableEq

/-- The wording of a refusal. -/
def LandscapeError.message (error : LandscapeError) : String :=
  s!"Landscape dimensions must be positive, got {error.width}x{error.height}"

namespace Landscape

/-- The least nonnegative coordinates of a cell. -/
def wrap (landscape : Landscape) (location : Location) : Location :=
  ⟨location.x % landscape.width, location.y % landscape.height⟩

theorem wrap_wrap (landscape : Landscape) (location : Location) :
    landscape.wrap (landscape.wrap location) = landscape.wrap location := by
  simp [wrap]

/-- The cell holds food. -/
def isFoodAt (landscape : Landscape) (location : Location) : Bool :=
  landscape.food.contains (landscape.wrap location)

/-- Put food on a cell. -/
def setFoodAt (landscape : Landscape) (location : Location) : Landscape :=
  if present : landscape.wrap location ∈ landscape.food then landscape
  else
    { landscape with
      food := landscape.wrap location :: landscape.food
      food_nodup := List.nodup_cons.mpr ⟨present, landscape.food_nodup⟩
      food_wrapped := by
        intro cell listed
        rcases List.mem_cons.mp listed with rfl | older
        · exact landscape.wrap_wrap location
        · exact landscape.food_wrapped cell older }

/-- Take food from a cell. -/
def removeFoodAt (landscape : Landscape) (location : Location) : Landscape :=
  { landscape with
    food := landscape.food.erase (landscape.wrap location)
    food_nodup := landscape.food_nodup.erase _
    food_wrapped := fun cell listed => landscape.food_wrapped cell (List.mem_of_mem_erase listed) }

/-- The number of cells that hold food. -/
def foodCount (landscape : Landscape) : Nat := landscape.food.length

/-- A landscape with food on the given cells. -/
def create (width height : Int) (food : List Location) : Except LandscapeError Landscape :=
  if positive : 0 < width ∧ 0 < height then
    let bare : Landscape :=
      { width, height, food := [], width_pos := positive.1, height_pos := positive.2
        food_nodup := List.nodup_nil, food_wrapped := by simp }
    .ok (food.foldl setFoodAt bare)
  else .error ⟨width, height⟩

/-- The cells that hold food, row by row from the north, each row from the west. -/
def foodByRows (landscape : Landscape) : List Location :=
  landscape.food.mergeSort fun first second =>
    first.y < second.y || first.y == second.y && first.x ≤ second.x

end Landscape
end GeneticProgram
