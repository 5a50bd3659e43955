import GeneticProgram.Ant.Landscape

/-!
# Ants

An ant stands on a cell of a landscape and faces one of the four directions.  It can move ahead,
turn, or let a move pass.  Every action uses up one move of a budget, and an action without a move
left has no effect.
-/

namespace GeneticProgram

/-- The direction an ant faces. -/
inductive Orientation
  | north
  | east
  | south
  | west
deriving DecidableEq

namespace Orientation

/-- Every direction once, clockwise. -/
def all : List Orientation := [.north, .east, .south, .west]

/-- The name of a direction. -/
def name : Orientation → String
  | .north => "NORTH"
  | .east => "EAST"
  | .south => "SOUTH"
  | .west => "WEST"

/-- The next direction clockwise. -/
def right : Orientation → Orientation
  | .north => .east
  | .east => .south
  | .south => .west
  | .west => .north

/-- The next direction counterclockwise. -/
def left : Orientation → Orientation
  | .north => .west
  | .east => .north
  | .south => .east
  | .west => .south

/-- The change of the coordinates in one step ahead. -/
def step : Orientation → Location
  | .north => ⟨0, -1⟩
  | .east => ⟨1, 0⟩
  | .south => ⟨0, 1⟩
  | .west => ⟨-1, 0⟩

end Orientation

/-- What an ant can do. -/
inductive Action
  | move
  | turnLeft
  | turnRight
  | skip
deriving DecidableEq

/-- The state of an ant. -/
structure Ant where
  /-- The number of the landscape on which the ant stands. -/
  home : Nat
  /-- The move budget. -/
  maxMoves : Int
  /-- The cell on which the ant stands. -/
  location : Location
  /-- The direction the ant faces. -/
  orientation : Orientation
  /-- Moves used up. -/
  moves : Nat
  /-- Cells emptied of their food. -/
  eaten : Nat
deriving DecidableEq

namespace Ant

/-- The move budget of an ant for which none is chosen. -/
def defaultBudget : Int := 600

/-- The cell on which an ant starts if none is chosen. -/
def defaultLocation : Location := ⟨0, 0⟩

/-- The direction in which an ant starts if none is chosen. -/
def defaultOrientation : Orientation := .east

/-- An ant that has not acted yet. -/
def start (home : Nat) (landscape : Landscape) (maxMoves : Int) (location : Location)
    (orientation : Orientation) : Ant :=
  { home, maxMoves, location := landscape.wrap location, orientation, moves := 0, eaten := 0 }

/-- The budget is not used up. -/
def canAct (ant : Ant) : Bool := (ant.moves : Int) < ant.maxMoves

/-- The cell in front of the ant. -/
def locationAhead (ant : Ant) (landscape : Landscape) : Location :=
  landscape.wrap
    ⟨ant.location.x + ant.orientation.step.x, ant.location.y + ant.orientation.step.y⟩

/-- The cell in front of the ant holds food. -/
def isFoodAhead (ant : Ant) (landscape : Landscape) : Bool :=
  landscape.isFoodAt (ant.locationAhead landscape)

/-- Step ahead, and eat what is found there. -/
def advance (ant : Ant) (landscape : Landscape) : Ant × Landscape :=
  let target := ant.locationAhead landscape
  if landscape.isFoodAt target then
    ({ ant with moves := ant.moves + 1, location := target, eaten := ant.eaten + 1 },
      landscape.removeFoodAt target)
  else ({ ant with moves := ant.moves + 1, location := target }, landscape)

/-- Carry out an action, unless the budget is used up. -/
def perform (action : Action) (ant : Ant) (landscape : Landscape) : Ant × Landscape :=
  if ant.canAct then
    match action with
    | .move => ant.advance landscape
    | .turnLeft =>
      ({ ant with moves := ant.moves + 1, orientation := ant.orientation.left }, landscape)
    | .turnRight =>
      ({ ant with moves := ant.moves + 1, orientation := ant.orientation.right }, landscape)
    | .skip => ({ ant with moves := ant.moves + 1 }, landscape)
  else (ant, landscape)

/-- Carry out a list of actions, one after another. -/
def performAll (actions : List Action) (ant : Ant) (landscape : Landscape) : Ant × Landscape :=
  actions.foldl (fun (ant, landscape) action => ant.perform action landscape) (ant, landscape)

end Ant
end GeneticProgram
