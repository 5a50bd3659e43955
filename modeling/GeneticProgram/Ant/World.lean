import GeneticProgram.Ant.Basic

/-!
# Worlds

A world holds numbered landscapes and numbered ants.  Ants on one landscape share its food.  A
number that no ant has names an ant that sees no food and whose actions change nothing.
-/

namespace GeneticProgram

/-- Landscapes and the ants on them. -/
structure World where
  /-- The landscapes, by their numbers. -/
  landscapes : List Landscape
  /-- The ants, by their numbers. -/
  ants : List Ant

namespace World

/-- A world without landscapes and ants. -/
def empty : World := ⟨[], []⟩

/-- An ant with the landscape it stands on. -/
def antOnLand? (world : World) (ant : Nat) : Option (Ant × Landscape) := do
  let found ← world.ants[ant]?
  let landscape ← world.landscapes[found.home]?
  pure (found, landscape)

/-- Add a landscape; its number is the number of landscapes before. -/
def addLandscape (world : World) (landscape : Landscape) : World :=
  { world with landscapes := world.landscapes ++ [landscape] }

/-- Add an ant; its number is the number of ants before. -/
def addAnt (world : World) (ant : Ant) : World :=
  { world with ants := world.ants ++ [ant] }

/-- Replace a landscape. -/
def setLandscape (world : World) (number : Nat) (landscape : Landscape) : World :=
  { world with landscapes := world.landscapes.set number landscape }

/-- Replace an ant. -/
def setAnt (world : World) (number : Nat) (ant : Ant) : World :=
  { world with ants := world.ants.set number ant }

/-- Let an ant act. -/
def act (world : World) (ant : Nat) (action : Action) : World :=
  match world.antOnLand? ant with
  | none => world
  | some (actor, landscape) =>
    let (actor', landscape') := actor.perform action landscape
    (world.setAnt ant actor').setLandscape actor.home landscape'

/-- The cell in front of an ant holds food. -/
def isFoodAhead (world : World) (ant : Nat) : Bool :=
  match world.antOnLand? ant with
  | none => false
  | some (observer, landscape) => observer.isFoodAhead landscape

/-- Put an ant back to a start, on another landscape if one is given. -/
def reset (world : World) (ant : Nat) (location : Location) (orientation : Orientation)
    (home : Option Nat) : World :=
  match world.ants[ant]? with
  | none => world
  | some old =>
    let home := home.getD old.home
    match world.landscapes[home]? with
    | none => world
    | some landscape =>
      world.setAnt ant (Ant.start home landscape old.maxMoves location orientation)

end World
end GeneticProgram
