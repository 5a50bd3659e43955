import GeneticProgram.Proofs.AntAction

/-!
# Ants that share a landscape

Ants are put on one landscape, and then ants act and trees are evaluated in any order.  At every
moment of such a run, also in the middle of an evaluation and after an error, what the ants have
eaten and what is left add up to the food of the beginning, the ants stand on the landscape and keep
to their budgets, and no ant has eaten more often than it has acted.  From one moment to a later one
no counter of moves falls and no food appears, so that a cell which an ant has entered stays empty.
-/

namespace GeneticProgram

/-- How an ant is put on a landscape. -/
structure Placement where
  /-- The move budget. -/
  maxMoves : Int
  /-- The cell on which the ant starts. -/
  location : Location
  /-- The direction in which it starts. -/
  orientation : Orientation

/-- An ant that keeps the rules on a landscape, the only one of its world. -/
structure Ant.Lawful (landscape : Landscape) (ant : Ant) : Prop where
  /-- The ant is on the landscape. -/
  home : ant.home = 0
  /-- The ant stands on a cell of the landscape. -/
  within : landscape.Contains ant.location
  /-- The ant keeps to its budget. -/
  budget : (ant.moves : Int) ≤ max 0 ant.maxMoves
  /-- The ant eats only when it acts. -/
  meals : ant.eaten ≤ ant.moves

namespace World

/-- A landscape with ants that have not acted yet. -/
def settle (landscape : Landscape) (placements : List Placement) : World where
  landscapes := [landscape]
  ants := placements.map fun placement =>
    Ant.start 0 landscape placement.maxMoves placement.location placement.orientation

/-- The ants of a world keep the rules on what has become of a landscape, and account for the food
that is gone. -/
structure Inhabits (landscape : Landscape) (world : World) (land : Landscape) : Prop where
  /-- There is no other landscape. -/
  only : world.landscapes = [land]
  /-- The landscape has kept its columns. -/
  width : land.width = landscape.width
  /-- The landscape has kept its rows. -/
  height : land.height = landscape.height
  /-- Every ant keeps the rules. -/
  lawful : ∀ ant ∈ world.ants, ant.Lawful landscape
  /-- What is eaten and what is left add up. -/
  balance : (world.ants.map Ant.eaten).sum + land.foodCount = landscape.foodCount

/-- A later world, compared with an earlier one: no counter of moves has fallen, and no food has
appeared. -/
structure Advances (world : World) (land : Landscape) (later : World) (next : Landscape) :
    Prop where
  /-- Every ant has kept its budget and its moves. -/
  ants : ∀ (number : Nat) (ant : Ant), world.ants[number]? = some ant → ∃ older : Ant,
    later.ants[number]? = some older ∧ older.maxMoves = ant.maxMoves ∧ ant.moves ≤ older.moves
  /-- Where there is food, there was food. -/
  food : ∀ cell, next.isFoodAt cell = true → land.isFoodAt cell = true

theorem Advances.refl (world : World) (land : Landscape) : Advances world land world land where
  ants _ ant listed := ⟨ant, listed, rfl, Nat.le_refl _⟩
  food _ := id

theorem Advances.trans {first second third : World} {land middle last : Landscape}
    (earlier : Advances first land second middle) (later : Advances second middle third last) :
    Advances first land third last where
  ants number ant listed := by
    obtain ⟨older, older_listed, same_budget, more_moves⟩ := earlier.ants number ant listed
    obtain ⟨oldest, oldest_listed, same_again, still_more⟩ :=
      later.ants number older older_listed
    exact ⟨oldest, oldest_listed, same_again.trans same_budget, Nat.le_trans more_moves still_more⟩
  food cell := earlier.food cell ∘ later.food cell

theorem inhabits_settle (landscape : Landscape) (placements : List Placement) :
    Inhabits landscape (settle landscape placements) landscape where
  only := rfl
  width := rfl
  height := rfl
  lawful := by
    intro ant member
    obtain ⟨placement, -, rfl⟩ := List.mem_map.mp member
    exact ⟨rfl, landscape.contains_wrap _, Int.le_max_left 0 _, Nat.le_refl 0⟩
  balance := by
    have nothing : ∀ placed : List Placement, ((placed.map fun placement =>
        Ant.start 0 landscape placement.maxMoves placement.location placement.orientation).map
          Ant.eaten).sum = 0 := by
      intro placed
      induction placed with
      | nil => rfl
      | cons placement rest induction => simpa [Ant.start] using induction
    rw [settle, nothing, Nat.zero_add]

variable {landscape land : Landscape} {world : World}

/-- On the only landscape an action changes the ant and this landscape. -/
theorem Inhabits.act_eq (inhabits : Inhabits landscape world land) {number : Nat} {ant : Ant}
    (listed : world.ants[number]? = some ant) (action : Action) :
    world.act number action =
      ⟨[(ant.perform action land).2], world.ants.set number (ant.perform action land).1⟩ := by
  have home := (inhabits.lawful ant (List.mem_of_getElem? listed)).home
  have placed : world.landscapes[ant.home]? = some land := by
    rw [inhabits.only, home]
    rfl
  rw [act_eq_update (antOnLand?_eq_some_iff.mpr ⟨listed, placed⟩)]
  simp only [update, setAnt, setLandscape, inhabits.only, home, List.set_cons_zero]

/-- An ant that keeps the rules keeps them when it acts. -/
theorem lawful_of_acted {ant : Ant} (lawful : ant.Lawful landscape)
    (width : land.width = landscape.width) (height : land.height = landscape.height)
    (able : ant.canAct = true) {after : Ant × Landscape} (acted : ant.Acted land after) :
    after.1.Lawful landscape where
  home := acted.home.trans lawful.home
  within := by
    rcases acted.location with stays | steps
    · rw [stays]
      exact lawful.within
    · have inside := land.contains_wrap
        ⟨ant.location.x + ant.orientation.step.x, ant.location.y + ant.orientation.step.y⟩
      rw [steps, Landscape.Contains, ← width, ← height]
      exact inside
  budget := by
    have left : (ant.moves : Int) < ant.maxMoves := by simpa [Ant.canAct] using able
    rw [acted.moves, acted.maxMoves]
    omega
  meals := by
    have earlier := lawful.meals
    have bite := acted.bite
    have moves := acted.moves
    omega

/-- One action keeps the rules and the account. -/
theorem Inhabits.act (inhabits : Inhabits landscape world land) (number : Nat) (action : Action) :
    ∃ next, Inhabits landscape (world.act number action) next ∧
      Advances world land (world.act number action) next := by
  rcases world.act_cases number action with same | ⟨ant, found, standing, able, -⟩
  · rw [same]
    exact ⟨land, inhabits, .refl world land⟩
  · obtain ⟨listed, -⟩ := antOnLand?_eq_some_iff.mp standing
    have lawful := inhabits.lawful ant (List.mem_of_getElem? listed)
    have acted := Ant.acted_perform able action land
    rw [inhabits.act_eq listed]
    generalize ant.perform action land = after at acted
    refine ⟨after.2, ⟨rfl, acted.width.trans inhabits.width, acted.height.trans inhabits.height,
      fun other member => ?_, ?_⟩, ⟨fun place other other_listed => ?_, acted.food⟩⟩
    · rcases List.mem_or_eq_of_mem_set member with older | rfl
      · exact inhabits.lawful other older
      · exact lawful_of_acted lawful inhabits.width inhabits.height able acted
    · have shares := Numbered.sum_map_set Ant.eaten listed after.1
      have balance := inhabits.balance
      have eaten := acted.eaten
      simp only
      omega
    · by_cases here : number = place
      · subst here
        obtain rfl : ant = other := Option.some.inj (listed.symm.trans other_listed)
        refine ⟨after.1, ?_, acted.maxMoves, by rw [acted.moves]; omega⟩
        have bounded := (List.getElem?_eq_some_iff.mp listed).1
        simp [bounded]
      · exact ⟨other, by simpa [List.getElem?_set_ne here] using other_listed, rfl, Nat.le_refl _⟩

/-- So do any number of actions. -/
theorem Inhabits.actAll (inhabits : Inhabits landscape world land) (deeds : List Deed) :
    ∃ next, Inhabits landscape (world.actAll deeds) next ∧
      Advances world land (world.actAll deeds) next := by
  induction deeds generalizing world land with
  | nil => exact ⟨land, inhabits, .refl world land⟩
  | cons deed deeds induction =>
      obtain ⟨middle, inhabits_middle, advances⟩ := inhabits.act deed.ant deed.action
      obtain ⟨last, inhabits_last, advances_further⟩ := induction inhabits_middle
      exact ⟨last, inhabits_last, advances.trans advances_further⟩

/-- The cell that an ant enters is empty. -/
theorem Inhabits.isFoodAt_of_entered (inhabits : Inhabits landscape world land) {number : Nat}
    {ant moved : Ant} (listed : world.ants[number]? = some ant) (able : ant.canAct = true)
    (entered : (world.act number .move).ants[number]? = some moved) {next : Landscape}
    (only : (world.act number .move).landscapes = [next]) :
    next.isFoodAt moved.location = false := by
  have performed : ant.perform .move land = ant.advance land := by
    rw [Ant.perform, if_pos able]
  have bounded := (List.getElem?_eq_some_iff.mp listed).1
  rw [inhabits.act_eq listed, performed, Ant.advance_eq] at entered only
  obtain rfl := List.singleton_inj.mp only
  rw [List.getElem?_set_self bounded] at entered
  obtain rfl := Option.some.inj entered
  rw [Bool.eq_false_iff]
  intro stocked
  exact (Landscape.isFoodAt_removeFoodAt_iff.mp stocked).2 rfl

/-- Ants are put on a landscape, and then ants act and trees are evaluated in any order.  The world
between any two events is a moment of the run, given by the actions up to then, and so is every
world in the middle of an evaluation.  At each moment the ants keep the rules and account for the
food that is gone; from one moment to a later one no counter of moves falls and no food appears; and
a cell that an ant enters with a move left is empty at all later moments. -/
theorem foraging_invariants (landscape : Landscape) (placements : List Placement)
    (events : List Event) :
    let start := settle landscape placements
    (∀ earlier, earlier <+: events →
        start.deeds earlier <+: start.deeds events ∧
          (start.run earlier).2 = start.actAll (start.deeds earlier)) ∧
      ∀ past between, past ++ between <+: start.deeds events →
        let now := start.actAll past
        let later := start.actAll (past ++ between)
        ∃ land next, Inhabits landscape now land ∧ Inhabits landscape later next ∧
          Advances now land later next ∧
          ∀ number ant moved rest, between = ⟨number, .move⟩ :: rest →
            now.ants[number]? = some ant → ant.canAct = true →
            (now.act number .move).ants[number]? = some moved →
            next.isFoodAt moved.location = false := by
  intro start
  refine ⟨fun earlier beginning => ⟨start.deeds_prefix_of_prefix beginning,
    start.run_eq_actAll earlier⟩, fun past between _ => ?_⟩
  intro now later
  have later_eq : later = now.actAll between := start.actAll_append past between
  obtain ⟨land, inhabits, -⟩ := (inhabits_settle landscape placements).actAll past
  obtain ⟨next, inhabits_later, advances⟩ := inhabits.actAll between
  rw [later_eq]
  refine ⟨land, next, inhabits, inhabits_later, advances, ?_⟩
  rintro number ant moved rest rfl listed able entered
  -- The cell is empty after the move, and no food appears after that.
  obtain ⟨middle, inhabits_middle, -⟩ := inhabits.act number .move
  obtain ⟨last, inhabits_last, advances_last⟩ := inhabits_middle.actAll rest
  obtain rfl : next = last :=
    List.singleton_inj.mp (inhabits_later.only.symm.trans inhabits_last.only)
  have bare := inhabits.isFoodAt_of_entered listed able entered inhabits_middle.only
  rw [Bool.eq_false_iff] at bare ⊢
  exact fun stocked => bare (advances_last.food _ stocked)

/-- Two ants eat on a landscape of three cells in an evaluation that fails behind their moves, and
one of them is asked for a move that its budget does not allow. -/
theorem foraging_invariants_two_ants :
    let landscape : Landscape :=
      ⟨3, 1, [⟨1, 0⟩, ⟨2, 0⟩], by decide, by decide, by decide, by decide⟩
    let start := settle landscape [⟨1, ⟨0, 0⟩, .east⟩, ⟨5, ⟨0, 0⟩, .west⟩]
    let tree : Tree := .node (.operator .factorial)
      [.node (.sequence 2) [.node (.action .move 0) [], .node (.action .move 1) []]]
    let events := [.evaluate (fun _ => .nothing) tree, .act 0 .move]
    start.deeds events = [⟨0, .move⟩, ⟨1, .move⟩, ⟨0, .move⟩] ∧
      (start.run events).1 = [.error (.conversion .nothing), .ok .nothing] ∧
      ∃ land next, Inhabits landscape start land ∧
        Inhabits landscape (start.actAll [⟨0, .move⟩, ⟨1, .move⟩]) next ∧
        Advances start land (start.actAll [⟨0, .move⟩, ⟨1, .move⟩]) next ∧
        next.isFoodAt ⟨1, 0⟩ = false := by
  intro landscape start tree events
  have asked : start.deeds events = [⟨0, .move⟩, ⟨1, .move⟩, ⟨0, .move⟩] := rfl
  refine ⟨asked, rfl, ?_⟩
  obtain ⟨land, next, inhabits, inhabits_later, advances, entered⟩ :=
    (foraging_invariants landscape _ events).2 [] [⟨0, .move⟩, ⟨1, .move⟩] ⟨[⟨0, .move⟩], rfl⟩
  exact ⟨land, next, inhabits, inhabits_later, advances, entered 0 _ _ _ rfl rfl rfl rfl⟩

end World

end GeneticProgram
