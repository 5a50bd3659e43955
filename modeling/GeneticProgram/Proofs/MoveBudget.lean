import GeneticProgram.Proofs.AntAction

/-!
# The move budget

Two runs of the same events differ in the move budget of one ant only, and every event is bound to
this ant.  As long as the ant has moves left under the smaller budget, the two worlds differ in the
budget only: an action does not depend on it otherwise, and no look for food does.  Once the smaller
budget is used up, its world stands still.  So the run under the smaller budget either is the other
one, or it ends in the world that the other one has reached when the smaller budget is used up.
-/

namespace GeneticProgram

namespace Ant

/-- The ant with another budget. -/
def withBudget (ant : Ant) (budget : Int) : Ant := { ant with maxMoves := budget }

/-- The budget decides whether an action has an effect, and nothing else. -/
theorem perform_withBudget {ant : Ant} {budget : Int}
    (agree : (ant.withBudget budget).canAct = ant.canAct) (action : Action)
    (landscape : Landscape) :
    (ant.withBudget budget).perform action landscape =
      ((ant.perform action landscape).1.withBudget budget, (ant.perform action landscape).2) := by
  cases able : ant.canAct with
  | false => rw [perform_of_exhausted able, perform_of_exhausted (agree.trans able)]
  | true =>
      have able_too := agree.trans able
      cases action with
      | move =>
          rw [perform, perform, if_pos able, if_pos able_too, advance_eq, advance_eq]
          rfl
      | _ =>
          rw [perform, perform, if_pos able, if_pos able_too]
          rfl

end Ant

namespace World

variable {world : World} {number : Nat}

/-- The world with another budget for an ant. -/
def withBudget (world : World) (number : Nat) (budget : Int) : World :=
  { world with ants := world.ants.modify number (·.withBudget budget) }

/-- The moves that an ant has used up, none if there is no such ant. -/
def movesOf (world : World) (number : Nat) : Nat :=
  match world.ants[number]? with
  | none => 0
  | some ant => ant.moves

theorem movesOf_eq {ant : Ant} (listed : world.ants[number]? = some ant) :
    world.movesOf number = ant.moves := by
  rw [movesOf, listed]

theorem getElem?_ants_withBudget (world : World) (number : Nat) (budget : Int) :
    (world.withBudget number budget).ants[number]? =
      (world.ants[number]?).map (·.withBudget budget) :=
  List.getElem?_modify_eq _ _ _

@[simp] theorem movesOf_withBudget (world : World) (number : Nat) (budget : Int) :
    (world.withBudget number budget).movesOf number = world.movesOf number := by
  rw [movesOf, movesOf, getElem?_ants_withBudget]
  cases world.ants[number]? with
  | none => rfl
  | some ant => rfl

@[simp] theorem withBudget_withBudget (world : World) (number : Nat) (first second : Int) :
    (world.withBudget number first).withBudget number second = world.withBudget number second := by
  simp only [withBudget, List.modify_modify_eq]
  rfl

/-- An ant under its own budget is as it was. -/
theorem withBudget_maxMoves {ant : Ant} (listed : world.ants[number]? = some ant) :
    world.withBudget number ant.maxMoves = world := by
  have same : world.ants.modify number (·.withBudget ant.maxMoves) = world.ants := by
    rw [List.modify_eq_set_getElem?, listed]
    exact Numbered.set_eq_self listed
  rw [withBudget, same]

theorem antOnLand?_withBudget (world : World) (number : Nat) (budget : Int) :
    (world.withBudget number budget).antOnLand? number =
      (world.antOnLand? number).map fun found => (found.1.withBudget budget, found.2) := by
  simp only [antOnLand?, getElem?_ants_withBudget]
  cases world.ants[number]? with
  | none => rfl
  | some ant =>
      cases placed : world.landscapes[ant.home]? with
      | none => simp [Ant.withBudget, withBudget, placed]
      | some landscape => simp [Ant.withBudget, withBudget, placed]

/-- What an ant sees does not depend on its budget. -/
theorem isFoodAhead_withBudget (world : World) (number : Nat) (budget : Int) :
    (world.withBudget number budget).isFoodAhead number = world.isFoodAhead number := by
  rw [isFoodAhead, isFoodAhead, antOnLand?_withBudget]
  cases world.antOnLand? number with
  | none => rfl
  | some found => rfl

/-- An ant under another budget stands where it stands. -/
theorem antOnLand?_withBudget_eq_some {ant : Ant} {landscape : Landscape}
    (standing : world.antOnLand? number = some (ant, landscape)) (budget : Int) :
    (world.withBudget number budget).antOnLand? number =
      some (ant.withBudget budget, landscape) := by
  rw [antOnLand?_withBudget, standing]
  rfl

/-- An action that has an effect under both budgets has the same one. -/
theorem act_withBudget {budget : Int}
    (agree : ∀ ant landscape, world.antOnLand? number = some (ant, landscape) →
      (ant.withBudget budget).canAct = ant.canAct) (action : Action) :
    (world.withBudget number budget).act number action =
      (world.act number action).withBudget number budget := by
  cases standing : world.antOnLand? number with
  | none => simp only [act, antOnLand?_withBudget, standing, Option.map_none]
  | some found =>
      obtain ⟨ant, landscape⟩ := found
      rw [act_eq_update standing, act_eq_update (antOnLand?_withBudget_eq_some standing budget),
        Ant.perform_withBudget (agree ant landscape standing)]
      simp only [update, setAnt, setLandscape, withBudget]
      rw [Numbered.set_modify]
      rfl

/-- An ant whose budget is used up changes nothing. -/
theorem act_withBudget_of_spent {budget : Int} (spent : budget ≤ world.movesOf number)
    (action : Action) :
    (world.withBudget number budget).act number action = world.withBudget number budget := by
  cases standing : world.antOnLand? number with
  | none => simp only [act, antOnLand?_withBudget, standing, Option.map_none]
  | some found =>
      obtain ⟨ant, landscape⟩ := found
      obtain ⟨listed, -⟩ := antOnLand?_eq_some_iff.mp standing
      rw [movesOf_eq listed] at spent
      have exhausted : (ant.withBudget budget).canAct = false := by
        rw [Ant.canAct, decide_eq_false_iff_not]
        exact Int.not_lt.mpr spent
      exact act_of_exhausted (antOnLand?_withBudget_eq_some standing budget) exhausted action

/-- An action changes nothing, or the ant uses up a move of its budget. -/
theorem act_eq_or_moves (world : World) (number : Nat) (action : Action) :
    world.act number action = world ∨
      ∃ ant after, world.ants[number]? = some ant ∧
        (world.act number action).ants[number]? = some after ∧
        after.maxMoves = ant.maxMoves ∧ after.moves = ant.moves + 1 := by
  rcases world.act_cases number action with same | ⟨ant, landscape, standing, able, acts⟩
  · exact .inl same
  · obtain ⟨listed, -⟩ := antOnLand?_eq_some_iff.mp standing
    have bounded := (List.getElem?_eq_some_iff.mp listed).1
    have acted := Ant.acted_perform able action landscape
    rw [acts]
    exact .inr ⟨ant, _, listed, List.getElem?_set_self bounded, acted.maxMoves, acted.moves⟩

/-- Actions of one ant change nothing, or its counter of moves grows. -/
theorem actAll_eq_or_movesOf_lt (world : World) {deeds : List Deed}
    (bound : ∀ deed ∈ deeds, deed.ant = number) :
    world.actAll deeds = world ∨ world.movesOf number < (world.actAll deeds).movesOf number := by
  induction deeds generalizing world with
  | nil => exact .inl rfl
  | cons deed deeds induction =>
      obtain ⟨rfl, bound_rest⟩ := List.forall_mem_cons.mp bound
      rw [actAll_cons]
      rcases world.act_eq_or_moves deed.ant deed.action with
        same | ⟨ant, after, listed, listed_after, -, moves⟩
      · rw [same]
        exact induction world bound_rest
      · have grown := Nat.lt_add_one ant.moves
        rw [← moves, ← movesOf_eq listed, ← movesOf_eq listed_after] at grown
        rcases induction (world.act deed.ant deed.action) bound_rest with rests | grows
        · rw [rests]
          exact .inr grown
        · exact .inr (Nat.lt_trans grown grows)

theorem movesOf_le_actAll (world : World) {deeds : List Deed}
    (bound : ∀ deed ∈ deeds, deed.ant = number) :
    world.movesOf number ≤ (world.actAll deeds).movesOf number := by
  rcases world.actAll_eq_or_movesOf_lt bound with same | grows
  · exact Nat.le_of_eq (by rw [same])
  · exact Nat.le_of_lt grows

/-- A counter of moves has each value at one moment only. -/
theorem actAll_eq_of_movesOf_eq (world : World) {deeds past other : List Deed}
    (bound : ∀ deed ∈ deeds, deed.ant = number) (beginning : past <+: deeds)
    (beginning_other : other <+: deeds)
    (same : (world.actAll past).movesOf number = (world.actAll other).movesOf number) :
    world.actAll past = world.actAll other := by
  wlog shorter : past <+: other generalizing past other
  · have longer := (List.prefix_or_prefix_of_prefix beginning beginning_other).resolve_left shorter
    exact (this beginning_other beginning same.symm longer).symm
  · obtain ⟨between, rfl⟩ := shorter
    have bound_between : ∀ deed ∈ between, deed.ant = number := fun deed member =>
      bound deed (beginning_other.subset (List.mem_append_right past member))
    rw [actAll_append] at same ⊢
    rcases (world.actAll past).actAll_eq_or_movesOf_lt bound_between with rests | grows
    · exact rests.symm
    · exact absurd same (Nat.ne_of_lt grows)

/-- The budget lies between the moves that an ant has used up and those that it may use up. -/
structure Affords (world : World) (number : Nat) (budget : Int) : Prop where
  /-- The budget is not exceeded. -/
  moves : (world.movesOf number : Int) ≤ budget
  /-- The ant may act as often. -/
  within : ∀ ant, world.ants[number]? = some ant → budget ≤ ant.maxMoves

/-- One action is the same under both budgets, unless the smaller one is used up and the larger one
is not. -/
theorem Affords.act {small : Int} (affords : world.Affords number small) (action : Action) :
    (world.act number action).Affords number small ∧
        (world.withBudget number small).act number action =
          (world.act number action).withBudget number small ∨
      (world.movesOf number : Int) = small ∧ small < (world.act number action).movesOf number := by
  rcases Int.lt_or_eq_of_le affords.moves with left | spent
  · refine .inl ⟨?_, act_withBudget (fun ant landscape standing => ?_) action⟩
    · rcases world.act_eq_or_moves number action with
        same | ⟨ant, after, listed, listed_after, budget, moves⟩
      · rw [same]
        exact affords
      · rw [movesOf_eq listed] at left
        refine ⟨by rw [movesOf_eq listed_after, moves]; omega, fun other listed_other => ?_⟩
        obtain rfl : after = other := Option.some.inj (listed_after.symm.trans listed_other)
        rw [budget]
        exact affords.within ant listed
    · obtain ⟨listed, -⟩ := antOnLand?_eq_some_iff.mp standing
      have larger := affords.within ant listed
      rw [movesOf_eq listed] at left
      simp only [Ant.canAct, Ant.withBudget, left, Int.lt_of_lt_of_le left larger]
  · rcases world.act_eq_or_moves number action with
      same | ⟨ant, after, listed, listed_after, -, moves⟩
    · rw [same, act_withBudget_of_spent (Int.le_of_eq spent.symm)]
      exact .inl ⟨affords, rfl⟩
    · rw [movesOf_eq listed] at spent ⊢
      rw [movesOf_eq listed_after, moves]
      exact .inr ⟨spent, by omega⟩

/-- An ant whose budget is used up changes nothing, whatever it is asked for. -/
theorem actAll_withBudget_of_spent {budget : Int} (spent : budget ≤ world.movesOf number)
    {deeds : List Deed} (bound : ∀ deed ∈ deeds, deed.ant = number) :
    (world.withBudget number budget).actAll deeds = world.withBudget number budget := by
  induction deeds with
  | nil => rfl
  | cons deed deeds induction =>
      obtain ⟨rfl, bound_rest⟩ := List.forall_mem_cons.mp bound
      rw [actAll_cons, act_withBudget_of_spent spent, induction bound_rest]

/-- How the run under the smaller of two budgets ends.  The world is the first one of the run under
the larger budget, which asks for the deeds; each run has an outcome and leaves a world. -/
inductive Truncated {Outcome : Type} (number : Nat) (small : Int) (world : World)
    (deeds : List Deed) (long short : Outcome × World) : Prop
  /-- The smaller budget is enough. -/
  | complete (affords : long.2.Affords number small) (outcome : short.1 = long.1)
      (last : short.2 = long.2.withBudget number small)
  /-- The smaller budget is used up at a moment of the run under the larger one. -/
  | stopped (past : List Deed) (beginning : past <+: deeds)
      (spent : ((world.actAll past).movesOf number : Int) = small)
      (exceeded : small < long.2.movesOf number)
      (last : short.2 = (world.actAll past).withBudget number small)

/-- A run ends as what is left of it does after its first actions. -/
theorem Truncated.prepend {Outcome Whole : Type} {small : Int} {before deeds : List Deed}
    {middle : World} (reached : middle = world.actAll before) (extend : Outcome → Whole)
    {long short : Outcome × World} (rest : Truncated number small middle deeds long short) :
    Truncated number small world (before ++ deeds) (extend long.1, long.2)
      (extend short.1, short.2) := by
  subst reached
  cases rest with
  | complete affords outcome last => exact .complete affords (congrArg extend outcome) last
  | stopped past beginning spent exceeded last =>
      rw [← actAll_append] at spent last
      exact .stopped (before ++ past) ((List.prefix_append_right_inj before).mpr beginning) spent
        exceeded last

/-- A course is followed alike under both budgets until the smaller one is used up; from then on its
actions change nothing under this one, whatever the ant sees. -/
theorem truncated_course {Result : Type} {course : Course Result} (bound : course.BoundTo number)
    {small : Int} (affords : world.Affords number small) :
    Truncated number small world (course.deeds world) (course.run world)
      (course.run (world.withBudget number small)) := by
  induction course generalizing world with
  | done outcome => exact .complete affords rfl rfl
  | act actor action next induction =>
      obtain rfl : actor = number := bound.1
      have bound_next : next.BoundTo actor := bound.2
      rcases affords.act action with ⟨affords_next, same⟩ | ⟨spent, exceeded⟩
      · have rest := induction bound_next affords_next
        rw [← same] at rest
        have reached : world.act actor action = world.actAll [⟨actor, action⟩] := rfl
        exact rest.prepend reached id
      · refine .stopped [] List.nil_prefix spent ?_ ?_
        · have grows := (world.act actor action).movesOf_le_actAll
            (bound_next.ant_of_mem_deeds (world.act actor action))
          rw [← Course.run_eq_actAll] at grows
          exact Int.lt_of_lt_of_le exceeded (Int.ofNat_le.mpr grows)
        · rw [Course.run_eq_actAll]
          exact actAll_withBudget_of_spent (Int.le_of_eq spent.symm) (bound.ant_of_mem_deeds _)
  | look observer next induction =>
      obtain ⟨rfl, bound_next⟩ := bound
      have rest := induction (world.isFoodAhead observer) (bound_next _) affords
      rw [Course.run, Course.run, Course.deeds, isFoodAhead_withBudget]
      exact rest

/-- So are events one after another. -/
theorem truncated_run {events : List Event} (bound : ∀ event ∈ events, event.BoundTo number)
    {small : Int} (affords : world.Affords number small) :
    Truncated number small world (world.deeds events) (world.run events)
      ((world.withBudget number small).run events) := by
  induction events generalizing world with
  | nil => exact .complete affords rfl rfl
  | cons event rest induction =>
      obtain ⟨bound_event, bound_rest⟩ := List.forall_mem_cons.mp bound
      have first := truncated_course bound_event.course affords
      rw [event.run_course, event.run_course] at first
      cases first with
      | complete affords_next outcome last =>
          have later := induction bound_rest affords_next
          rw [← last] at later
          rw [run_cons, run_cons, outcome]
          exact later.prepend (world.on_occur_eq_actAll event) ((event.occur.on world).1 :: ·)
      | stopped past beginning spent exceeded last =>
          rw [deeds]
          refine .stopped past (beginning.trans (List.prefix_append _ _)) spent ?_ ?_
          · have grows := (event.occur.on world).2.movesOf_le_actAll
              ((event.occur.on world).2.ant_of_mem_deeds bound_rest)
            rw [← run_eq_actAll] at grows
            exact Int.lt_of_lt_of_le exceeded (Int.ofNat_le.mpr grows)
          · rw [run_cons, last, run_eq_actAll]
            exact actAll_withBudget_of_spent (Int.le_of_eq spent.symm)
              (ant_of_mem_deeds _ bound_rest)

/-- Two runs of the same events, all bound to one ant, start in worlds that differ in the budget of
this ant only, and it has used up no more moves than the smaller budget allows.  If the run under
the larger budget keeps to the smaller one, the other run gives the same values and errors and ends
in the same world.  If it does not, the other run uses up its budget and ends in the world of the
one moment at which the first run has used up as many moves.  The two worlds of the end still differ
in the budget of the ant.  An evaluation leaves the world as it is if the ant has no moves left. -/
theorem budget_truncates_run (world : World) (number : Nat) :
    (∀ (small large : Int) (events : List Event),
        small ≤ large → (world.movesOf number : Int) ≤ small →
        (∀ event ∈ events, event.BoundTo number) →
        let start := world.withBudget number large
        let long := start.run events
        let short := (world.withBudget number small).run events
        ((long.2.movesOf number : Int) ≤ small →
            short.1 = long.1 ∧ short.2 = long.2.withBudget number small) ∧
          (small < long.2.movesOf number →
            short.2.movesOf number = small ∧ long.2 = start.actAll (start.deeds events) ∧
              (∃ past, past <+: start.deeds events ∧
                ((start.actAll past).movesOf number : Int) = small) ∧
              ∀ past, past <+: start.deeds events →
                ((start.actAll past).movesOf number : Int) = small →
                short.2 = (start.actAll past).withBudget number small)) ∧
      ∀ (ant : Ant) (valuation : Variable → Value) (tree : Tree),
        world.ants[number]? = some ant → ant.maxMoves ≤ ant.moves → tree.BoundTo number →
        ((tree.evaluate valuation).on world).2 = world := by
  refine ⟨fun small large events smaller unspent bound => ?_,
    fun ant valuation tree listed spent bound => ?_⟩
  · intro start long short
    have affords : start.Affords number small := by
      refine ⟨by rwa [movesOf_withBudget], fun ant listed => ?_⟩
      rw [getElem?_ants_withBudget, Option.map_eq_some_iff] at listed
      obtain ⟨original, -, rfl⟩ := listed
      exact smaller
    have truncated := truncated_run bound affords
    rw [withBudget_withBudget] at truncated
    cases truncated with
    | complete affords_last outcome last =>
        exact ⟨fun _ => ⟨outcome, last⟩, fun exceeded =>
          absurd affords_last.moves (Int.not_le.mpr exceeded)⟩
    | stopped past beginning spent exceeded last =>
        refine ⟨fun kept => absurd kept (Int.not_le.mpr exceeded), fun _ => ⟨?_, ?_, ?_, ?_⟩⟩
        · rw [last, movesOf_withBudget, spent]
        · exact start.run_eq_actAll events
        · exact ⟨past, beginning, spent⟩
        · intro other beginning_other spent_other
          rw [last, start.actAll_eq_of_movesOf_eq (start.ant_of_mem_deeds bound) beginning
            beginning_other (Int.ofNat_inj.mp (spent.trans spent_other.symm))]
  · rw [← movesOf_eq listed] at spent
    have inert := actAll_withBudget_of_spent spent ((bound.course valuation).ant_of_mem_deeds world)
    rw [withBudget_maxMoves listed] at inert
    rw [← Tree.run_course, Course.run_eq_actAll, inert]

/-- With three moves left an ant eats twice and then turns; with one move left it stays in front of
the second food, which it sees and cannot reach. -/
theorem budget_truncates_run_before_food :
    let landscape : Landscape :=
      ⟨4, 1, [⟨1, 0⟩, ⟨2, 0⟩], by decide, by decide, by decide, by decide⟩
    let world : World := ⟨[landscape], [⟨0, 9, ⟨0, 0⟩, .east, 7, 4⟩]⟩
    let stride : Tree :=
      .node (.foodAhead 0) [.node (.action .move 0) [], .node (.action .turnLeft 0) []]
    let walk : Tree := .node (.sequence 3) [stride, stride, stride]
    let events := [.evaluate (fun _ => .nothing) walk]
    let start := world.withBudget 0 10
    let short := (world.withBudget 0 8).run events
    walk.BoundTo 0 ∧ start.deeds events = [⟨0, .move⟩, ⟨0, .move⟩, ⟨0, .turnLeft⟩] ∧
      (start.run events).2.movesOf 0 = 10 ∧ short.2.movesOf 0 = 8 ∧
      short.2 = (start.act 0 .move).withBudget 0 8 ∧
      ((walk.evaluate fun _ => .nothing).on short.2).2 = short.2 := by
  intro landscape world stride walk events start short
  have bound : walk.BoundTo 0 := by decide
  have all_bound : ∀ event ∈ events, event.BoundTo 0 := List.forall_mem_singleton.mpr bound
  have asked : start.deeds events = [⟨0, .move⟩, ⟨0, .move⟩, ⟨0, .turnLeft⟩] := by decide
  have exceeded : (start.run events).2.movesOf 0 = 10 := rfl
  obtain ⟨spent, -, -, moment⟩ := ((budget_truncates_run world 0).1 8 10 events (by decide)
    (by decide) all_bound).2 (by decide)
  have stopped : short.2 = (start.act 0 .move).withBudget 0 8 := by
    refine moment [⟨0, .move⟩] ?_ rfl
    rw [asked]
    exact ⟨_, rfl⟩
  refine ⟨bound, asked, exceeded, Int.ofNat_inj.mp spent, stopped, ?_⟩
  exact (budget_truncates_run short.2 0).2 _ _ walk rfl (by decide) bound

end World

end GeneticProgram
