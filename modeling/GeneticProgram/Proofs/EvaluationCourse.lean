import GeneticProgram.Tree.Evaluation

/-!
# The course of an evaluation

An evaluation touches the world in two ways only: it lets an ant act, and it looks for food in
front of an ant.  The course of an evaluation is the finite tree of what it does next, which
branches where it looks.  Running the course of a tree is evaluating the tree, so that what holds of
the three steps of a course holds of every evaluation: an error ends it wherever it arises, and the
world is then as the actions so far have left it.

A run is a list of events, each an action of an ant or the evaluation of a tree.  Its deeds are all
actions that are asked for on the way, in their order, whether or not they have an effect.
-/

namespace GeneticProgram

/-- What is still to happen in an evaluation. -/
inductive Course (Result : Type)
  /-- The evaluation ends. -/
  | done (outcome : Except EvaluationError Result)
  /-- An ant is to act. -/
  | act (ant : Nat) (action : Action) (next : Course Result)
  /-- What happens next depends on the food in front of an ant. -/
  | look (ant : Nat) (next : Bool → Course Result)

/-- An action that an ant is asked for. -/
structure Deed where
  /-- The number of the ant. -/
  ant : Nat
  /-- What the ant is to do. -/
  action : Action
deriving DecidableEq

namespace World

/-- Let ants act one after another. -/
def actAll (world : World) (deeds : List Deed) : World :=
  deeds.foldl (fun world deed => world.act deed.ant deed.action) world

@[simp] theorem actAll_nil (world : World) : world.actAll [] = world := rfl

@[simp] theorem actAll_cons (world : World) (deed : Deed) (deeds : List Deed) :
    world.actAll (deed :: deeds) = (world.act deed.ant deed.action).actAll deeds := rfl

theorem actAll_append (world : World) (first second : List Deed) :
    world.actAll (first ++ second) = (world.actAll first).actAll second :=
  List.foldl_append

end World

namespace Course

variable {Result Final : Type}

/-- Go on after an evaluation that gives a value. -/
def bind (course : Course Result) (next : Result → Course Final) : Course Final :=
  match course with
  | .done (.ok value) => next value
  | .done (.error error) => .done (.error error)
  | .act ant action rest => .act ant action (rest.bind next)
  | .look ant rest => .look ant fun seen => (rest seen).bind next

/-- Follow a course in a world. -/
def run (course : Course Result) (world : World) : Except EvaluationError Result × World :=
  match course with
  | .done outcome => (outcome, world)
  | .act ant action next => next.run (world.act ant action)
  | .look ant next => (next (world.isFoodAhead ant)).run world

/-- The actions that a course asks for in a world. -/
def deeds (course : Course Result) (world : World) : List Deed :=
  match course with
  | .done _ => []
  | .act ant action next => ⟨ant, action⟩ :: next.deeds (world.act ant action)
  | .look ant next => (next (world.isFoodAhead ant)).deeds world

/-- A course changes the world by its actions only. -/
theorem run_eq_actAll (course : Course Result) (world : World) :
    (course.run world).2 = world.actAll (course.deeds world) := by
  induction course generalizing world with
  | done outcome => rfl
  | act ant action next induction => exact induction (world.act ant action)
  | look ant next induction => exact induction (world.isFoodAhead ant) world

/-- The course of one evaluation after another is followed as the two are. -/
theorem run_bind (course : Course Result) (next : Result → Course Final) (world : World) :
    (course.bind next).run world =
      match course.run world with
      | (.ok value, middle) => (next value).run middle
      | (.error error, middle) => (.error error, middle) := by
  induction course generalizing world with
  | done outcome =>
      cases outcome with
      | error error => rfl
      | ok value => rfl
  | act ant action rest induction => exact induction (world.act ant action)
  | look ant rest induction => exact induction (world.isFoodAhead ant) world

end Course

namespace Run

variable {Result Final : Type}

/-- Two computations one after another run as the second does in the world that the first leaves,
unless the first fails. -/
theorem on_bind (first : Run Result) (next : Result → Run Final) (world : World) :
    (first >>= next).on world =
      match first.on world with
      | (.ok value, middle) => (next value).on middle
      | (.error error, middle) => (.error error, middle) := by
  simp only [on, bind, ExceptT.bind, ExceptT.mk, StateT.bind, ExceptT.bindCont]
  rcases first world with ⟨outcome, middle⟩
  cases outcome with
  | error error => rfl
  | ok value => rfl

end Run

namespace Tree

mutual

/-- The course of the evaluation of a tree. -/
def course (valuation : Variable → Value) : Tree → Course Value
  | .hole => .done (.ok .nothing)
  | .node symbol children =>
    match symbol with
    | .node _ _ | .function _ _ | .terminal _ => .done (.error (.inert symbol.kindName))
    | .literal value _ => .done (.ok value)
    | .boolean truth => .done (.ok (.boolean truth))
    | .double number => .done (.ok (.double number))
    | .variable place => .done (.ok (valuation place))
    | .operator kind =>
      (courseAll valuation kind.identifier kind.arity 0 children).bind fun values =>
        .done ((kind.apply values).mapError .conversion)
    | .conditional =>
      (courseChild valuation symbol.identifier 0 0 children).bind fun condition =>
        if condition.truth then courseChild valuation symbol.identifier 1 1 children
        else courseChild valuation symbol.identifier 2 2 children
    | .sequence arity =>
      (courseAll valuation symbol.identifier arity 0 children).bind fun _ => .done (.ok .nothing)
    | .foodAhead ant => .look ant fun seen =>
      if seen then courseChild valuation symbol.identifier 0 0 children
      else courseChild valuation symbol.identifier 1 1 children
    | .action kind ant => .act ant kind (.done (.ok .nothing))

/-- The course of the evaluation of the child that stands a number of places further on. -/
def courseChild (valuation : Variable → Value) (name : String) (slot : Nat) :
    Nat → List Tree → Course Value
  | _, [] => .done (.error (.unset slot name))
  | 0, .hole :: _ => .done (.error (.unset slot name))
  | 0, child :: _ => child.course valuation
  | further + 1, _ :: rest => courseChild valuation name slot further rest

/-- The course of the evaluation of the children that fill a number of slots. -/
def courseAll (valuation : Variable → Value) (name : String) :
    Nat → Nat → List Tree → Course (List Value)
  | 0, _, _ => .done (.ok [])
  | _ + 1, slot, [] => .done (.error (.unset slot name))
  | _ + 1, slot, .hole :: _ => .done (.error (.unset slot name))
  | count + 1, slot, child :: rest =>
    (child.course valuation).bind fun value =>
      (courseAll valuation name count (slot + 1) rest).bind fun values =>
        .done (.ok (value :: values))

end

mutual

/-- Following the course of a tree is evaluating the tree. -/
theorem run_course (valuation : Variable → Value) (tree : Tree) (world : World) :
    (tree.course valuation).run world = (tree.evaluate valuation).on world := by
  match tree with
  | .hole => rfl
  | .node symbol children =>
      cases symbol with
      | operator kind =>
          rw [course, evaluate, Course.run_bind, Run.on_bind, run_courseAll]
          rfl
      | conditional =>
          rw [course, evaluate, Course.run_bind, Run.on_bind, run_courseChild]
          rcases (evaluateChild valuation _ 0 0 children).on world with ⟨outcome, middle⟩
          cases outcome with
          | error error => rfl
          | ok condition =>
              dsimp only
              split
              · exact run_courseChild valuation _ 1 1 children middle
              · exact run_courseChild valuation _ 2 2 children middle
      | sequence arity =>
          rw [course, evaluate, Course.run_bind, Run.on_bind, run_courseAll]
          rfl
      | foodAhead ant =>
          rw [course, evaluate, Course.run, Run.on_bind]
          change _ = Run.on (if world.isFoodAhead ant = true then _ else _) world
          split
          · exact run_courseChild valuation _ 0 0 children world
          · exact run_courseChild valuation _ 1 1 children world
      | _ => rfl

theorem run_courseChild (valuation : Variable → Value) (name : String) (slot further : Nat)
    (children : List Tree) (world : World) :
    (courseChild valuation name slot further children).run world =
      (evaluateChild valuation name slot further children).on world := by
  match further, children with
  | 0, [] => rfl
  | _ + 1, [] => rfl
  | 0, .hole :: _ => rfl
  | 0, .node symbol below :: _ => exact run_course valuation (.node symbol below) world
  | further + 1, _ :: rest =>
      rw [courseChild, evaluateChild]
      exact run_courseChild valuation name slot further rest world

theorem run_courseAll (valuation : Variable → Value) (name : String) (count slot : Nat)
    (children : List Tree) (world : World) :
    (courseAll valuation name count slot children).run world =
      (evaluateAll valuation name count slot children).on world := by
  match count, children with
  | 0, _ =>
      rw [courseAll, evaluateAll]
      rfl
  | _ + 1, [] => rfl
  | _ + 1, .hole :: _ => rfl
  | count + 1, .node symbol below :: rest =>
      rw [courseAll, evaluateAll, Course.run_bind, Run.on_bind, run_course]
      · rcases ((node symbol below).evaluate valuation).on world with ⟨outcome, middle⟩
        cases outcome with
        | error error => rfl
        | ok value =>
            dsimp only
            rw [Course.run_bind, Run.on_bind, run_courseAll]
            rfl
      · simp
      · simp

end

end Tree

namespace Course

variable {Result Final : Type} {ant : Nat}

/-- Every action and every look of the course is one of the ant. -/
def BoundTo (ant : Nat) : Course Result → Prop
  | .done _ => True
  | .act actor _ next => actor = ant ∧ next.BoundTo ant
  | .look observer next => observer = ant ∧ ∀ seen, (next seen).BoundTo ant

theorem BoundTo.bind {course : Course Result} {next : Result → Course Final}
    (first : course.BoundTo ant) (second : ∀ value, (next value).BoundTo ant) :
    (course.bind next).BoundTo ant := by
  induction course with
  | done outcome =>
      cases outcome with
      | error error => trivial
      | ok value => exact second value
  | act actor action rest induction => exact ⟨first.1, induction first.2⟩
  | look observer rest induction => exact ⟨first.1, fun seen => induction seen (first.2 seen)⟩

theorem BoundTo.ant_of_mem_deeds {course : Course Result} (bound : course.BoundTo ant)
    (world : World) : ∀ deed ∈ course.deeds world, deed.ant = ant := by
  induction course generalizing world with
  | done outcome => exact List.forall_mem_nil _
  | act actor action rest induction =>
      exact List.forall_mem_cons.mpr ⟨bound.1, induction bound.2 (world.act actor action)⟩
  | look observer rest induction => exact induction _ (bound.2 _) world

end Course

namespace Tree

variable {ant : Nat}

/-- Every symbol of the tree that acts on an ant acts on the given one. -/
def BoundTo (ant : Nat) (tree : Tree) : Prop :=
  ∀ symbol ∈ tree.symbols, ∀ other ∈ symbol.ant?, other = ant

instance (tree : Tree) : Decidable (tree.BoundTo ant) :=
  inferInstanceAs (Decidable (∀ symbol ∈ tree.symbols, ∀ other ∈ symbol.ant?, other = ant))

mutual

/-- The course of a tree is bound as the tree is. -/
theorem BoundTo.course {tree : Tree} (bound : tree.BoundTo ant) (valuation : Variable → Value) :
    (tree.course valuation).BoundTo ant := by
  match tree with
  | .hole => trivial
  | .node symbol children =>
      obtain ⟨own, others⟩ := forall_symbols_node_iff.mp bound
      have chosen := fun slot further =>
        boundTo_courseChild others valuation symbol.identifier slot further
      cases symbol with
      | operator kind =>
          rw [Tree.course]
          exact (boundTo_courseAll others valuation _ _ _).bind fun _ => trivial
      | conditional =>
          rw [Tree.course]
          refine (chosen 0 0).bind fun condition => ?_
          split
          · exact chosen 1 1
          · exact chosen 2 2
      | sequence arity =>
          rw [Tree.course]
          exact (boundTo_courseAll others valuation _ _ _).bind fun _ => trivial
      | foodAhead observer =>
          rw [Tree.course]
          refine ⟨own observer rfl, fun seen => ?_⟩
          cases seen with
          | false => exact chosen 1 1
          | true => exact chosen 0 0
      | action kind actor => exact ⟨own actor rfl, trivial⟩
      | _ => trivial

theorem boundTo_courseChild {children : List Tree} (bound : ∀ child ∈ children, child.BoundTo ant)
    (valuation : Variable → Value) (name : String) (slot further : Nat) :
    (courseChild valuation name slot further children).BoundTo ant := by
  match further, children with
  | 0, [] => trivial
  | _ + 1, [] => trivial
  | 0, .hole :: _ => trivial
  | 0, .node symbol below :: _ =>
      exact BoundTo.course (bound (.node symbol below) List.mem_cons_self) valuation
  | further + 1, child :: rest =>
      rw [courseChild]
      exact boundTo_courseChild
        (fun other member => bound other (List.mem_cons_of_mem child member))
        valuation name slot further

theorem boundTo_courseAll {children : List Tree} (bound : ∀ child ∈ children, child.BoundTo ant)
    (valuation : Variable → Value) (name : String) (count slot : Nat) :
    (courseAll valuation name count slot children).BoundTo ant := by
  match count, children with
  | 0, _ =>
      rw [courseAll]
      trivial
  | _ + 1, [] => trivial
  | _ + 1, .hole :: _ => trivial
  | count + 1, .node symbol below :: rest =>
      rw [courseAll]
      · refine (BoundTo.course (bound _ List.mem_cons_self) valuation).bind fun value => ?_
        refine (boundTo_courseAll ?_ valuation name count (slot + 1)).bind fun values => trivial
        exact fun other member => bound other (List.mem_cons_of_mem _ member)
      · simp

end

end Tree

/-- Something that happens in a world. -/
inductive Event
  /-- An ant acts. -/
  | act (ant : Nat) (action : Action)
  /-- A tree is evaluated under a valuation of the variables. -/
  | evaluate (valuation : Variable → Value) (tree : Tree)

namespace Event

/-- What an event does; an action gives nothing. -/
def occur : Event → Run Value
  | .act ant action => Run.act ant action
  | .evaluate valuation tree => tree.evaluate valuation

/-- The course of an event. -/
def course : Event → Course Value
  | .act ant action => .act ant action (.done (.ok .nothing))
  | .evaluate valuation tree => tree.course valuation

/-- The event lets no other ant act and looks for food in front of no other one. -/
def BoundTo (ant : Nat) : Event → Prop
  | .act actor _ => actor = ant
  | .evaluate _ tree => tree.BoundTo ant

theorem run_course (event : Event) (world : World) :
    event.course.run world = event.occur.on world := by
  cases event with
  | act ant action => rfl
  | evaluate valuation tree => exact tree.run_course valuation world

theorem BoundTo.course {ant : Nat} {event : Event} (bound : event.BoundTo ant) :
    event.course.BoundTo ant := by
  cases event with
  | act actor action => exact ⟨bound, trivial⟩
  | evaluate valuation tree => exact Tree.BoundTo.course bound valuation

end Event

namespace World

/-- Let events happen one after another; an error ends its own event only. -/
def run (world : World) : List Event → List (Except EvaluationError Value) × World
  | [] => ([], world)
  | event :: rest =>
    let (outcome, next) := event.occur.on world
    let (outcomes, last) := next.run rest
    (outcome :: outcomes, last)

/-- The actions that events ask for. -/
def deeds (world : World) : List Event → List Deed
  | [] => []
  | event :: rest => event.course.deeds world ++ (event.occur.on world).2.deeds rest

theorem run_cons (world : World) (event : Event) (rest : List Event) :
    world.run (event :: rest) =
      ((event.occur.on world).1 :: ((event.occur.on world).2.run rest).1,
        ((event.occur.on world).2.run rest).2) := rfl

theorem on_occur_eq_actAll (world : World) (event : Event) :
    (event.occur.on world).2 = world.actAll (event.course.deeds world) := by
  rw [← event.run_course, Course.run_eq_actAll]

/-- Events change the world by their actions only. -/
theorem run_eq_actAll (world : World) (events : List Event) :
    (world.run events).2 = world.actAll (world.deeds events) := by
  induction events generalizing world with
  | nil => rfl
  | cons event rest induction =>
      rw [deeds, actAll_append, ← on_occur_eq_actAll]
      exact induction (event.occur.on world).2

/-- Events that are bound to an ant let no other one act. -/
theorem ant_of_mem_deeds {ant : Nat} (world : World) {events : List Event}
    (bound : ∀ event ∈ events, event.BoundTo ant) :
    ∀ deed ∈ world.deeds events, deed.ant = ant := by
  induction events generalizing world with
  | nil => exact List.forall_mem_nil _
  | cons event rest induction =>
      obtain ⟨bound_event, bound_rest⟩ := List.forall_mem_cons.mp bound
      exact List.forall_mem_append.mpr
        ⟨bound_event.course.ant_of_mem_deeds world, induction _ bound_rest⟩

/-- The actions of earlier events come first. -/
theorem deeds_prefix_of_prefix (world : World) {earlier events : List Event}
    (beginning : earlier <+: events) : world.deeds earlier <+: world.deeds events := by
  obtain ⟨later, rfl⟩ := beginning
  induction earlier generalizing world with
  | nil => exact List.nil_prefix
  | cons event rest induction =>
      rw [List.cons_append, deeds, deeds]
      exact (List.prefix_append_right_inj _).mpr (induction _)

end World

end GeneticProgram
