import GeneticProgram.Proofs.EvaluationCourse

/-!
# The plan of a node

A node sees its children only by asking for the values of its slots.  The plan of a symbol says what
a node of the symbol does next: it asks for a slot, lets an ant act, looks for food in front of one,
or ends.  Evaluating a node is following its plan with the evaluations of what fills the slots, so
that the plan tells which slots are asked for and in which worlds.  Operators, sequences and the two
kinds of choice differ in their plans only, and what holds of one request of a plan holds of all of
them.
-/

namespace GeneticProgram

namespace Run

variable {Result Middle Final : Type}

/-- Go on with a value in the world that is left; an error ends the run. -/
def proceed (next : Result → World → Except EvaluationError Final × World) :
    Except EvaluationError Result × World → Except EvaluationError Final × World
  | (.ok value, world) => next value world
  | (.error error, world) => (.error error, world)

@[simp] theorem proceed_value (next : Result → World → Except EvaluationError Final × World)
    (value : Result) (world : World) : proceed next (.ok value, world) = next value world := rfl

@[simp] theorem proceed_error (next : Result → World → Except EvaluationError Final × World)
    (error : EvaluationError) (world : World) :
    proceed next (.error error, world) = (.error error, world) := rfl

theorem proceed_proceed (later : Middle → World → Except EvaluationError Final × World)
    (next : Result → World → Except EvaluationError Middle × World)
    (given : Except EvaluationError Result × World) :
    proceed later (proceed next given) =
      proceed (fun value world => proceed later (next value world)) given := by
  rcases given with ⟨outcome, world⟩
  cases outcome with
  | error error => rfl
  | ok value => rfl

/-- To end with the value that is given is to end at once. -/
theorem proceed_ok (given : Except EvaluationError Result × World) :
    proceed (fun value world => (.ok value, world)) given = given := by
  rcases given with ⟨outcome, world⟩
  cases outcome with
  | error error => rfl
  | ok value => rfl

theorem on_bind_eq_proceed (first : Run Result) (next : Result → Run Final) (world : World) :
    (first >>= next).on world = proceed (fun value => (next value).on) (first.on world) :=
  on_bind first next world

end Run

/-- What is still to happen in the evaluation of a node. -/
inductive Plan
  /-- The evaluation ends. -/
  | done (outcome : Except EvaluationError Value)
  /-- An ant is to act. -/
  | act (ant : Nat) (action : Action) (next : Plan)
  /-- What happens next depends on the food in front of an ant. -/
  | look (ant : Nat) (next : Bool → Plan)
  /-- What happens next depends on the value of a slot; there is no next if it fails. -/
  | ask (slot : Nat) (next : Value → Plan)

namespace Plan

variable {slots other : Nat → Run Value} {world : World}

/-- End with the value of a slot. -/
def answer (slot : Nat) : Plan := .ask slot fun value => .done (.ok value)

/-- Ask for a number of slots, from one on. -/
def gather (next : List Value → Plan) : Nat → Nat → Plan
  | 0, _ => next []
  | count + 1, slot =>
    .ask slot fun value => gather (fun values => next (value :: values)) count (slot + 1)

/-- Follow a plan in a world, with what the slots give. -/
def run (slots : Nat → Run Value) (plan : Plan) (world : World) :
    Except EvaluationError Value × World :=
  match plan with
  | .done outcome => (outcome, world)
  | .act ant action next => next.run slots (world.act ant action)
  | .look ant next => (next (world.isFoodAhead ant)).run slots world
  | .ask slot next =>
    Run.proceed (fun value middle => (next value).run slots middle) ((slots slot).on world)

/-- The slots that a plan asks for, each with the world at that moment. -/
def requests (slots : Nat → Run Value) (plan : Plan) (world : World) : List (Nat × World) :=
  match plan with
  | .done _ => []
  | .act ant action next => next.requests slots (world.act ant action)
  | .look ant next => (next (world.isFoodAhead ant)).requests slots world
  | .ask slot next =>
    (slot, world) ::
      match (slots slot).on world with
      | (.ok value, middle) => (next value).requests slots middle
      | (.error _, _) => []

/-- After its first request a plan makes those of the plan that follows on the value of the slot. -/
theorem mem_requests_ask {slot : Nat} {next : Value → Plan} {request : Nat × World} :
    request ∈ (ask slot next).requests slots world ↔
      request = (slot, world) ∨ ∃ value middle, (slots slot).on world = (.ok value, middle) ∧
        request ∈ (next value).requests slots middle := by
  rw [requests, List.mem_cons]
  refine or_congr_right ?_
  rcases (slots slot).on world with ⟨outcome, middle⟩
  cases outcome with
  | error error => simp
  | ok value =>
      constructor
      · exact fun asked => ⟨value, middle, rfl, asked⟩
      · rintro ⟨_, _, given, asked⟩
        cases given
        exact asked

/-- A plan depends on its slots only where it asks for them. -/
theorem run_congr (plan : Plan)
    (agree : ∀ request ∈ plan.requests slots world,
      (other request.1).on request.2 = (slots request.1).on request.2) :
    plan.run other world = plan.run slots world := by
  induction plan generalizing world with
  | done outcome => rfl
  | act ant action next induction => exact induction agree
  | look ant next induction => exact induction _ agree
  | ask slot next induction =>
      rw [run, run, agree (slot, world) (mem_requests_ask.mpr (.inl rfl))]
      rcases given : (slots slot).on world with ⟨outcome, middle⟩
      cases outcome with
      | error error => rfl
      | ok value =>
          exact induction value fun request asked =>
            agree request (mem_requests_ask.mpr (.inr ⟨value, middle, given, asked⟩))

theorem run_answer (slot : Nat) : (answer slot).run slots world = (slots slot).on world :=
  Run.proceed_ok _

/-- The plan itself does not end with the error. -/
def Avoids (error : EvaluationError) : Plan → Prop
  | .done outcome => outcome ≠ .error error
  | .act _ _ next => next.Avoids error
  | .look _ next => ∀ seen, (next seen).Avoids error
  | .ask _ next => ∀ value, (next value).Avoids error

theorem avoids_answer (error : EvaluationError) (slot : Nat) : (answer slot).Avoids error :=
  fun _ impossible => by cases impossible

theorem avoids_gather {error : EvaluationError} {next : List Value → Plan}
    (avoids : ∀ values, (next values).Avoids error) (count slot : Nat) :
    (gather next count slot).Avoids error := by
  induction count generalizing next slot with
  | zero => exact avoids []
  | succ count induction => exact fun value => induction (fun values => avoids (value :: values)) _

/-- An error that is not the plan's own comes from a slot that the plan asks for. -/
theorem run_eq_error_iff {error : EvaluationError} {plan : Plan} (avoids : plan.Avoids error) :
    (plan.run slots world).1 = .error error ↔
      ∃ request ∈ plan.requests slots world,
        ((slots request.1).on request.2).1 = .error error := by
  induction plan generalizing world with
  | done outcome => simpa [run, requests] using show outcome ≠ .error error from avoids
  | act ant action next induction => exact induction avoids
  | look ant next induction => exact induction _ (avoids _)
  | ask slot next induction =>
      simp only [run, requests, List.mem_cons, exists_eq_or_imp]
      rcases (slots slot).on world with ⟨outcome, middle⟩
      cases outcome with
      | error failure => simp
      | ok value => simpa using induction value (avoids value)

/-- The plan asks for slots in ascending order, none of them below the least. -/
def Ascends (least : Nat) : Plan → Prop
  | .done _ => True
  | .act _ _ next => next.Ascends least
  | .look _ next => ∀ seen, (next seen).Ascends least
  | .ask slot next => least ≤ slot ∧ ∀ value, (next value).Ascends (slot + 1)

theorem ascends_answer {least slot : Nat} (above : least ≤ slot) : (answer slot).Ascends least :=
  ⟨above, fun _ => trivial⟩

theorem ascends_gather {next : List Value → Plan}
    (ends : ∀ values least, (next values).Ascends least) (count slot : Nat) :
    (gather next count slot).Ascends slot := by
  induction count generalizing next slot with
  | zero => exact ends [] slot
  | succ count induction =>
      exact ⟨Nat.le_refl slot, fun value => induction (fun values => ends (value :: values)) _⟩

theorem Ascends.le_of_mem_requests {least : Nat} {plan : Plan} (ascends : plan.Ascends least)
    {request : Nat × World} (asked : request ∈ plan.requests slots world) : least ≤ request.1 := by
  induction plan generalizing least world with
  | done outcome => cases asked
  | act ant action next induction => exact induction ascends asked
  | look ant next induction => exact induction _ (ascends _) asked
  | ask slot next induction =>
      obtain ⟨above, later⟩ := ascends
      rcases mem_requests_ask.mp asked with rfl | ⟨value, middle, -, asked⟩
      · exact above
      · exact Nat.le_trans above (Nat.le_of_succ_le (induction value (later value) asked))

/-- If one slot that an ascending plan asks for comes to fail, then so does the plan. -/
theorem Ascends.run_eq_error {least : Nat} {plan : Plan} (ascends : plan.Ascends least)
    {request : Nat × World} (asked : request ∈ plan.requests slots world)
    (agree : ∀ slot, slot ≠ request.1 → other slot = slots slot) {error : EvaluationError}
    (fails : ((other request.1).on request.2).1 = .error error) :
    (plan.run other world).1 = .error error := by
  induction plan generalizing least world with
  | done outcome => cases asked
  | act ant action next induction => exact induction ascends asked
  | look ant next induction => exact induction _ (ascends _) asked
  | ask slot next induction =>
      obtain ⟨above, later⟩ := ascends
      rw [run]
      rcases mem_requests_ask.mp asked with rfl | ⟨value, middle, given, asked⟩
      · rcases ended : (other slot).on world with ⟨outcome, middle⟩
        rw [ended] at fails
        obtain rfl : outcome = .error error := fails
        rfl
      -- The failing slot comes later, so that this one still gives what it gave.
      · have beyond := (later value).le_of_mem_requests asked
        rw [agree slot (Nat.ne_of_lt beyond), given]
        exact induction value (later value) asked

end Plan

/-- The plan of a node of the symbol. -/
def Symbol.plan (valuation : Variable → Value) : Symbol → Plan
  | .node name arity => .done (.error (.inert (Symbol.node name arity).kindName))
  | .function name arity => .done (.error (.inert (Symbol.function name arity).kindName))
  | .terminal name => .done (.error (.inert (Symbol.terminal name).kindName))
  | .literal value _ => .done (.ok value)
  | .boolean truth => .done (.ok (.boolean truth))
  | .double number => .done (.ok (.double number))
  | .variable place => .done (.ok (valuation place))
  | .operator kind =>
    .gather (fun values => .done ((kind.apply values).mapError .conversion)) kind.arity 0
  | .conditional => .ask 0 fun condition => if condition.truth then .answer 1 else .answer 2
  | .sequence arity => .gather (fun _ => .done (.ok .nothing)) arity 0
  | .foodAhead ant => .look ant fun seen => if seen then .answer 0 else .answer 1
  | .action kind ant => .act ant kind (.done (.ok .nothing))

namespace Symbol

variable {valuation other : Variable → Value}

/-- Only the plan of a variable depends on the values of the variables. -/
theorem plan_congr {symbol : Symbol}
    (agree : ∀ place, symbol = .variable place → other place = valuation place) :
    symbol.plan other = symbol.plan valuation := by
  cases symbol with
  | «variable» place => rw [plan, plan, agree place rfl]
  | _ => rfl

/-- No plan ends of its own with the error of a hole. -/
theorem plan_avoids_unset (symbol : Symbol) (slot : Nat) (name : String) :
    (symbol.plan valuation).Avoids (.unset slot name) := by
  cases symbol with
  | operator kind =>
      refine Plan.avoids_gather (fun values => ?_) _ _
      rw [Plan.Avoids]
      cases kind.apply values with
      | error error => nofun
      | ok value => nofun
  | conditional =>
      intro condition
      dsimp only
      split
      · exact Plan.avoids_answer _ 1
      · exact Plan.avoids_answer _ 2
  | sequence arity =>
      refine Plan.avoids_gather (fun values => ?_) _ _
      simp [Plan.Avoids]
  | foodAhead ant =>
      intro seen
      cases seen with
      | false => exact Plan.avoids_answer _ 1
      | true => exact Plan.avoids_answer _ 0
  | _ => simp [plan, Plan.Avoids]

/-- A node asks for no slot twice. -/
theorem plan_ascends (symbol : Symbol) : (symbol.plan valuation).Ascends 0 := by
  cases symbol with
  | operator kind =>
      refine Plan.ascends_gather (fun values least => ?_) _ _
      trivial
  | conditional =>
      refine ⟨Nat.le_refl 0, fun condition => ?_⟩
      dsimp only
      split
      · exact Plan.ascends_answer (by decide)
      · exact Plan.ascends_answer (by decide)
  | sequence arity =>
      refine Plan.ascends_gather (fun values least => ?_) _ _
      trivial
  | foodAhead ant =>
      intro seen
      cases seen with
      | false => exact Plan.ascends_answer (by decide)
      | true => exact Plan.ascends_answer (by decide)
  | _ => trivial

end Symbol

namespace Tree

variable {valuation : Variable → Value} {world : World}

/-- What fills a slot; a slot that is not there is a hole. -/
def inSlot (children : List Tree) (slot : Nat) : Tree := children.getD slot .hole

@[simp] theorem inSlot_cons_zero (child : Tree) (rest : List Tree) :
    inSlot (child :: rest) 0 = child := rfl

@[simp] theorem inSlot_cons_succ (child : Tree) (rest : List Tree) (slot : Nat) :
    inSlot (child :: rest) (slot + 1) = inSlot rest slot := rfl

/-- Ask for the value of what stands in a slot of a named node. -/
def ask (valuation : Variable → Value) (name : String) (slot : Nat) : Tree → Run Value
  | .hole => Run.fail (.unset slot name)
  | .node symbol children => (node symbol children).evaluate valuation

/-- What the slots of a named node give. -/
def slots (valuation : Variable → Value) (name : String) (children : List Tree) (slot : Nat) :
    Run Value :=
  (inSlot children slot).ask valuation name slot

/-- The child that stands in a slot is asked for as that slot is. -/
theorem evaluateChild_eq_slots (name : String) (slot : Nat) (children : List Tree) :
    evaluateChild valuation name slot slot children = slots valuation name children slot := by
  suffices further : ∀ count, evaluateChild valuation name slot count children =
      (inSlot children count).ask valuation name slot from further slot
  intro further
  induction children generalizing further with
  | nil => cases further <;> rfl
  | cons child rest induction =>
      cases further with
      | zero => cases child <;> rfl
      | succ further =>
          rw [evaluateChild]
          exact induction further

theorem evaluateAll_succ (name : String) (count slot : Nat) (children : List Tree) :
    evaluateAll valuation name (count + 1) slot children = (do
      let value ← (inSlot children 0).ask valuation name slot
      let values ← evaluateAll valuation name count (slot + 1) children.tail
      pure (value :: values)) := by
  match children with
  | [] => rfl
  | .hole :: _ => rfl
  | .node symbol below :: rest =>
      rw [evaluateAll]
      · rfl
      · nofun

/-- Asking for the slots from one on is evaluating the children that fill them. -/
theorem run_gather (name : String) (children : List Tree) (next : List Value → Plan)
    (count slot : Nat) (world : World) :
    (Plan.gather next count slot).run (slots valuation name children) world =
      Run.proceed (fun values => (next values).run (slots valuation name children))
        ((evaluateAll valuation name count slot (children.drop slot)).on world) := by
  induction count generalizing next slot world with
  | zero =>
      rw [evaluateAll]
      rfl
  | succ count induction =>
      have here : inSlot (children.drop slot) 0 = inSlot children slot := by
        simp [inSlot, List.getD_eq_getElem?_getD]
      rw [evaluateAll_succ, here, List.tail_drop, Run.on_bind_eq_proceed, Run.proceed_proceed,
        Plan.gather, Plan.run, slots]
      congr 1
      funext value middle
      rw [induction, Run.on_bind_eq_proceed, Run.proceed_proceed]
      rfl

/-- Evaluating a node is following the plan of its symbol. -/
theorem on_evaluate_node (symbol : Symbol) (children : List Tree) (world : World) :
    ((node symbol children).evaluate valuation).on world =
      (symbol.plan valuation).run (slots valuation symbol.identifier children) world := by
  cases symbol with
  | operator kind =>
      rw [Symbol.plan, run_gather, List.drop_zero, evaluate, Run.on_bind_eq_proceed]
      rfl
  | conditional =>
      rw [Symbol.plan, Plan.run, evaluate, Run.on_bind_eq_proceed]
      simp only [evaluateChild_eq_slots]
      refine congrArg (Run.proceed · _) (funext fun condition => funext fun middle => ?_)
      split
      · exact (Plan.run_answer 1).symm
      · exact (Plan.run_answer 2).symm
  | sequence arity =>
      rw [Symbol.plan, run_gather, List.drop_zero, evaluate, Run.on_bind_eq_proceed]
      rfl
  | foodAhead ant =>
      rw [Symbol.plan, Plan.run, evaluate, Run.on_bind_eq_proceed]
      simp only [evaluateChild_eq_slots]
      change Run.on (if world.isFoodAhead ant = true then _ else _) world = _
      split
      · exact (Plan.run_answer 0).symm
      · exact (Plan.run_answer 1).symm
  | _ => rfl

end Tree
end GeneticProgram
