import GeneticProgram.Proofs.CompleteTree
import GeneticProgram.Proofs.EvaluationCourse
import GeneticProgram.Proofs.FactorialSteps

/-!
# The failures of an evaluation

Evaluating a complete tree of symbols that have a meaning fails only where an operator converts an
argument to a number, and the value that cannot be converted was there from the beginning: a text or
an integer that a literal or a variable holds, or the nothing that comes from such a holder, a
sequence or an action.  Every other value was computed by an operator and is a truth value or a
double, which can always be converted.

The argument is one of types.  A course keeps to some values and some errors if every symbol of its
tree does, whatever is seen of the world, and so does the evaluation that follows it.
-/

namespace GeneticProgram

/-! ## Courses that keep to some values and errors -/

/-- The outcome is a good value or a tolerable error. -/
def Settles {Result : Type} (good : Result → Prop) (tolerable : EvaluationError → Prop) :
    Except EvaluationError Result → Prop
  | .ok value => good value
  | .error error => tolerable error

namespace Course

variable {Result Final : Type} {tolerable : EvaluationError → Prop}

/-- Whatever is seen of the world, the course ends with a good value or a tolerable error. -/
def Ends (good : Result → Prop) (tolerable : EvaluationError → Prop) : Course Result → Prop
  | .done outcome => Settles good tolerable outcome
  | .act _ _ next => next.Ends good tolerable
  | .look _ next => ∀ seen, (next seen).Ends good tolerable

theorem Ends.run {good : Result → Prop} {course : Course Result}
    (ends : course.Ends good tolerable) (world : World) :
    Settles good tolerable (course.run world).1 := by
  induction course generalizing world with
  | done outcome => exact ends
  | act ant action next induction => exact induction ends _
  | look ant next induction => exact induction _ (ends _) world

theorem Ends.bind {good : Result → Prop} {fine : Final → Prop} {course : Course Result}
    {next : Result → Course Final} (first : course.Ends good tolerable)
    (second : ∀ value, good value → (next value).Ends fine tolerable) :
    (course.bind next).Ends fine tolerable := by
  induction course with
  | done outcome =>
      cases outcome with
      | error error => exact first
      | ok value => exact second value first
  | act ant action rest induction => exact induction first
  | look ant rest induction => exact fun seen => induction seen (first seen)

end Course

namespace Symbol

/-- Evaluating a node of the symbol keeps to the good values and the tolerable errors if the
evaluation of its children does. -/
def Keeps (valuation : Variable → Value) (good : Value → Prop)
    (tolerable : EvaluationError → Prop) : Symbol → Prop
  | .node _ _ | .function _ _ | .terminal _ => False
  | .literal value _ => good value
  | .boolean truth => good (.boolean truth)
  | .double number => good (.double number)
  | .variable place => good (valuation place)
  | .operator kind => ∀ values : List Value, values.length = kind.arity →
      (∀ value ∈ values, good value) →
      Settles good tolerable ((kind.apply values).mapError .conversion)
  | .conditional | .foodAhead _ => True
  | .sequence _ | .action _ _ => good .nothing

end Symbol

namespace Tree

variable {valuation : Variable → Value} {good : Value → Prop}
  {tolerable : EvaluationError → Prop}

/-- The tree is there, and its course keeps to the good values and the tolerable errors. -/
structure Safe (valuation : Variable → Value) (good : Value → Prop)
    (tolerable : EvaluationError → Prop) (tree : Tree) : Prop where
  /-- The tree is not missing. -/
  present : tree.isHole = false
  /-- The course of the tree ends as it should. -/
  ends : (tree.course valuation).Ends good tolerable

/-- The child in a slot that the node has keeps to what all children keep to. -/
theorem ends_courseChild {children : List Tree}
    (safe : ∀ child ∈ children, child.Safe valuation good tolerable) (name : String) (slot : Nat)
    {further : Nat} (within : further < children.length) :
    (courseChild valuation name slot further children).Ends good tolerable := by
  induction children generalizing further with
  | nil => cases within
  | cons child rest induction =>
      obtain ⟨⟨present, ends⟩, safe_rest⟩ := List.forall_mem_cons.mp safe
      cases further with
      | zero =>
          cases child with
          | hole => cases present
          | node symbol below => exact ends
      | succ further =>
          rw [courseChild]
          exact induction safe_rest (Nat.lt_of_succ_lt_succ within)

/-- All children one after another give as many good values. -/
theorem ends_courseAll {children : List Tree}
    (safe : ∀ child ∈ children, child.Safe valuation good tolerable) (name : String) (slot : Nat) :
    (courseAll valuation name children.length slot children).Ends
      (fun values => values.length = children.length ∧ ∀ value ∈ values, good value) tolerable := by
  induction children generalizing slot with
  | nil => exact ⟨rfl, List.forall_mem_nil _⟩
  | cons child rest induction =>
      obtain ⟨⟨present, ends⟩, safe_rest⟩ := List.forall_mem_cons.mp safe
      cases child with
      | hole => cases present
      | node symbol below =>
          rw [List.length_cons, courseAll]
          · refine ends.bind fun value good_value => ?_
            refine (induction safe_rest (slot + 1)).bind ?_
            rintro values ⟨counted, good_values⟩
            exact ⟨congrArg (· + 1) counted, List.forall_mem_cons.mpr ⟨good_value, good_values⟩⟩
          · simp

/-- A complete tree keeps to what all of its symbols keep to. -/
theorem Complete.safe {tree : Tree} (complete : tree.Complete)
    (keeps : ∀ symbol ∈ tree.symbols, symbol.Keeps valuation good tolerable) :
    tree.Safe valuation good tolerable := by
  induction complete with
  | @node symbol children filled below induction =>
      obtain ⟨own, others⟩ := forall_symbols_node_iff.mp keeps
      have safe := fun child member => induction child member (others child member)
      have chosen := fun slot (within : slot < symbol.arity) =>
        ends_courseChild safe symbol.identifier slot (filled ▸ within)
      have all := fun name => ends_courseAll safe name 0
      refine ⟨rfl, ?_⟩
      cases symbol with
      | operator kind =>
          rw [course]
          rw [filled] at all
          refine (all kind.identifier).bind ?_
          rintro values ⟨counted, good_values⟩
          exact own values counted good_values
      | conditional =>
          rw [course]
          refine (chosen 0 (by decide)).bind fun condition _ => ?_
          split
          · exact chosen 1 (by decide)
          · exact chosen 2 (by decide)
      | sequence arity =>
          rw [course]
          rw [filled] at all
          exact (all _).bind fun values _ => own
      | foodAhead ant =>
          rw [course]
          intro seen
          cases seen with
          | false => exact chosen 1 Nat.one_lt_two
          | true => exact chosen 0 Nat.two_pos
      | node name arity => exact own.elim
      | function name arity => exact own.elim
      | terminal name => exact own.elim
      | _ => exact own

end Tree

/-! ## What operators make of their arguments -/

/-- The value is the reason for which a conversion fails. -/
def ConversionError.CausedBy : ConversionError → Value → Prop
  | .notNumeric content, value => value = .text content ∧ Reading.double? content.toList = none
  | .nothing, value => value = .nothing
  | .tooLarge, value => ∃ number, value = .integer number ∧ Double.ofInt? number = none

namespace Value

/-- The value is of one of the two kinds that operators compute. -/
def isBooleanOrDouble : Value → Bool
  | .boolean _ | .double _ => true
  | .nothing | .text _ | .integer _ => false

theorem causedBy_of_toDouble {value : Value} {error : ConversionError}
    (failed : value.toDouble = .error error) : error.CausedBy value := by
  cases value with
  | nothing =>
      obtain rfl := Except.error.inj failed
      rfl
  | boolean truth => cases failed
  | text content =>
      obtain ⟨unreadable, rfl⟩ := Outcome.elim_eq_error failed
      exact ⟨rfl, unreadable⟩
  | double number => cases failed
  | integer number =>
      obtain ⟨beyond, rfl⟩ := Outcome.elim_eq_error failed
      exact ⟨number, rfl, beyond⟩

theorem causedBy_of_toDoubleOrNaN {value : Value} {error : ConversionError}
    (failed : value.toDoubleOrNaN = .error error) : error.CausedBy value ∧ value ≠ .nothing := by
  by_cases absent : value = .nothing
  · subst absent
    cases failed
  · rw [toDoubleOrNaN] at failed
    · exact ⟨causedBy_of_toDouble failed, absent⟩
    · exact absent

/-- Neither a truth value nor a double is ever the reason for a failure. -/
theorem not_causedBy_of_isBooleanOrDouble {value : Value} (computed : value.isBooleanOrDouble = true)
    (error : ConversionError) : ¬error.CausedBy value := by
  cases error with
  | notNumeric content =>
      rintro ⟨rfl, -⟩
      cases computed
  | nothing =>
      rintro rfl
      cases computed
  | tooLarge =>
      rintro ⟨number, rfl, -⟩
      cases computed

end Value

namespace Operator

variable {kind : Operator} {values : List Value}

/-- The operator does not take nothing for a number. -/
def refusesNothing : Operator → Bool
  | .comparison _ | .factorial => true
  | _ => false

/-- An operator computes a truth value or a double, or one of its arguments is the reason for which
it fails; nothing is a reason only for some. -/
def Accounts (kind : Operator) (values : List Value) : Except ConversionError Value → Prop
  | .ok value => value.isBooleanOrDouble = true
  | .error error => (∃ value ∈ values, error.CausedBy value) ∧
      (error = .nothing → kind.refusesNothing = true)

theorem accounts_toDouble {value : Value} {next : Double → Except ConversionError Value}
    (refuses : kind.refusesNothing = true) (listed : value ∈ values)
    (rest : ∀ number, kind.Accounts values (next number)) :
    kind.Accounts values (value.toDouble >>= next) := by
  cases converted : value.toDouble with
  | ok number => exact rest number
  | error error => exact ⟨⟨value, listed, Value.causedBy_of_toDouble converted⟩, fun _ => refuses⟩

theorem accounts_toDoubleOrNaN {value : Value} {next : Double → Except ConversionError Value}
    (listed : value ∈ values) (rest : ∀ number, kind.Accounts values (next number)) :
    kind.Accounts values (value.toDoubleOrNaN >>= next) := by
  cases converted : value.toDoubleOrNaN with
  | ok number => exact rest number
  | error error =>
      obtain ⟨caused, present⟩ := Value.causedBy_of_toDoubleOrNaN converted
      refine ⟨⟨value, listed, caused⟩, ?_⟩
      rintro rfl
      exact absurd caused present

/-- An operator accounts for what it makes of as many values as it takes. -/
theorem accounts_apply (counted : values.length = kind.arity) :
    kind.Accounts values (kind.apply values) := by
  cases kind with
  | negation =>
      obtain ⟨x, rfl⟩ := List.length_eq_one_iff.mp counted
      rfl
  | connective kind =>
      obtain ⟨x, y, rfl⟩ := List.length_eq_two.mp counted
      rfl
  | unary kind =>
      obtain ⟨x, rfl⟩ := List.length_eq_one_iff.mp counted
      exact accounts_toDoubleOrNaN (by simp) fun _ => rfl
  | binary kind =>
      obtain ⟨x, y, rfl⟩ := List.length_eq_two.mp counted
      refine accounts_toDoubleOrNaN (by simp) fun _ => ?_
      exact accounts_toDoubleOrNaN (by simp) fun _ => rfl
  | comparison kind =>
      obtain ⟨x, y, rfl⟩ := List.length_eq_two.mp counted
      refine accounts_toDouble rfl (by simp) fun _ => ?_
      exact accounts_toDouble rfl (by simp) fun _ => rfl
  | factorial =>
      obtain ⟨x, rfl⟩ := List.length_eq_one_iff.mp counted
      exact accounts_toDouble rfl (by simp) fun _ => rfl
  | scaledPower =>
      obtain ⟨scale, base, exponent, rfl⟩ := List.length_eq_three.mp counted
      refine accounts_toDoubleOrNaN (by simp) fun _ => ?_
      refine accounts_toDoubleOrNaN (by simp) fun _ => ?_
      exact accounts_toDoubleOrNaN (by simp) fun _ => rfl

end Operator

/-! ## Operations spelled out -/

/-- What can go wrong in an operation that is spelled out step by step. -/
inductive OperationFault
  /-- An argument does not stand for a number. -/
  | conversion (error : ConversionError)
  /-- There are too few or too many arguments. -/
  | arguments
  /-- A step of the factorial fails. -/
  | factorial (fault : Double.StepFault)
deriving DecidableEq

namespace Operator

/-- An operator with its steps spelled out.  It wants as many arguments as it takes, and the
factorial has steps of its own; every other numeric function gives a double for all doubles. -/
def attempt (kind : Operator) (values : List Value) : Except OperationFault Value :=
  if values.length = kind.arity then
    match kind, values with
    | .factorial, [argument] => do
      let number ← argument.toDouble.mapError .conversion
      let result ← number.factorialStepwise.mapError .factorial
      pure (.double result)
    | _, _ => (kind.apply values).mapError .conversion
  else .error .arguments

/-- As many arguments as an operator takes go wrong only where one of them is converted. -/
theorem attempt_eq {kind : Operator} {values : List Value} (counted : values.length = kind.arity) :
    kind.attempt values = (kind.apply values).mapError .conversion := by
  unfold attempt
  rw [if_pos counted]
  cases kind with
  | factorial =>
      obtain ⟨argument, rfl⟩ := List.length_eq_one_iff.mp counted
      simp only [Double.factorialStepwise_eq, apply]
      cases argument.toDouble with
      | error error => rfl
      | ok number => rfl
  | _ => rfl

end Operator

/-! ## Where values come from -/

namespace Symbol

/-- A node of the symbol can be evaluated: it is a built-in function, a literal or a variable. -/
def hasMeaning : Symbol → Bool
  | .node _ _ | .function _ _ | .terminal _ => false
  | _ => true

/-- The value of a literal or a variable. -/
def held? (valuation : Variable → Value) : Symbol → Option Value
  | .literal value _ => some value
  | .boolean truth => some (.boolean truth)
  | .double number => some (.double number)
  | .variable place => some (valuation place)
  | _ => none

/-- A node of the symbol is evaluated for its effects: it is a sequence or an action. -/
def givesNothing : Symbol → Bool
  | .sequence _ | .action _ _ => true
  | _ => false

end Symbol

namespace Tree

variable {tree : Tree} {valuation : Variable → Value}

/-- The value is there before any operator computes: a leaf holds it, or it is the nothing that a
sequence or an action gives. -/
def Brings (valuation : Variable → Value) (tree : Tree) (value : Value) : Prop :=
  ∃ symbol ∈ tree.symbols,
    symbol.held? valuation = some value ∨ symbol.givesNothing = true ∧ value = .nothing

/-- The tree gives a reason for a failed conversion, and if the reason is nothing, an operator that
refuses it. -/
structure Explains (valuation : Variable → Value) (tree : Tree) (error : ConversionError) :
    Prop where
  /-- The value that cannot be converted is there from the beginning. -/
  cause : ∃ value, tree.Brings valuation value ∧ error.CausedBy value
  /-- Only some operators refuse nothing. -/
  refusal : error = .nothing → ∃ kind, .operator kind ∈ tree.symbols ∧ kind.refusesNothing = true

/-- Every symbol of a tree that has a meaning keeps to what was computed or was there from the
beginning, and to the errors that the tree explains. -/
theorem keeps_of_hasMeaning (meaningful : ∀ symbol ∈ tree.symbols, symbol.hasMeaning = true)
    (valuation : Variable → Value) :
    ∀ symbol ∈ tree.symbols, symbol.Keeps valuation
      (fun value => value.isBooleanOrDouble = true ∨ tree.Brings valuation value)
      (fun error => ∃ cause, error = .conversion cause ∧ tree.Explains valuation cause) := by
  intro symbol member
  have meaning := meaningful symbol member
  cases symbol with
  | node name arity => cases meaning
  | function name arity => cases meaning
  | terminal name => cases meaning
  | literal value name => exact .inr ⟨_, member, .inl rfl⟩
  | boolean truth => exact .inl rfl
  | double number => exact .inl rfl
  | «variable» place => exact .inr ⟨_, member, .inl rfl⟩
  | operator kind =>
      intro values counted known
      have accounts := Operator.accounts_apply counted
      cases applied : kind.apply values with
      | ok value =>
          rw [applied] at accounts
          exact .inl accounts
      | error error =>
          rw [applied] at accounts
          obtain ⟨⟨value, listed, caused⟩, refuses⟩ := accounts
          refine ⟨error, rfl, ⟨value, ?_, caused⟩, fun nothing => ⟨kind, member, refuses nothing⟩⟩
          rcases known value listed with computed | brought
          · exact absurd caused (Value.not_causedBy_of_isBooleanOrDouble computed error)
          · exact brought
  | conditional => trivial
  | sequence arity => exact .inr ⟨_, member, .inr ⟨rfl, rfl⟩⟩
  | foodAhead ant => trivial
  | action kind ant => exact .inr ⟨_, member, .inr ⟨rfl, rfl⟩⟩

/-- Among leaves that hold truth values and doubles only sequences and actions bring anything else,
and that is nothing. -/
theorem Brings.cases {value : Value} (brought : tree.Brings valuation value)
    (plain : ∀ symbol ∈ tree.symbols, ∀ held ∈ symbol.held? valuation,
      held.isBooleanOrDouble = true) :
    value.isBooleanOrDouble = true ∨
      value = .nothing ∧ ∃ symbol ∈ tree.symbols, symbol.givesNothing = true := by
  obtain ⟨symbol, member, held | ⟨gives, rfl⟩⟩ := brought
  · exact .inl (plain symbol member value held)
  · exact .inr ⟨rfl, symbol, member, gives⟩

/-- A tree that passes the verification of arities, made of built-in functions, literals and
variables, evaluates in every world to a value or fails to convert a value, and the tree explains
why: a text that is not a number and an integer beyond the doubles are held by a leaf, and nothing
is refused by a comparison or a factorial.  If the leaves hold only truth values and doubles, the
value is one of them or nothing, and the only failure is that nothing is refused, which takes both
an operator that refuses it and a sequence or an action that gives it; without the latter there is
always a truth value or a double.  No step of an operator fails but the conversions. -/
theorem evaluation_fails_as_documented (present : tree.isHole = false) (shaped : tree.Shaped)
    (verified : tree.arityViolations = [])
    (meaningful : ∀ symbol ∈ tree.symbols, symbol.hasMeaning = true)
    (valuation : Variable → Value) (world : World) :
    let outcome := ((tree.evaluate valuation).on world).1
    ((∃ value, outcome = .ok value) ∨
        ∃ error, outcome = .error (.conversion error) ∧ tree.Explains valuation error) ∧
      ((∀ symbol ∈ tree.symbols, ∀ held ∈ symbol.held? valuation, held.isBooleanOrDouble = true) →
        ((∃ value, outcome = .ok value ∧ (value = .nothing ∨ value.isBooleanOrDouble = true)) ∨
            outcome = .error (.conversion .nothing) ∧
              (∃ kind, .operator kind ∈ tree.symbols ∧ kind.refusesNothing = true) ∧
              ∃ symbol ∈ tree.symbols, symbol.givesNothing = true) ∧
          ((∀ symbol ∈ tree.symbols, symbol.givesNothing = false) →
            ∃ value, outcome = .ok value ∧ value.isBooleanOrDouble = true)) ∧
      ∀ (kind : Operator) (values : List Value), values.length = kind.arity →
        kind.attempt values = (kind.apply values).mapError .conversion := by
  intro outcome
  have complete := shaped.complete present verified
  have settles := (complete.safe (keeps_of_hasMeaning meaningful valuation)).ends.run world
  rw [run_course] at settles
  change Settles _ _ outcome at settles
  refine ⟨?_, fun plain => ?_, fun kind values => Operator.attempt_eq⟩
  · cases ended : outcome with
    | ok value => exact .inl ⟨value, rfl⟩
    | error error =>
        rw [ended] at settles
        obtain ⟨cause, rfl, explains⟩ := settles
        exact .inr ⟨cause, rfl, explains⟩
  · cases ended : outcome with
    | ok value =>
        rw [ended] at settles
        have known : value.isBooleanOrDouble = true ∨
            value = .nothing ∧ ∃ symbol ∈ tree.symbols, symbol.givesNothing = true :=
          settles.elim .inl fun brought => brought.cases plain
        refine ⟨.inl ⟨value, rfl, ?_⟩, fun effectless => ⟨value, rfl, ?_⟩⟩
        · exact known.elim .inr fun nothing => .inl nothing.1
        · rcases known with computed | ⟨-, symbol, member, gives⟩
          · exact computed
          · exact absurd (effectless symbol member) (by simp [gives])
    | error error =>
        rw [ended] at settles
        obtain ⟨cause, rfl, ⟨value, brought, caused⟩, refusal⟩ := settles
        rcases brought.cases plain with computed | ⟨rfl, symbol, member, gives⟩
        · exact absurd caused (Value.not_causedBy_of_isBooleanOrDouble computed cause)
        · have nothing : cause = .nothing := by
            cases cause with
            | notNumeric content => cases caused.1
            | nothing => rfl
            | tooLarge =>
                obtain ⟨number, integer, -⟩ := caused
                cases integer
          subst nothing
          refine ⟨.inr ⟨rfl, refusal rfl, symbol, member, gives⟩, fun effectless => ?_⟩
          exact absurd (effectless symbol member) (by simp [gives])

/-- A comparison is given the nothing of a sequence that a condition has chosen. -/
theorem evaluation_fails_as_documented_greater :
    let tree : Tree := .node (.operator (.comparison .greater))
      [.node .conditional [.leaf (.variable ⟨0, "b"⟩),
          .node (.sequence 2) [.node (.action .skip 0) [], .leaf (.boolean true)],
          .leaf (.double .nan)],
        .leaf (.variable ⟨1, "x"⟩)]
    let valuation : Variable → Value := fun place =>
      if place.key = 0 then .boolean true else .double .infinity
    tree.Shaped ∧ tree.arityViolations = [] ∧
      ((tree.evaluate valuation).on .empty).1 = .error (.conversion .nothing) ∧
      tree.Explains valuation .nothing ∧
      ∃ symbol ∈ tree.symbols, symbol.givesNothing = true := by
  intro tree valuation
  have single : ∀ {symbol : Symbol}, symbol.arity = 0 → (Tree.leaf symbol).Shaped :=
    fun nullary => .node nullary.symm (by simp)
  have effects : (node (.sequence 2) [leaf (.action .skip 0), leaf (.boolean true)]).Shaped := by
    refine .node rfl ?_
    simp only [List.forall_mem_cons]
    exact ⟨single rfl, single rfl, by simp⟩
  have shaped : tree.Shaped := by
    refine .node rfl ?_
    simp only [List.forall_mem_cons]
    refine ⟨.node rfl ?_, single rfl, by simp⟩
    simp only [List.forall_mem_cons]
    exact ⟨single rfl, effects, single rfl, by simp⟩
  have verified : tree.arityViolations = [] := rfl
  have failed : ((tree.evaluate valuation).on .empty).1 = .error (.conversion .nothing) := rfl
  obtain ⟨general, plain, -⟩ :=
    evaluation_fails_as_documented rfl shaped verified (by decide) valuation .empty
  obtain ⟨value, ended⟩ | ⟨error, ended, explains⟩ := general
  · rw [failed] at ended
    cases ended
  · obtain rfl : ConversionError.nothing = error := by
      rw [failed] at ended
      exact EvaluationError.conversion.inj (Except.error.inj ended)
    obtain ⟨value, ended, -⟩ | ⟨-, -, giver⟩ := (plain (by decide)).1
    · rw [failed] at ended
      cases ended
    · exact ⟨shaped, verified, failed, explains, giver⟩

end Tree
end GeneticProgram
