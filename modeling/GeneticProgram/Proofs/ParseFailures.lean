import GeneticProgram.Proofs.VisitedPieces

/-!
# The failures of reading

A reading fails in one of three documented ways, unless a registered factory fails to make its
symbol.  Over a registry of reliable factories, such as the built-in ones, only the documented ways
are left.
-/

namespace GeneticProgram

/-- The documented ways in which a reading fails. -/
inductive FailureKind
  | malformedProgram
  | unknownFunction
  | missingContext
deriving DecidableEq

/-- The documented way in which a reading failed; the failure of a factory has none. -/
def ParseError.kind? : ParseError → Option FailureKind
  | .unknownFunction _ => some .unknownFunction
  | .resolve (.missingContext _) => some .missingContext
  | .resolve (.build _) => none
  | .tooDeep _ | .unknownTerminal _ | .unclosed _ | .trailing _ | .arguments _ | .arity _ _ _ =>
      some .malformedProgram

/-- A factory that makes a symbol whenever it has the context it needs. -/
def Factory.Reliable : Factory → Prop
  | .free make => ∃ symbol, make = .ok symbol
  | .bound make => ∀ context, ∃ symbol, make context = .ok symbol

namespace Registry

/-- A registry of factories that all make symbols. -/
def Reliable (registry : Registry) : Prop :=
  ∀ entry ∈ registry.entries, entry.factory.Reliable

theorem reliable_builtin : builtin.Reliable := by
  intro entry member
  simp only [builtin, List.mem_append, List.mem_map, List.mem_cons, List.not_mem_nil,
    or_false] at member
  rcases member with (⟨kind, -, rfl⟩ | rfl | rfl | rfl | rfl | rfl) | ⟨kind, -, rfl⟩
  all_goals first
    | exact ⟨_, rfl⟩
    | exact fun context => ⟨_, rfl⟩

/-- Reliable factories may be registered. -/
theorem Reliable.register {registry : Registry} (reliable : registry.Reliable) (name : String)
    {factory : Factory} (made : factory.Reliable) : (registry.register name factory).Reliable := by
  rw [Registry.register]
  split
  · intro entry member
    obtain ⟨earlier, listed, equal⟩ := List.mem_map.mp member
    split at equal
    · obtain rfl := equal
      exact made
    · obtain rfl := equal
      exact reliable earlier listed
  · intro entry member
    rcases List.mem_append.mp member with listed | added
    · exact reliable entry listed
    · obtain rfl := List.mem_singleton.mp added
      exact made

/-- Over a reliable registry only a context can be missing. -/
theorem Reliable.resolve_error {registry : Registry} (reliable : registry.Reliable)
    {context : Option Context} {name : String} {error : ResolveError}
    (failed : registry.resolve context name = .error error) :
    ∃ missing, error = .missingContext missing := by
  rw [resolve] at failed
  cases found : registry.entry? name with
  | none => simp [found] at failed
  | some entry =>
      simp only [found] at failed
      have created := Outcome.map_eq_error_iff.mp failed
      have made := reliable entry (List.mem_of_find?_eq_some found)
      rw [Entry.create] at created
      cases factory : entry.factory with
      | free make =>
          rw [factory] at made
          obtain ⟨symbol, rfl⟩ := made
          simp [factory, Except.mapError] at created
      | bound make =>
          rw [factory] at made
          simp only [factory] at created
          cases context with
          | none => exact ⟨entry.name, (Except.error.inj created).symm⟩
          | some given =>
              obtain ⟨symbol, made_symbol⟩ := made given
              simp [made_symbol, Except.mapError] at created

end Registry

namespace Language

variable {language : Language} {context : Option Context}

theorem body_error {text after : List Char} {error : ParseError}
    (failed : language.body text after = .error error) :
    error.kind? = some .malformedProgram := by
  rw [body] at failed
  split at failed
  · split at failed
    · obtain rfl := Except.error.inj failed
      rfl
    · split at failed
      · cases failed
      · obtain rfl := Except.error.inj failed
        rfl
  · split at failed
    · obtain rfl := Except.error.inj failed
      rfl
    · cases failed

theorem callee_error (reliable : language.registry.Reliable) {name : String} {given : Nat}
    {error : ParseError} (failed : language.callee context name given = .error error) :
    ∃ kind, error.kind? = some kind := by
  rw [callee] at failed
  split at failed
  · rename_i refused resolved
    obtain rfl := Except.error.inj failed
    obtain ⟨missing, rfl⟩ := reliable.resolve_error resolved
    exact ⟨.missingContext, rfl⟩
  · obtain rfl := Except.error.inj failed
    exact ⟨.unknownFunction, rfl⟩
  · split at failed
    · cases failed
    · obtain rfl := Except.error.inj failed
      exact ⟨.malformedProgram, rfl⟩

theorem outline_error (reliable : language.registry.Reliable) {text : List Char}
    {error : ParseError} (failed : (language.head context text).map outline = .error error) :
    ∃ kind, error.kind? = some kind := by
  by_cases opened : '(' ∈ text
  · obtain ⟨name, after, rfl, plain⟩ := eq_call_of_mem opened
    rw [outline_call plain] at failed
    rcases Outcome.bind_eq_error failed with unclosed | ⟨inner, -, failed⟩
    · exact ⟨_, body_error unclosed⟩
    rcases Outcome.bind_eq_error failed with unsplit | ⟨arguments, -, failed⟩
    · obtain ⟨fault, -, rfl⟩ := Outcome.mapError_eq_error_iff.mp unsplit
      exact ⟨.malformedProgram, rfl⟩
    rcases Outcome.bind_eq_error failed with unresolved | ⟨symbol, -, impossible⟩
    · exact callee_error reliable unresolved
    · cases impossible
  · rw [outline_terminal opened] at failed
    split at failed
    · cases failed
    · obtain rfl := Except.error.inj failed
      exact ⟨.malformedProgram, rfl⟩

/-- Over a reliable registry every failure is of a documented kind. -/
theorem parseAt_error_kind (language : Language) (reliable : language.registry.Reliable)
    {depth : Nat} {text : List Char} {error : ParseError}
    (failed : language.parseAt context depth text = .error error) :
    ∃ kind, error.kind? = some kind :=
  parseAt_failure (motive := fun error => ∃ kind, error.kind? = some kind)
    (fun _ _ => ⟨.malformedProgram, rfl⟩) (fun _ _ => outline_error reliable) failed

end Language
end GeneticProgram
