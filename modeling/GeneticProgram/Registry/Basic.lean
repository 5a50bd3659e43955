import GeneticProgram.Symbol

/-!
# Registries

A registry maps function names to factories.  A factory makes the symbol of a call; one that is
bound to a context needs the context of the program, the ant that it is to steer.  Names are told
apart exactly, and registering a name again replaces its factory.
-/

namespace GeneticProgram

/-- What a program is bound to: an ant, with its move budget. -/
structure Context where
  /-- The number of the ant. -/
  ant : Nat
  /-- The move budget of the ant. -/
  maxMoves : Int
deriving DecidableEq

/-- Why a symbol cannot be made. -/
inductive BuildError
  | negativeArity (arity : Int)
  | conversion (error : ConversionError)
deriving DecidableEq

/-- The wording of a failure. -/
def BuildError.message : BuildError → String
  | .negativeArity arity => s!"Arity must be non-negative, got {arity}"
  | .conversion error => error.message

namespace Symbol

/-- A symbol with a number of arguments, which must not be negative. -/
def withArity (make : Nat → Symbol) : Int → Except BuildError Symbol
  | .ofNat arity => .ok (make arity)
  | .negSucc predecessor => .error (.negativeArity (.negSucc predecessor))

/-- The constant of the truth of a value. -/
def ofTruth (value : Value) : Symbol := .boolean value.truth

/-- The constant of the number that a value stands for. -/
def ofNumber (value : Value) : Except BuildError Symbol :=
  match value.toDouble with
  | .ok number => .ok (.double number)
  | .error error => .error (.conversion error)

end Symbol

/-- How the symbol of a call is made. -/
inductive Factory
  | free (make : Except BuildError Symbol)
  | bound (make : Context → Except BuildError Symbol)

/-- The factory needs a context. -/
def Factory.needsContext : Factory → Bool
  | .free _ => false
  | .bound _ => true

/-- The factory, made to need a context even if it has no use for it. -/
def Factory.bind : Factory → Factory
  | .free make => .bound fun _ => make
  | .bound make => .bound make

/-- A registered function. -/
structure Entry where
  /-- The name under which programs call the function. -/
  name : String
  /-- What makes its symbol. -/
  factory : Factory

/-- Why a registered function gives no symbol. -/
inductive ResolveError
  | missingContext (name : String)
  | build (error : BuildError)
deriving DecidableEq

/-- The wording of a failure. -/
def ResolveError.message : ResolveError → String
  | .missingContext name => s!"Function {name} requires a context object but none was set"
  | .build error => error.message

/-- The symbol of a registered function. -/
def Entry.create (entry : Entry) (context : Option Context) : Except ResolveError Symbol :=
  match entry.factory with
  | .free make => make.mapError .build
  | .bound make =>
    match context with
    | none => .error (.missingContext entry.name)
    | some given => (make given).mapError .build

/-- The registered functions, each name once. -/
structure Registry where
  /-- The entries in the order of their first registration. -/
  entries : List Entry

namespace Registry

/-- No function is registered. -/
def empty : Registry := ⟨[]⟩

/-- The entry of a name. -/
def entry? (registry : Registry) (name : String) : Option Entry :=
  registry.entries.find? fun entry => entry.name == name

/-- The name is registered. -/
def contains (registry : Registry) (name : String) : Bool := (registry.entry? name).isSome

/-- Register a function, in place of the one of the same name if there is one. -/
def register (registry : Registry) (name : String) (factory : Factory) : Registry :=
  if registry.contains name then
    ⟨registry.entries.map fun entry => if entry.name == name then ⟨name, factory⟩ else entry⟩
  else ⟨registry.entries ++ [⟨name, factory⟩]⟩

/-- Remove a name. -/
def unregister (registry : Registry) (name : String) : Registry :=
  ⟨registry.entries.filter fun entry => entry.name != name⟩

/-- The number of registered functions. -/
def size (registry : Registry) : Nat := registry.entries.length

/-- The registered names in alphabetical order. -/
def names (registry : Registry) : List String :=
  (registry.entries.map Entry.name).mergeSort fun first second => !(second < first)

/-- The symbol of a call, or nothing if the name is not registered. -/
def resolve (registry : Registry) (context : Option Context) (name : String) :
    Except ResolveError (Option Symbol) :=
  match registry.entry? name with
  | none => .ok none
  | some entry => (entry.create context).map some

end Registry
end GeneticProgram
