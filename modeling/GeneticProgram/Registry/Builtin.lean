import GeneticProgram.Registry.Basic

/-!
# The built-in functions

Every operator, the conditional, the sequences of two to four arguments, and the functions of an
ant, which are bound to the context of the program.
-/

namespace GeneticProgram

/-- The entry of a symbol that is always the same, under its own name. -/
def Entry.ofSymbol (symbol : Symbol) : Entry := ⟨symbol.identifier, .free (.ok symbol)⟩

/-- The entry of a symbol that acts on the ant of the context, under its own name. -/
def Entry.ofAntSymbol (make : Nat → Symbol) : Entry :=
  ⟨(make 0).identifier, .bound fun context => .ok (make context.ant)⟩

/-- The built-in functions. -/
def Registry.builtin : Registry where
  entries :=
    Operator.all.map (fun kind => Entry.ofSymbol (.operator kind)) ++
      [.ofSymbol .conditional, .ofSymbol (.sequence 2), .ofSymbol (.sequence 3),
        .ofSymbol (.sequence 4), .ofAntSymbol .foodAhead] ++
      Action.all.map fun kind => Entry.ofAntSymbol (.action kind)

end GeneticProgram
