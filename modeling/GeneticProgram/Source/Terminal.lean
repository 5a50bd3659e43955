import GeneticProgram.Numeral.Literal
import GeneticProgram.Symbol

/-!
# Terminals

A text without parentheses is a boolean literal, else the name of a variable, else a numeric
literal.  The first rule that applies decides, so that a variable named like a boolean literal is
never found and one named like a number hides the number.
-/

namespace GeneticProgram

/-- The variables of a program in the order in which they are looked up. -/
abbrev Environment := List Variable

/-- The first variable of a name. -/
def Environment.lookup? (environment : Environment) (name : String) : Option Variable :=
  environment.find? fun place => place.name == name

namespace Source

/-- The symbol that a terminal stands for. -/
def terminal? (environment : Environment) (text : List Char) : Option Symbol :=
  match Literal.boolean? text with
  | some truth => some (.boolean truth)
  | none =>
    match environment.lookup? (String.ofList text) with
    | some place => some (.variable place)
    | none => (Literal.double? text).map .double

end Source
end GeneticProgram
