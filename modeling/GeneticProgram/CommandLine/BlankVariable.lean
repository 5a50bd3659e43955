import GeneticProgram.Parser

/-!
# Blank variables

A variable that was set without a definition has no name, and a search that comes to it fails.  A
terminal that is no truth value is searched for among the variables in their order, so that a
program cannot be read on from the first terminal that is not named in front of the blank variable.
Nothing is searched for behind an error.
-/

namespace GeneticProgram

/-- One of the items is found, and none in front of it ends the search. -/
def foundBefore {Item : Type} (found ends : Item → Bool) : List Item → Bool
  | [] => false
  | item :: rest => found item || !ends item && foundBefore found ends rest

namespace Language

/-- A text that is searched for among the variables and is the name of none. -/
def isUnnamed (language : Language) (text : List Char) : Bool :=
  (Literal.boolean? text).isNone && (language.environment.lookup? (String.ofList text)).isNone

/-- Reading a text that stands at a depth of a program searches behind all variables. -/
def searchesAllAt (language : Language) (context : Option Context) (depth : Nat)
    (text : List Char) : Bool :=
  match language.settings.maxDepth.filter fun limit => limit < (depth : Int) with
  | some _ => false
  | none =>
    if '(' ∈ text then
      match language.head context text with
      | .ok (.call _ arguments shorter) =>
        foundBefore
          (fun ⟨argument, listed⟩ =>
            have := shorter argument listed
            language.searchesAllAt context (depth + 1) argument)
          (fun ⟨argument, _⟩ => !(language.parseAt context (depth + 1) argument).isOk)
          arguments.attach
      | _ => false
    else language.isUnnamed text
termination_by text.length

/-- Reading a program searches behind all variables. -/
def searchesAll (language : Language) (context : Option Context) (source : String) : Bool :=
  language.searchesAllAt context 1 (Text.trim source.toList)

end Language
end GeneticProgram
