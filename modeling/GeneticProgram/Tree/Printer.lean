import GeneticProgram.Tree.Basic

/-!
# Program source of a tree

A tree is written as nested calls: the name of a symbol, and between parentheses its arguments,
separated by a comma and a space.  A terminal is its bare name, and a hole is a question mark.
-/

namespace GeneticProgram.Tree

mutual

/-- The text of a tree. -/
def text : Tree → List Char
  | .hole => ['?']
  | .node symbol children =>
    if symbol.isTerminal then symbol.identifier.toList
    else symbol.identifier.toList ++ '(' :: argumentText children ++ [')']

/-- The text of an argument list. -/
def argumentText : List Tree → List Char
  | [] => []
  | [child] => child.text
  | child :: rest => child.text ++ ',' :: ' ' :: argumentText rest

end

/-- The program source of a tree. -/
def source (tree : Tree) : String := String.ofList tree.text

end GeneticProgram.Tree
