import GeneticProgram.Registry.Basic
import GeneticProgram.Source.Arguments
import GeneticProgram.Source.Parenthesis
import GeneticProgram.Source.Terminal
import GeneticProgram.Tree.Basic

/-!
# Reading programs

A program is a terminal or a call.  A call is a registered name and an argument list between
parentheses; the number of arguments is checked before the arguments are read, and they are read
from left to right.  In strict mode an argument list ends at the matching parenthesis, behind which
only white space may follow; otherwise it ends at the last closing parenthesis, and what follows is
ignored.  Reading gives a tree without holes or the first error.
-/

namespace GeneticProgram

/-- Why a text is not a program. -/
inductive ParseError
  | tooDeep (limit : Int)
  | unknownTerminal (text : List Char)
  | unclosed (text : List Char)
  | trailing (text : List Char)
  | arguments (error : Source.ArgumentError)
  | unknownFunction (name : String)
  | resolve (error : ResolveError)
  | arity (name : String) (expected given : Nat)
deriving DecidableEq

/-- The wording of an error. -/
def ParseError.message : ParseError → String
  | .tooDeep limit => s!"Program nesting exceeds maximum depth {limit}"
  | .unknownTerminal text => "Unrecognised terminal " ++ String.ofList (Text.quote text)
  | .unclosed text => "Missing closing parenthesis in " ++ String.ofList (Text.quote text)
  | .trailing text =>
    "Unexpected text after closing parenthesis: " ++ String.ofList (Text.quote text)
  | .arguments error => error.message
  | .unknownFunction name => s!"Unknown function {name} encountered"
  | .resolve error => error.message
  | .arity name expected given => s!"Function {name} expects {expected} arguments, got {given}"

/-- How programs are read. -/
structure ParserSettings where
  /-- An argument list ends at the matching parenthesis, and nothing may follow it. -/
  strict : Bool := false
  /-- The greatest depth of a program, if there is one. -/
  maxDepth : Option Int := none
deriving DecidableEq

/-- What the names in a program mean, and how the program is read. -/
structure Language where
  /-- The functions. -/
  registry : Registry
  /-- The variables. -/
  environment : Environment
  /-- How programs are read. -/
  settings : ParserSettings

namespace Language

/-- The argument list of a call, out of the text that follows its opening parenthesis. -/
def body (language : Language) (text after : List Char) : Except ParseError (List Char) :=
  if language.settings.strict then
    match Source.cutAtClosing 1 after with
    | none => .error (.unclosed text)
    | some (body, tail) =>
      if (Text.trim tail).isEmpty then .ok body else .error (.trailing (Text.trim tail))
  else
    match Source.beforeLastClosing after with
    | none => .error (.unclosed text)
    | some body => .ok body

theorem length_body {language : Language} {text after body : List Char}
    (found : language.body text after = .ok body) : body.length < after.length := by
  unfold Language.body at found
  split at found
  · cases cut : Source.cutAtClosing 1 after with
    | none => simp [cut] at found
    | some parts =>
      have := Source.length_cutAtClosing cut
      simp only [cut] at found
      split at found
      · cases found
        omega
      · cases found
  · cases cut : Source.beforeLastClosing after with
    | none => simp [cut] at found
    | some inner =>
      simp only [cut] at found
      cases found
      exact Source.length_beforeLastClosing cut

/-- The symbol of a call with a number of arguments. -/
def callee (language : Language) (context : Option Context) (name : String) (given : Nat) :
    Except ParseError Symbol :=
  match language.registry.resolve context name with
  | .error error => .error (.resolve error)
  | .ok none => .error (.unknownFunction name)
  | .ok (some symbol) =>
    if symbol.arity = given then .ok symbol else .error (.arity name symbol.arity given)

end Language

/-- The outermost part of a program: a terminal, or a function with the texts of its arguments,
which are shorter than the text of the call. -/
inductive Head (text : List Char)
  | terminal (symbol : Symbol)
  | call (symbol : Symbol) (arguments : List (List Char))
      (shorter : ∀ argument ∈ arguments, argument.length < text.length)

namespace Language

/-- Read the outermost part of a program. -/
def head (language : Language) (context : Option Context) (text : List Char) :
    Except ParseError (Head text) :=
  match opening : text.dropWhile (· != '(') with
  | [] =>
    match Source.terminal? language.environment text with
    | some symbol => .ok (.terminal symbol)
    | none => .error (.unknownTerminal text)
  | _ :: after =>
    match closing : language.body text after with
    | .error error => .error error
    | .ok body =>
      match splitting : Source.splitArguments body with
      | .error error => .error (.arguments error)
      | .ok arguments =>
        let name := String.ofList (text.takeWhile (· != '('))
        match language.callee context name arguments.length with
        | .error error => .error error
        | .ok symbol =>
          .ok <| .call symbol arguments fun argument listed => by
            have dropped := (List.dropWhile_sublist (l := text) (· != '(')).length_le
            have short := length_body closing
            have part := Source.length_le_of_mem_splitArguments splitting listed
            rw [opening, List.length_cons] at dropped
            omega

/-- Read a text that stands at a depth of a program. -/
def parseAt (language : Language) (context : Option Context) (depth : Nat) (text : List Char) :
    Except ParseError Tree :=
  match language.settings.maxDepth.filter fun limit => limit < (depth : Int) with
  | some limit => .error (.tooDeep limit)
  | none =>
    match language.head context text with
    | .error error => .error error
    | .ok (.terminal symbol) => .ok (.leaf symbol)
    | .ok (.call symbol arguments shorter) => do
      let children ← arguments.attach.mapM fun ⟨argument, listed⟩ =>
        have := shorter argument listed
        language.parseAt context (depth + 1) argument
      pure (.node symbol children)
termination_by text.length

theorem mapM_attach {Failure Item Result : Type} (items : List Item)
    (read : Item → Except Failure Result) :
    (items.attach.mapM fun item => read item.1) = items.mapM read := by
  induction items with
  | nil => rfl
  | cons first rest induction =>
    simp only [List.attach_cons, List.mapM_cons, List.mapM_map]
    rw [← induction]
    rfl

/-- Reading a call reads its arguments one level deeper. -/
theorem parseAt_eq (language : Language) (context : Option Context) (depth : Nat)
    (text : List Char) :
    language.parseAt context depth text =
      match language.settings.maxDepth.filter fun limit => limit < (depth : Int) with
      | some limit => .error (.tooDeep limit)
      | none =>
        match language.head context text with
        | .error error => .error error
        | .ok (.terminal symbol) => .ok (.leaf symbol)
        | .ok (.call symbol arguments _) =>
          (arguments.mapM (language.parseAt context (depth + 1))).map (.node symbol) := by
  rw [parseAt]
  cases language.settings.maxDepth.filter fun limit => limit < (depth : Int) with
  | some limit => rfl
  | none =>
    rcases language.head context text with error | ⟨symbol⟩ | ⟨symbol, arguments, shorter⟩
    · rfl
    · rfl
    · simp only
      rw [← mapM_attach arguments]
      rw [← mapM_attach arguments.attach fun item => language.parseAt context (depth + 1) item.1]
      rfl

/-- Read a program. -/
def parse (language : Language) (context : Option Context) (source : String) :
    Except ParseError Tree :=
  language.parseAt context 1 (Text.trim source.toList)

end Language
end GeneticProgram
