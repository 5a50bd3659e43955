import GeneticProgram.CommandLine.Definition
import GeneticProgram.CommandLine.Word

/-!
# Requests

What a command line asks for.  Its words are taken from left to right: the first plain argument is
the expression, a switch that needs a value takes the plain argument behind it unless one is
attached, and whatever has no place is reported at the end.  Asking for help ends the reading.
-/

namespace GeneticProgram.CommandLine

/-- A number that may be set on the command line. -/
inductive Setting
  /-- Not set. -/
  | absent
  /-- Set without a number, which is what an attached divider amounts to. -/
  | blank
  /-- Set to a number. -/
  | given (number : Int)
deriving DecidableEq

/-- What is asked for beside the expression. -/
structure Options where
  /-- The variables in the order in which they are set; a blank one is set without a definition. -/
  definitions : List (Option Definition) := []
  /-- Programs are bound to an ant. -/
  ant : Bool := false
  /-- The width and height of the ant's landscape. -/
  antSize : Setting := .absent
  /-- Nothing may follow the matching parenthesis. -/
  strict : Bool := false
  /-- The greatest depth. -/
  maxDepth : Setting := .absent
  /-- The program is evaluated. -/
  evaluate : Bool := false
  /-- The report is an object of names and values. -/
  json : Bool := false
  /-- The log is shown. -/
  verbose : Bool := false
deriving DecidableEq

/-- What a command line asks for. -/
structure Request where
  /-- The source of the program. -/
  expression : List Char
  /-- What is asked for beside it. -/
  options : Options
deriving DecidableEq

/-- Why a command line asks for nothing. -/
inductive UsageError
  | ambiguous (word : AmbiguousWord)
  | ignored (switch : Switch) (attached : List Char)
  | missingValue (switch : Switch)
  | definition (error : DefinitionError)
  | notInteger (switch : Switch) (text : List Char)
  | notPositive (switch : Switch) (text : List Char)
  | missingExpression
  | unrecognized (texts : List (List Char))
deriving DecidableEq

/-- The wording of a refusal. -/
def UsageError.message : UsageError → String
  | .ambiguous word =>
    "ambiguous option: " ++ String.ofList word.text ++ " could match " ++
      ", ".intercalate word.candidates
  | .ignored switch attached =>
    s!"argument {switch.title}: ignored explicit argument " ++ String.ofList (Text.quote attached)
  | .missingValue switch => s!"argument {switch.title}: expected one argument"
  | .definition error => s!"argument {Switch.define.title}: {error.message}"
  | .notInteger switch text =>
    let wanted := if switch = .maxDepth then "positive_int" else "int"
    s!"argument {switch.title}: invalid {wanted} value: " ++ String.ofList (Text.quote text)
  | .notPositive switch text =>
    s!"argument {switch.title}: {(PositiveError.notPositive text).message}"
  | .missingExpression => "the following arguments are required: expression"
  | .unrecognized texts =>
    "unrecognized arguments: " ++ " ".intercalate (texts.map String.ofList)

/-- Why the reading of a command line ends early. -/
inductive Stop
  | help
  | usage (error : UsageError)
deriving DecidableEq

namespace Options

/-- Set a switch that needs no value. -/
def set (options : Options) : Switch → Except Stop Options
  | .help => .error .help
  | .ant => .ok { options with ant := true }
  | .strict => .ok { options with strict := true }
  | .evaluate => .ok { options with evaluate := true }
  | .json => .ok { options with json := true }
  | .verbose => .ok { options with verbose := true }
  | switch => .error (.usage (.missingValue switch))

/-- Set several switches that need no value. -/
def setAll (options : Options) (switches : List Switch) : Except Stop Options :=
  switches.foldlM set options

/-- Set a switch to a value. -/
def assign (options : Options) (switch : Switch) (text : List Char) : Except Stop Options :=
  match switch with
  | .define =>
    match Definition.read text with
    | .ok definition => .ok { options with definitions := options.definitions ++ [some definition] }
    | .error error => .error (.usage (.definition error))
  | .antSize =>
    match Reading.integer text with
    | .ok number => .ok { options with antSize := .given number }
    | .error _ => .error (.usage (.notInteger .antSize text))
  | .maxDepth =>
    match positive text with
    | .ok number => .ok { options with maxDepth := .given number }
    | .error (.notInteger _) => .error (.usage (.notInteger .maxDepth text))
    | .error (.notPositive _) => .error (.usage (.notPositive .maxDepth text))
  | switch => .error (.usage (.ignored switch text))

/-- Set a switch without the value that it needs. -/
def clear (options : Options) : Switch → Options
  | .define => { options with definitions := options.definitions ++ [none] }
  | .antSize => { options with antSize := .blank }
  | .maxDepth => { options with maxDepth := .blank }
  | _ => options

/-- The switches that are bundled behind a short spelling, the first one included. -/
def bundle (switch : Switch) : List Char → Except Stop (List Switch)
  | [] => .ok [switch]
  | letter :: rest =>
    match Switch.ofSpelling? ['-', letter] with
    | some next => (bundle next rest).map (switch :: ·)
    | none => .error (.usage (.ignored switch (letter :: rest)))

/-- Set a switch with something attached to it. -/
def attach (options : Options) (switch : Switch) (short : Bool) (attached : List Char) :
    Except Stop Options :=
  if switch.takesValue then
    if attached = dividerText then .ok (options.clear switch) else options.assign switch attached
  else if short && !attached.isEmpty then bundle switch attached >>= options.setAll
  else .error (.usage (.ignored switch attached))

end Options

/-- What has been read of a command line. -/
structure Draft where
  /-- The expression, if it has been met. -/
  expression : Option (List Char) := none
  /-- What the switches ask for. -/
  options : Options := {}
  /-- What has no place, the first one first. -/
  extras : List (List Char) := []

namespace Draft

/-- Set texts aside. -/
def setAside (draft : Draft) (texts : List (List Char)) : Draft :=
  { draft with extras := draft.extras ++ texts }

/-- Take a plain argument, and with it the divider before or behind it, if it is the expression. -/
def takeArgument (draft : Draft) (text : List Char) (asGiven : List (List Char)) : Draft :=
  match draft.expression with
  | none => { draft with expression := some text }
  | some _ => draft.setAside asGiven

/-- Take the words of a command line. -/
def takeAll (draft : Draft) : List Word → Except Stop Draft
  | [] => .ok draft
  | .argument text :: .divider :: rest =>
    (draft.takeArgument text [text, dividerText]).takeAll rest
  | .argument text :: rest => (draft.takeArgument text [text]).takeAll rest
  | .divider :: .argument text :: rest =>
    (draft.takeArgument text [dividerText, text]).takeAll rest
  | .divider :: rest => (draft.setAside [dividerText]).takeAll rest
  | .unknown text :: rest => (draft.setAside [text]).takeAll rest
  | .switch kind short (some attached) :: rest =>
    match draft.options.attach kind short attached with
    | .ok options => { draft with options }.takeAll rest
    | .error stop => .error stop
  | .switch kind _ none :: rest =>
    if kind.takesValue then
      match rest with
      | .argument text :: rest' =>
        match draft.options.assign kind text with
        | .ok options => { draft with options }.takeAll rest'
        | .error stop => .error stop
      | _ => .error (.usage (.missingValue kind))
    else
      match draft.options.set kind with
      | .ok options => { draft with options }.takeAll rest
      | .error stop => .error stop

/-- The request that has been read. -/
def finish (draft : Draft) : Except Stop Request :=
  match draft.expression with
  | none => .error (.usage .missingExpression)
  | some expression =>
    if draft.extras.isEmpty then .ok ⟨expression, draft.options⟩
    else .error (.usage (.unrecognized draft.extras))

end Draft

/-- Read a command line. -/
def Request.read (arguments : List String) : Except Stop Request :=
  match Word.classifyAll (arguments.map String.toList) with
  | .error word => .error (.usage (.ambiguous word))
  | .ok words => ({} : Draft).takeAll words >>= Draft.finish

end GeneticProgram.CommandLine
