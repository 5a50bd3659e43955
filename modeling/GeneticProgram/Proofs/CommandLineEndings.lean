import GeneticProgram.CommandLine.Run
import GeneticProgram.Proofs.AcceptedRequests
import GeneticProgram.Proofs.ParseFailures
import GeneticProgram.Proofs.SharedVariables

/-!
# How a command line ends

A command line that is refused, a program that cannot be read and an evaluation that fails all end
with a status of their own.  What is not handled is met before the program is read, when the
landscape of an ant or a depth is lacking, or while it is read, when a name is searched for behind a
variable that was set without a definition.  Nothing else is left over: the built-in functions can
all be made, limits have been checked, and no program over truth values and doubles comes to a
number that is too large.
-/

namespace GeneticProgram

open Source

/-! ## Blank variables -/

section Search

variable {Item : Type} {found ends : Item → Bool}

/-- Something is found if one of the items is and none in front of it ends the search. -/
theorem foundBefore_iff {items : List Item} :
    foundBefore found ends items = true ↔ ∃ before item behind, items = before ++ item :: behind ∧
      (∀ other ∈ before, ends other = false) ∧ found item = true := by
  induction items with
  | nil => simp [foundBefore]
  | cons first rest induction =>
      rw [foundBefore, Bool.or_eq_true, Bool.and_eq_true, Bool.not_eq_true', induction]
      constructor
      · rintro (here | ⟨open_first, before, item, behind, rfl, passed, here⟩)
        · exact ⟨[], first, rest, rfl, List.forall_mem_nil _, here⟩
        · exact ⟨first :: before, item, behind, rfl,
            List.forall_mem_cons.mpr ⟨open_first, passed⟩, here⟩
      · rintro ⟨before, item, behind, split_eq, passed, here⟩
        cases before with
        | nil =>
            obtain ⟨rfl, rfl⟩ := List.cons.inj split_eq
            exact .inl here
        | cons earlier before =>
            obtain ⟨rfl, rfl⟩ := List.cons.inj split_eq
            obtain ⟨open_first, passed⟩ := List.forall_mem_cons.mp passed
            exact .inr ⟨open_first, before, item, behind, rfl, passed, here⟩

theorem foundBefore_attach (found ends : Item → Bool) (items : List Item) :
    foundBefore (fun item : { item // item ∈ items } => found item.1) (fun item => ends item.1)
      items.attach = foundBefore found ends items := by
  have general : ∀ (property : Item → Prop) (listed : List { item // property item }),
      foundBefore (fun item => found item.1) (fun item => ends item.1) listed =
        foundBefore found ends (listed.map Subtype.val) := by
    intro property listed
    induction listed with
    | nil => rfl
    | cons first rest induction => rw [List.map_cons, foundBefore, foundBefore, induction]
  rw [general, List.attach_map_subtype_val]

end Search

namespace Language

variable {language : Language} {context : Option Context}

/-- A search goes on from call to argument as the reading does. -/
theorem searchesAllAt_eq {depth : Nat} (permitted : language.Permits depth) (text : List Char) :
    language.searchesAllAt context depth text =
      if '(' ∈ text then
        match (language.head context text).map outline with
        | .ok (_, some arguments) =>
            foundBefore (language.searchesAllAt context (depth + 1))
              (fun argument => !(language.parseAt context (depth + 1) argument).isOk) arguments
        | _ => false
      else language.isUnnamed text := by
  rw [searchesAllAt]
  simp only [filter_eq_none_of_permits permitted]
  split
  · rcases language.head context text with error | ⟨symbol⟩ | ⟨symbol, arguments, shorter⟩
    · rfl
    · rfl
    · exact foundBefore_attach (language.searchesAllAt context (depth + 1))
        (fun argument => !(language.parseAt context (depth + 1) argument).isOk) arguments
  · rfl

/-- Nothing is searched for beyond the greatest depth. -/
theorem searchesAllAt_tooDeep {depth : Nat} (refused : ¬language.Permits depth) (text : List Char) :
    language.searchesAllAt context depth text = false := by
  obtain ⟨limit, -, exceeded⟩ := filter_eq_some_of_not_permits refused
  rw [searchesAllAt, exceeded]

/-- The reading of a text comes to a terminal that is neither a truth value nor the name of a
variable. -/
def MeetsUnnamed (language : Language) (context : Option Context) (depth : Nat)
    (text : List Char) : Prop :=
  ∃ final token, Visits language context depth text final token ∧ language.Permits final ∧
    '(' ∉ token ∧ language.isUnnamed token = true

/-- A search behind all variables is one for a terminal without a name that the reading comes to. -/
theorem searchesAllAt_iff {depth : Nat} {text : List Char} :
    language.searchesAllAt context depth text = true ↔
      language.MeetsUnnamed context depth text := by
  constructor
  · intro searched
    -- The argument in which something is found is shorter than the call.
    induction size : text.length using Nat.strong_induction_on generalizing depth text with
    | _ size induction =>
        by_cases permitted : language.Permits depth
        · rw [searchesAllAt_eq permitted] at searched
          split at searched
          · rename_i opened
            split at searched
            · rename_i symbol arguments found
              obtain ⟨before, argument, behind, rfl, passed, here⟩ := foundBefore_iff.mp searched
              obtain ⟨name, after, inner, rfl, -, closed, splitting, -⟩ := call_of_outline found
              have listed : argument ∈ before ++ argument :: behind := by simp
              have shorter := length_lt_of_argument closed splitting listed
              obtain ⟨final, token, visits, reason⟩ :=
                induction argument.length (size ▸ shorter) here rfl
              refine ⟨final, token, visits_of_outline permitted found ?_ visits, reason⟩
              intro other listed
              have read := passed other listed
              cases outcome : language.parseAt context (depth + 1) other with
              | error error =>
                  rw [outcome] at read
                  cases read
              | ok tree => exact ⟨tree, rfl⟩
            · cases searched
          · rename_i bare
            exact ⟨depth, text, .here depth text, permitted, bare, searched⟩
        · rw [searchesAllAt_tooDeep permitted] at searched
          cases searched
  · rintro ⟨final, token, visits, permitted, bare, unnamed⟩
    induction visits with
    | here depth text =>
        rw [searchesAllAt_eq permitted, if_neg bare]
        exact unnamed
    | argument allowed plain closed splitting resolved counted earlier within induction =>
        rw [searchesAllAt_eq allowed, if_pos (by simp),
          outline_of_call plain closed splitting resolved counted]
        refine foundBefore_iff.mpr ⟨_, _, _, rfl, fun other listed => ?_,
          induction permitted bare unnamed⟩
        obtain ⟨tree, read⟩ := earlier other listed
        rw [read]
        rfl

end Language

/-! ## Numbers that are too large -/

/-- A number is too large only where a literal or a variable holds it. -/
theorem Tree.Complete.evaluate_ne_tooLarge {tree : Tree} {valuation : Variable → Value}
    (complete : tree.Complete) (meaningful : ∀ symbol ∈ tree.symbols, symbol.hasMeaning = true)
    (small : ∀ symbol ∈ tree.symbols, ∀ number, symbol.held? valuation ≠ some (.integer number))
    (world : World) :
    ((tree.evaluate valuation).on world).1 ≠ .error (.conversion .tooLarge) := by
  intro failed
  have settles := (complete.safe (keeps_of_hasMeaning meaningful valuation)).ends.run world
  rw [run_course, failed] at settles
  obtain ⟨cause, same, ⟨value, ⟨symbol, member, brought⟩, caused⟩, -⟩ := settles
  obtain rfl := EvaluationError.conversion.inj same
  obtain ⟨number, rfl, -⟩ := caused
  rcases brought with held | ⟨-, impossible⟩
  · exact small symbol member number held
  · cases impossible

/-- The symbols of a program over the built-in functions have a meaning, and those that hold a value
hold a truth value, a double or that of a variable. -/
theorem Language.hasMeaning_of_parseAt {language : Language} {context : Option Context}
    {depth : Nat} {text : List Char} {tree : Tree} (builtin : language.registry = .builtin)
    (read : language.parseAt context depth text = .ok tree) (valuation : Variable → Value) :
    ∀ symbol ∈ tree.symbols, symbol.hasMeaning = true ∧
      ∀ value ∈ symbol.held? valuation, value.isBooleanOrDouble = true ∨
        ∃ place, value = valuation place := by
  intro symbol member
  rcases source_of_mem_symbols read symbol member with ⟨token, found⟩ | ⟨name, resolved⟩
  · rcases terminal?_cases found with ⟨truth, rfl⟩ | ⟨place, rfl, -⟩ | ⟨number, rfl⟩
    · refine ⟨rfl, fun value held => .inl ?_⟩
      obtain rfl := Option.some.inj held
      rfl
    · refine ⟨rfl, fun value held => .inr ⟨place, ?_⟩⟩
      exact (Option.some.inj held).symm
    · refine ⟨rfl, fun value held => .inl ?_⟩
      obtain rfl := Option.some.inj held
      rfl
  · rw [builtin] at resolved
    have known := Symbol.isBuiltin_of_resolve resolved
    cases symbol with
    | operator kind => exact ⟨rfl, nofun⟩
    | conditional => exact ⟨rfl, nofun⟩
    | sequence arity => exact ⟨rfl, nofun⟩
    | foodAhead ant => exact ⟨rfl, nofun⟩
    | action kind ant => exact ⟨rfl, nofun⟩
    | _ => cases known

/-- Every built-in function can be made. -/
theorem Language.parseAt_ne_build {language : Language} {context : Option Context} {depth : Nat}
    {text : List Char} (builtin : language.registry = .builtin) (error : BuildError) :
    language.parseAt context depth text ≠ .error (.resolve (.build error)) := by
  intro failed
  have reliable : language.registry.Reliable := by
    rw [builtin]
    exact Registry.reliable_builtin
  obtain ⟨kind, known⟩ := parseAt_error_kind language reliable failed
  cases known

namespace Workspace

/-- New variables are added to the values and nothing else changes. -/
theorem newVariables_fst (workspace : Workspace) (definitions : List (String × Value)) :
    (workspace.newVariables definitions).1 =
      { workspace with values := workspace.values ++ definitions.map Prod.snd } := by
  induction definitions generalizing workspace with
  | nil => rw [newVariables, List.map_nil, List.append_nil]
  | cons definition rest induction =>
      obtain ⟨name, value⟩ := definition
      rw [newVariables]
      change (newVariables _ rest).1 = _
      rw [induction, List.map_cons]
      simp [newVariable]

/-- A variable has one of the values, or nothing. -/
theorem valueOf_cases (workspace : Workspace) (place : Variable) :
    workspace.valueOf place ∈ workspace.values ∨ workspace.valueOf place = .nothing := by
  rw [valueOf, List.getD_eq_getElem?_getD]
  cases found : workspace.values[place.key]? with
  | none => exact .inr rfl
  | some value => exact .inl (List.mem_of_getElem? found)

/-- No number is too large for a program over the built-in functions whose variables hold truth
values and doubles. -/
theorem evaluateTree_ne_tooLarge {workspace : Workspace} {reader : Reader}
    {context : Option Context} {source : String} {tree : Tree}
    (builtin : workspace.registry reader.registry = .builtin)
    (plain : ∀ value ∈ workspace.values, value.isBooleanOrDouble = true)
    (read : (workspace.language reader).parse context source = .ok tree) :
    (workspace.evaluateTree tree).1 ≠ .error (.conversion .tooLarge) := by
  have known := Language.hasMeaning_of_parseAt builtin read workspace.valueOf
  refine (Language.parseAt_complete read).evaluate_ne_tooLarge
    (fun symbol member => (known symbol member).1) ?_ workspace.world
  intro symbol member number held
  rcases (known symbol member).2 _ held with computed | ⟨place, same⟩
  · cases computed
  · rcases workspace.valueOf_cases place with listed | nothing
    · rw [← same] at listed
      cases plain _ listed
    · cases same.trans nothing

end Workspace

namespace CommandLine

/-! ## Preparation -/

namespace Options

variable {options : Options} {workspace : Workspace} {reader : Reader} {fault : Fault}

/-- The landscape of the ant has cells, if there is an ant. -/
def Habitable (options : Options) : Prop :=
  options.ant = true → options.antSize ≠ .blank ∧ ∀ size, options.antSize = .given size → 0 < size

/-- Why a run cannot be prepared. -/
inductive Lacks (options : Options) : Fault → Prop
  /-- The landscape of the ant has no cells. -/
  | landscape {size : Int} (bound : options.ant = true) (sized : options.antSize = .given size)
      (small : size ≤ 0) : Lacks options (.landscape ⟨size, size⟩)
  /-- The landscape of the ant has no size. -/
  | blankSize (bound : options.ant = true) (blank : options.antSize = .blank) :
      Lacks options .blankSize
  /-- There is no depth where one was to be given. -/
  | blankDepth (habitable : options.Habitable) (blank : options.maxDepth = .blank) :
      Lacks options .blankDepth

/-- A landscape with cells can be made. -/
theorem emptyLandscape_of_pos {size : Int} (positive : 0 < size) :
    ∃ land, emptyLandscape size = .ok land := by
  rw [emptyLandscape, Landscape.create, dif_pos ⟨positive, positive⟩]
  exact ⟨_, rfl⟩

/-- A landscape without cells is refused. -/
theorem emptyLandscape_of_le {size : Int} (small : size ≤ 0) :
    emptyLandscape size = .error (.landscape ⟨size, size⟩) := by
  rw [emptyLandscape, Landscape.create, dif_neg fun both => absurd both.1 (Int.not_lt.mpr small)]
  rfl

theorem landscape_of_habitable (habitable : options.Habitable) :
    ∃ land, options.landscape = .ok land := by
  rw [landscape]
  cases bound : options.ant with
  | false => exact ⟨none, rfl⟩
  | true =>
      obtain ⟨unblank, positive⟩ := habitable bound
      rw [if_pos rfl]
      cases sized : options.antSize with
      | absent => exact ⟨_, rfl⟩
      | blank => exact absurd sized unblank
      | given size =>
          obtain ⟨land, made⟩ := emptyLandscape_of_pos (positive size sized)
          simp only [made]
          exact ⟨some land, rfl⟩

/-- A depth that has been checked is checked again without failing. -/
theorem settings_of_ne_blank (sound : options.Sound) (unblank : options.maxDepth ≠ .blank) :
    ∃ settings, options.settings = .ok settings := by
  rw [settings]
  cases depth : options.maxDepth with
  | absent => exact ⟨_, rfl⟩
  | blank => exact absurd depth unblank
  | given limit =>
      have positive : ¬limit < 1 := Int.not_lt.mpr (sound.depth limit depth)
      simp only [ParserSettings.create, checkLimit, if_neg positive]
      exact ⟨_, rfl⟩

/-- What is lacking ends the preparation. -/
theorem prepare_of_lacks (lacks : options.Lacks fault) : options.prepare = .error fault := by
  rw [prepare]
  cases lacks with
  | landscape bound sized small =>
      rw [landscape, if_pos bound, sized]
      simp only [emptyLandscape_of_le small]
      rfl
  | blankSize bound blank =>
      rw [landscape, if_pos bound, blank]
      rfl
  | blankDepth habitable blank =>
      obtain ⟨land, made⟩ := landscape_of_habitable habitable
      rw [made, settings, blank]
      rfl

/-- A run is prepared unless something is lacking. -/
theorem prepare_cases (sound : options.Sound) :
    (∃ fault, options.Lacks fault) ∨
      ∃ workspace reader, options.prepare = .ok (workspace, reader) := by
  by_cases habitable : options.Habitable
  · by_cases blank : options.maxDepth = .blank
    · exact .inl ⟨.blankDepth, .blankDepth habitable blank⟩
    · obtain ⟨land, made⟩ := landscape_of_habitable habitable
      obtain ⟨settings, set⟩ := settings_of_ne_blank sound blank
      rw [prepare, made, set]
      exact .inr ⟨_, _, rfl⟩
  · rw [Habitable, Classical.not_imp] at habitable
    obtain ⟨bound, unfit⟩ := habitable
    rcases Classical.not_and_iff_not_or_not.mp unfit with blank | small
    · exact .inl ⟨.blankSize, .blankSize bound (not_not.mp blank)⟩
    · simp only [not_forall, Int.not_lt] at small
      obtain ⟨size, sized, small⟩ := small
      exact .inl ⟨.landscape ⟨size, size⟩, .landscape bound sized small⟩

/-- A workspace in which programs are read over the built-in functions and variables hold truth
values and doubles. -/
structure Ready (workspace : Workspace) (reader : Reader) : Prop where
  /-- The functions. -/
  builtin : workspace.registry reader.registry = .builtin
  /-- The values of the variables. -/
  values : ∀ value ∈ workspace.values, value.isBooleanOrDouble = true

theorem ready_of_prepare (sound : options.Sound)
    (prepared : options.prepare = .ok (workspace, reader)) : Ready workspace reader := by
  rw [prepare] at prepared
  obtain ⟨land, -, prepared⟩ := Outcome.bind_eq_ok_iff.mp prepared
  obtain ⟨settings, -, prepared⟩ := Outcome.bind_eq_ok_iff.mp prepared
  have listed : ∀ definition ∈ options.reachable, definition.value.isBooleanOrDouble = true := by
    intro definition member
    obtain ⟨found, taken, same⟩ := List.mem_filterMap.mp member
    obtain rfl : found = some definition := same
    exact sound.values definition ((List.takeWhile_sublist _).subset taken)
  -- Whether or not there is an ant, variables and functions are added to a workspace without values.
  have ready : ∀ (start : Workspace) (environment : Environment) (ant : Option Nat) (number : Nat),
      start.values = [] →
      let defined := (start.newVariables
        (options.reachable.map fun definition => (definition.name, definition.value))).1
      Ready ((defined.newRegistry true).1.newSettings settings).1
        ⟨(defined.newRegistry true).2, environment, ant, number⟩ := by
    intro start environment ant number unset defined
    constructor
    · simp [Workspace.registry, Workspace.newRegistry, Workspace.newSettings]
    · intro value member
      change value ∈ (Workspace.newVariables _ _).1.values at member
      rw [Workspace.newVariables_fst, unset, List.nil_append, List.map_map] at member
      obtain ⟨definition, defines, rfl⟩ := List.mem_map.mp member
      exact listed definition defines
  cases land with
  | none =>
      obtain ⟨rfl, rfl⟩ := Prod.mk.inj (Except.ok.inj prepared)
      exact ready _ _ _ _ rfl
  | some land =>
      obtain ⟨rfl, rfl⟩ := Prod.mk.inj (Except.ok.inj prepared)
      exact ready _ _ _ _ rfl

end Options

/-! ## Runs -/

/-- A program that has been read is reported on, unless its evaluation is asked for and fails. -/
theorem conclude_cases (options : Options) (log : String) {workspace : Workspace} {tree : Tree}
    (small : (workspace.evaluateTree tree).1 ≠ .error (.conversion .tooLarge)) :
    (options.evaluate = true ∧ ∃ error, (workspace.evaluateTree tree).1 = .error error ∧
        conclude options log workspace tree =
          failed log s!"evaluation failed: {error.message}") ∨
      (options.evaluate = true → ∃ value, (workspace.evaluateTree tree).1 = .ok value) ∧
        ∃ output, conclude options log workspace tree = .finished 0 output log := by
  rw [conclude]
  cases asked : options.evaluate with
  | false => exact .inr ⟨nofun, _, rfl⟩
  | true =>
      rw [if_pos rfl]
      split
      · rename_i value valued
        exact .inr ⟨fun _ => ⟨value, valued⟩, _, rfl⟩
      · rename_i large
        exact absurd large small
      · rename_i error _ failure
        exact .inl ⟨rfl, error, failure, rfl⟩

namespace Request

variable {request : Request} {fault : Fault} {workspace : Workspace} {reader : Reader}

/-- The source of the program. -/
def source (request : Request) : String := String.ofList request.expression

/-- The faults that a run does not handle: something is lacking for it, or the reading comes to a
terminal for which it searches behind a variable that has no name. -/
inductive Meets (request : Request) : Fault → Prop
  /-- The run cannot be prepared. -/
  | lacking {fault : Fault} (lacks : request.options.Lacks fault) : Meets request fault
  /-- A blank variable is in the way of a search. -/
  | blankVariable {workspace : Workspace} {reader : Reader}
      (prepared : request.options.prepare = .ok (workspace, reader))
      (blank : none ∈ request.options.definitions)
      (unnamed : (workspace.language reader).MeetsUnnamed (reader.ant.map workspace.contextOf) 1
        (Text.trim request.expression)) : Meets request .blankVariable

/-- The program cannot be read, or it cannot be evaluated although that is asked for. -/
def Fails (request : Request) : Prop :=
  ∃ workspace reader, request.options.prepare = .ok (workspace, reader) ∧
    ((∃ error, workspace.parse reader none (some request.source) = .error error) ∨
      request.options.evaluate = true ∧ ∃ after root error,
        workspace.parse reader none (some request.source) = .ok (after, some root) ∧
          (after.evaluate root).1 = .error error)

theorem searches_iff :
    (request.options.hasBlankVariable &&
        (workspace.language reader).searchesAll (reader.ant.map workspace.contextOf)
          request.source) = true ↔
      none ∈ request.options.definitions ∧ (workspace.language reader).MeetsUnnamed
        (reader.ant.map workspace.contextOf) 1 (Text.trim request.expression) := by
  have blank : request.options.hasBlankVariable = true ↔ none ∈ request.options.definitions := by
    simp [Options.hasBlankVariable]
  rw [Bool.and_eq_true, blank, Language.searchesAll, Language.searchesAllAt_iff, source,
    String.toList_ofList]

/-- A fault that is met ends the run. -/
theorem run_of_meets (met : request.Meets fault) (time : String) :
    request.run time = .faulted fault "" := by
  rw [run]
  cases met with
  | lacking lacks =>
      rw [Options.prepare_of_lacks lacks]
  | blankVariable prepared blank unnamed =>
      rw [prepared]
      exact if_pos (searches_iff.mpr ⟨blank, unnamed⟩)

/-- A run that is prepared and does not search behind a blank variable reads the program. -/
theorem run_of_unsearched (prepared : request.options.prepare = .ok (workspace, reader))
    (unsearched : ¬request.Meets .blankVariable) (time : String) :
    request.run time =
      match (workspace.language reader).parse (workspace.effectiveContext reader none)
        request.source with
      | .error (.resolve (.build error)) => .faulted (.function error) ""
      | .error error => failed "" error.message
      | .ok tree =>
        let logged := workspace.log (.parsed request.source)
        conclude request.options (logText time logged) logged tree := by
  rw [run, prepared]
  refine if_neg fun searched => ?_
  obtain ⟨blank, unnamed⟩ := searches_iff.mp searched
  exact unsearched (.blankVariable prepared blank unnamed)

/-- Without a fault the run reads the program and evaluates it if that is asked for. -/
theorem run_of_spared (sound : request.options.Sound) (spared : ∀ fault, ¬request.Meets fault)
    (time : String) :
    ∃ workspace reader, request.options.prepare = .ok (workspace, reader) ∧
      ((∃ error, workspace.parse reader none (some request.source) = .error error ∧
          request.run time = failed "" error.message) ∨
        ∃ after root, workspace.parse reader none (some request.source) = .ok (after, some root) ∧
          ((request.options.evaluate = true ∧ ∃ error log,
              (after.evaluate root).1 = .error error ∧
                request.run time = failed log s!"evaluation failed: {error.message}") ∨
            (request.options.evaluate = true → ∃ value, (after.evaluate root).1 = .ok value) ∧
              ∃ output log, request.run time = .finished 0 output log)) := by
  rcases Options.prepare_cases sound with ⟨fault, lacks⟩ | ⟨workspace, reader, prepared⟩
  · exact absurd (.lacking lacks) (spared fault)
  have ready := Options.ready_of_prepare sound prepared
  have run_eq := run_of_unsearched prepared (spared .blankVariable) time
  refine ⟨workspace, reader, prepared, ?_⟩
  cases read : workspace.parse reader none (some request.source) with
  | error error =>
      refine .inl ⟨error, rfl, ?_⟩
      rw [Workspace.parse_some] at read
      have refused := Outcome.map_eq_error_iff.mp read
      rw [run_eq, refused]
      split
      · rename_i build same
        rw [same] at refused
        exact absurd refused (Language.parseAt_ne_build ready.builtin build)
      · rename_i same
        rw [Except.error.inj same]
      · rename_i impossible
        cases impossible
  | ok result =>
      obtain ⟨after, slot⟩ := result
      obtain ⟨tree, root, rfl, parsed, kept, -, found⟩ := Workspace.exists_root_of_parse read
      refine .inr ⟨after, root, rfl, ?_⟩
      let logged := workspace.log (.parsed request.source)
      have value_eq : (after.evaluate root).1 = (logged.evaluateTree tree).1 := by
        rw [Workspace.evaluate, (found after.heap List.prefix_rfl).1, kept]
        rfl
      have small : (logged.evaluateTree tree).1 ≠ .error (.conversion .tooLarge) :=
        Workspace.evaluateTree_ne_tooLarge ready.builtin ready.values parsed
      rw [parsed] at run_eq
      change request.run time = conclude request.options (logText time logged) logged tree at run_eq
      rw [value_eq, run_eq]
      rcases conclude_cases request.options (logText time logged) small with
        ⟨asked, error, failure, ended⟩ | ⟨valued, output, ended⟩
      · exact .inl ⟨asked, error, _, failure, ended⟩
      · exact .inr ⟨valued, output, _, ended⟩

/-- A request that is accepted meets a fault, fails or is answered. -/
theorem run_cases (sound : request.options.Sound) (time : String) :
    (∃ fault, request.Meets fault ∧ request.run time = .faulted fault "") ∨
      (∀ fault, ¬request.Meets fault) ∧
        ((request.Fails ∧ ∃ diagnostics, request.run time = .finished 1 "" diagnostics) ∨
          ¬request.Fails ∧ ∃ output diagnostics,
            request.run time = .finished 0 output diagnostics) := by
  by_cases met : ∃ fault, request.Meets fault
  · obtain ⟨fault, met⟩ := met
    exact .inl ⟨fault, met, run_of_meets met time⟩
  · have spared := not_exists.mp met
    refine .inr ⟨spared, ?_⟩
    obtain ⟨workspace, reader, prepared, ⟨error, refused, ended⟩ | ⟨after, root, read,
      ⟨asked, error, log, failure, ended⟩ | ⟨valued, output, log, ended⟩⟩⟩ :=
      run_of_spared sound spared time
    · exact .inl ⟨⟨workspace, reader, prepared, .inl ⟨error, refused⟩⟩, _, ended⟩
    · exact .inl ⟨⟨workspace, reader, prepared, .inr ⟨asked, after, root, error, read, failure⟩⟩,
        _, ended⟩
    · refine .inr ⟨?_, output, log, ended⟩
      -- The run has one preparation and one reading, so that what fails is what was computed.
      rintro ⟨other, other_reader, prepared_too, reason⟩
      obtain ⟨rfl, rfl⟩ := Prod.mk.inj (Except.ok.inj (prepared.symm.trans prepared_too))
      rcases reason with ⟨error, refused⟩ | ⟨asked, last, node, error, read_too, failure⟩
      · cases read.symm.trans refused
      · obtain ⟨rfl, same⟩ := Prod.mk.inj (Except.ok.inj (read.symm.trans read_too))
        obtain rfl := Option.some.inj same
        obtain ⟨value, computed⟩ := valued asked
        cases computed.symm.trans failure

end Request

/-- A command line asks for help, is refused or is accepted. -/
theorem run_eq_cases (time : String) (arguments : List String) :
    (Request.read arguments = .error .help ∧ run time arguments = .finished 0 helpText "") ∨
      (∃ error diagnostics, Request.read arguments = .error (.usage error) ∧
        run time arguments = .finished 2 "" diagnostics) ∨
      ∃ request, Request.read arguments = .ok request ∧ run time arguments = request.run time := by
  rw [run]
  cases read : Request.read arguments with
  | error stop =>
      cases stop with
      | help => exact .inl ⟨rfl, rfl⟩
      | usage error => exact .inr (.inl ⟨error, _, rfl, rfl⟩)
  | ok request => exact .inr (.inr ⟨request, rfl, rfl⟩)

/-- Every command line ends with status 0, 1 or 2 unless a fault is not handled, and that happens
exactly if the command line is accepted and asks for an ant on a landscape without cells or without
a size, for a depth without a number, or for a program whose reading searches behind a variable
without a name.  Status 2 is that of a command line that is refused.  Status 1 is that of one that
is accepted and meets no fault, but whose program cannot be read, or cannot be evaluated although
that is asked for; then there is no output. -/
theorem status_or_unhandled_fault (time : String) (arguments : List String) :
    ((∃ status output diagnostics, run time arguments = .finished status output diagnostics ∧
          (status = 0 ∨ status = 1 ∨ status = 2)) ∨
        ∃ fault, run time arguments = .faulted fault "") ∧
      (∀ fault, run time arguments = .faulted fault "" ↔
        ∃ request, Request.read arguments = .ok request ∧ request.Meets fault) ∧
      ((∃ output diagnostics, run time arguments = .finished 2 output diagnostics) ↔
        ∃ error, Request.read arguments = .error (.usage error)) ∧
      ((∃ output diagnostics, run time arguments = .finished 1 output diagnostics) ↔
        ∃ request, Request.read arguments = .ok request ∧ (∀ fault, ¬request.Meets fault) ∧
          request.Fails) ∧
      ∀ output diagnostics, run time arguments = .finished 1 output diagnostics → output = "" := by
  rcases run_eq_cases time arguments with ⟨read, ended⟩ | ⟨error, diagnostics, read, ended⟩ |
    ⟨request, read, started⟩
  · simp [read, ended]
  · simp [read, ended]
  · rcases Request.run_cases (Request.sound_of_read read) time with ⟨fault, met, ended⟩ |
      ⟨spared, ⟨fails, diagnostics, ended⟩ | ⟨answered, output, diagnostics, ended⟩⟩
    · have only : ∀ other, request.Meets other ↔ fault = other := by
        refine fun other => ⟨fun met_too => ?_, fun same => same ▸ met⟩
        exact (Outcome.faulted.inj (ended.symm.trans (Request.run_of_meets met_too time))).1
      simp [read, started, ended, only]
    · simp [read, started, ended, spared, fails]
    · simp [read, started, ended, spared, answered]

/-- A landscape without cells is not all that goes unhandled: so do a depth, a size and a variable
that are left blank, the first and the last of them without an ant. -/
theorem faults_beyond_small_landscapes :
    let expected : List String → Prop := fun arguments =>
      (∃ fault diagnostics, run "" arguments = .faulted fault diagnostics) ↔
        ∃ request size, Request.read arguments = .ok request ∧ request.options.ant = true ∧
          request.options.antSize = .given size ∧ size ≤ 0
    ¬expected ["true", "--max-depth=--"] ∧ ¬expected ["true", "--ant", "--ant-size=--"] ∧
      ¬expected ["1", "--var=--"] := by
  intro expected
  have refuted : ∀ (arguments : List String) (request : Request) (fault : Fault),
      Request.read arguments = .ok request → request.Meets fault →
      (∀ size, request.options.antSize ≠ .given size) → ¬expected arguments := by
    intro arguments request fault read met unsized agreed
    have ended : run "" arguments = .faulted fault "" := by
      rw [run, read]
      exact Request.run_of_meets met ""
    obtain ⟨other, size, read_too, -, sized, -⟩ := agreed.mp ⟨fault, "", ended⟩
    obtain rfl := Except.ok.inj (read.symm.trans read_too)
    exact unsized size sized
  refine ⟨refuted _ ⟨"true".toList, { maxDepth := .blank }⟩ .blankDepth (by decide +kernel) ?_
      nofun,
    refuted _ ⟨"true".toList, { ant := true, antSize := .blank }⟩ .blankSize (by decide +kernel) ?_
      nofun,
    refuted _ ⟨['1'], { definitions := [none] }⟩ .blankVariable (by decide +kernel) ?_ nofun⟩
  · exact .lacking (.blankDepth nofun rfl)
  · exact .lacking (.blankSize rfl rfl)
  · exact .blankVariable rfl List.mem_cons_self ⟨1, ['1'], .here 1 ['1'],
      Language.permits_of_unlimited rfl 1, by decide, by decide⟩

end CommandLine

end GeneticProgram
