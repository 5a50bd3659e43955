import GeneticProgram.Logging

/-!
# Lifecycle events

A hub announces the start and the end of a phase to its listeners in the order of their
subscription.  A listener may subscribe or remove listeners, announce a phase or fail while it is
being notified.  Each announcement goes to the listeners that were subscribed when it began; a
failure ends it and is passed on, and what was done before stays done.
-/

namespace GeneticProgram

/-- What is announced. -/
inductive Phase
  | start
  | finish
deriving DecidableEq

/-- The name of a phase. -/
def Phase.name : Phase → String
  | .start => "start"
  | .finish => "end"

/-- What can be asked of a hub. -/
inductive Command
  | add (listener : String)
  | remove (listener : String)
  | fire (phase : Phase)
  | raise (text : String)
deriving DecidableEq

/-- Why a command fails. -/
inductive LifecycleError
  | notSubscribed
  | raised (text : String)
  | nestedTooDeep
deriving DecidableEq

/-- The wording of a failure. -/
def LifecycleError.message : LifecycleError → String
  | .notSubscribed => "list.remove(x): x not in list"
  | .raised text => text
  | .nestedTooDeep => "maximum recursion depth exceeded"

/-- The subscribed listeners, with what has happened so far. -/
structure Hub where
  /-- The listeners in the order of their subscription. -/
  listeners : List String := []
  /-- The notifications that were acted on, the first one first. -/
  events : List (String × Phase) := []
  /-- The records that were made, the first one first. -/
  records : List LogRecord := []

/-- What a listener does when it is notified: nothing, or commands that may depend on what has
happened so far. -/
abbrev Reaction := String → Phase → Hub → Option (List Command)

/-- A listener that acts on some of the phases, in the same way each time. -/
structure Listener where
  /-- What it does at the start, if it acts on it. -/
  onStart : Option (List Command)
  /-- What it does at the end, if it acts on it. -/
  onFinish : Option (List Command)

/-- The reaction of named listeners. -/
def Listener.reaction (listeners : List (String × Listener)) : Reaction := fun name phase _ =>
  (listeners.lookup name).bind fun listener => match phase with
    | .start => listener.onStart
    | .finish => listener.onFinish

/-- A computation that acts on a hub and may fail; a failure keeps the hub as it is then. -/
abbrev Dispatch (Result : Type) := ExceptT LifecycleError (StateM Hub) Result

namespace Hub

/-- Subscribe a listener behind all others. -/
def add (hub : Hub) (listener : String) : Hub :=
  { hub with listeners := hub.listeners ++ [listener] }

/-- Remove the earliest subscription of a listener. -/
def remove? (hub : Hub) (listener : String) : Option Hub :=
  if hub.listeners.contains listener then
    some { hub with listeners := hub.listeners.erase listener }
  else none

/-- Note a notification that is acted on. -/
def note (hub : Hub) (listener : String) (phase : Phase) : Hub :=
  { hub with events := hub.events ++ [(listener, phase)] }

/-- Make the record of an announcement. -/
def announce (hub : Hub) (phase : Phase) : Hub :=
  { hub with records := hub.records ++ [.announced phase.name hub.listeners.length] }

end Hub

namespace Command

/-- Carry out a command; announcements may be nested as deep as the first argument says. -/
def performWithin (reaction : Reaction) : Nat → Command → Dispatch Unit
  | _, .add listener => modify fun hub => hub.add listener
  | _, .remove listener => do
    match (← get).remove? listener with
    | some hub => set hub
    | none => throw .notSubscribed
  | _, .raise text => throw (.raised text)
  | 0, .fire _ => throw .nestedTooDeep
  | depth + 1, .fire phase => do
    modify fun hub => hub.announce phase
    (← get).listeners.forM fun listener => do
      match reaction listener phase (← get) with
      | none => pure ()
      | some commands => do
        modify fun hub => hub.note listener phase
        commands.forM (performWithin reaction depth)

/-- How deep announcements may be nested. -/
def nestingLimit : Nat := 10000

/-- Carry out a command. -/
def perform (reaction : Reaction) (command : Command) (hub : Hub) :
    Except LifecycleError Unit × Hub :=
  performWithin reaction nestingLimit command hub

end Command
end GeneticProgram
