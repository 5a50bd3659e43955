import GeneticProgram.Lifecycle

/-!
# Episodes

A run of commands is watched together with everything that happens inside it: every notification of
a listener inside an announcement and every command inside a notification.  What is watched tells
how each of these ends and the hub before and after it.  It ends as the commands themselves do.
-/

namespace GeneticProgram

/-- What can happen: a command is carried out, or a listener is notified. -/
inductive Occurrence
  | command (command : Command)
  | notice (listener : String) (phase : Phase)
deriving DecidableEq

/-- An occurrence together with all that happens inside it. -/
structure Episode where
  /-- What happens. -/
  occurrence : Occurrence
  /-- The hub when it begins. -/
  before : Hub
  /-- What happens directly inside it, in order. -/
  inner : List Episode
  /-- How it ends. -/
  outcome : Except LifecycleError Unit
  /-- The hub when it ends. -/
  after : Hub

namespace Episode

/-- How several episodes that begin at a hub end. -/
def ending (hub : Hub) : List Episode → Except LifecycleError Unit × Hub
  | [] => (.ok (), hub)
  | [last] => (last.outcome, last.after)
  | _ :: next :: rest => ending hub (next :: rest)

/-- Let things happen one after another, until one of them fails or in spite of failures. -/
def chain {Item : Type} (inSpite : Bool) (step : Item → Hub → Episode) :
    List Item → Hub → List Episode
  | [], _ => []
  | item :: rest, hub =>
    let first := step item hub
    first :: if inSpite || first.outcome.isOk then chain inSpite step rest first.after else []

/-- The episode of an occurrence from what happens inside it. -/
def enclose (occurrence : Occurrence) (before hub : Hub) (inner : List Episode) : Episode where
  occurrence := occurrence
  before := before
  inner := inner
  outcome := (ending hub inner).1
  after := (ending hub inner).2

end Episode

namespace Command

open Episode

/-- Watch the notification of a listener that carries out its commands in a given way. -/
def watchNotice (reaction : Reaction) (watch : Command → Hub → Episode) (phase : Phase)
    (listener : String) (hub : Hub) : Episode :=
  match reaction listener phase hub with
  | none => enclose (.notice listener phase) hub hub []
  | some commands =>
    enclose (.notice listener phase) hub (hub.note listener phase)
      (chain false watch commands (hub.note listener phase))

/-- Watch a command; announcements may be nested as deep as the second argument says. -/
def watch (reaction : Reaction) : Nat → Command → Hub → Episode
  | _, .add listener, hub => ⟨.command (.add listener), hub, [], .ok (), hub.add listener⟩
  | _, .remove listener, hub =>
    match hub.remove? listener with
    | some next => ⟨.command (.remove listener), hub, [], .ok (), next⟩
    | none => ⟨.command (.remove listener), hub, [], .error .notSubscribed, hub⟩
  | _, .raise text, hub => ⟨.command (.raise text), hub, [], .error (.raised text), hub⟩
  | 0, .fire phase, hub => ⟨.command (.fire phase), hub, [], .error .nestedTooDeep, hub⟩
  | depth + 1, .fire phase, hub =>
    enclose (.command (.fire phase)) hub (hub.announce phase)
      (chain false (watchNotice reaction (watch reaction depth) phase) hub.listeners
        (hub.announce phase))

/-- Watch several commands, each of them from the hub that the one before has left. -/
def watchAll (reaction : Reaction) (depth : Nat) : List Command → Hub → List Episode :=
  chain true (watch reaction depth)

/-- Carry out several commands, each of them on the hub that the one before has left. -/
def performAll (reaction : Reaction) (depth : Nat) :
    List Command → Hub → List (Except LifecycleError Unit × Hub)
  | [], _ => []
  | command :: rest, hub =>
    let result := performWithin reaction depth command hub
    result :: performAll reaction depth rest result.2

end Command

/-! ## What is watched is what is done -/

/-- A computation on a hub goes on from where the first part of it has returned. -/
theorem Dispatch.bind_apply {First Result : Type} (first : Dispatch First)
    (next : First → Dispatch Result) (hub : Hub) :
    (first >>= next) hub =
      match first hub with
      | (.ok value, between) => next value between
      | (.error error, between) => (.error error, between) := by
  simp only [bind, ExceptT.bind, ExceptT.mk, StateT.bind, ExceptT.bindCont]
  rcases first hub with ⟨outcome, between⟩
  cases outcome with
  | ok value => rfl
  | error error => rfl

namespace Episode

theorem ending_cons (hub other : Hub) (first : Episode) (rest : List Episode) :
    ending hub (first :: rest) = ending other (first :: rest) := by
  induction rest generalizing first with
  | nil => rfl
  | cons next rest induction => rw [ending, ending, induction]

theorem ending_cons_of_ok {hub : Hub} {first : Episode} (returned : first.outcome = .ok ())
    (rest : List Episode) : ending hub (first :: rest) = ending first.after rest := by
  cases rest with
  | nil => rw [ending, ending, returned]
  | cons next rest => rw [ending, ending_cons hub first.after]

theorem forM_eq_ending {Item : Type} {action : Item → Dispatch Unit}
    {step : Item → Hub → Episode}
    (agree : ∀ item hub, action item hub = ((step item hub).outcome, (step item hub).after))
    (items : List Item) (hub : Hub) :
    (items.forM action) hub = ending hub (chain false step items hub) := by
  induction items generalizing hub with
  | nil => rfl
  | cons item rest induction =>
      rw [List.forM_eq_forM, List.forM_cons, Dispatch.bind_apply, agree, chain]
      cases outcome : (step item hub).outcome with
      | error error => simp [Except.isOk, Except.toBool, outcome, ending]
      | ok value =>
          rw [ending_cons_of_ok outcome]
          exact induction _

end Episode

namespace Command

open Episode

/-- Notify a listener, which carries out its commands. -/
def notify (reaction : Reaction) (depth : Nat) (phase : Phase) (listener : String) :
    Dispatch Unit := do
  match reaction listener phase (← get) with
  | none => pure ()
  | some commands => do
    modify fun hub => hub.note listener phase
    commands.forM (performWithin reaction depth)

/-- An announcement notifies the listeners that are subscribed when it begins. -/
theorem performWithin_fire (reaction : Reaction) (depth : Nat) (phase : Phase) (hub : Hub) :
    performWithin reaction (depth + 1) (.fire phase) hub =
      (hub.listeners.forM (notify reaction depth phase)) (hub.announce phase) := by
  rw [performWithin]
  rfl

theorem performWithin_remove (reaction : Reaction) (depth : Nat) (listener : String) (hub : Hub) :
    performWithin reaction depth (.remove listener) hub =
      match hub.remove? listener with
      | some next => (.ok (), next)
      | none => (.error .notSubscribed, hub) := by
  rw [performWithin, Dispatch.bind_apply]
  show (match hub.remove? listener with
    | some next => set next
    | none => throw .notSubscribed : Dispatch Unit) hub = _
  cases hub.remove? listener with
  | none => rfl
  | some next => rfl

variable {reaction : Reaction}

theorem notify_eq {depth : Nat} {phase : Phase}
    (agree : ∀ command hub, performWithin reaction depth command hub =
      ((watch reaction depth command hub).outcome, (watch reaction depth command hub).after))
    (listener : String) (hub : Hub) :
    notify reaction depth phase listener hub =
      ((watchNotice reaction (watch reaction depth) phase listener hub).outcome,
        (watchNotice reaction (watch reaction depth) phase listener hub).after) := by
  rw [notify, Dispatch.bind_apply, watchNotice]
  show (match reaction listener phase hub with
    | none => pure ()
    | some commands => do
      modify fun hub => hub.note listener phase
      commands.forM (performWithin reaction depth) : Dispatch Unit) hub = _
  cases reaction listener phase hub with
  | none => rfl
  | some commands => exact forM_eq_ending agree commands (hub.note listener phase)

/-- Only announcements depend on how deep they may be nested. -/
theorem performWithin_eq_watch_of_fire {depth : Nat}
    (announced : ∀ phase hub, performWithin reaction depth (.fire phase) hub =
      ((watch reaction depth (.fire phase) hub).outcome,
        (watch reaction depth (.fire phase) hub).after))
    (command : Command) (hub : Hub) :
    performWithin reaction depth command hub =
      ((watch reaction depth command hub).outcome, (watch reaction depth command hub).after) := by
  cases command with
  | add listener =>
      rw [performWithin, watch]
      rfl
  | remove listener =>
      rw [performWithin_remove, watch]
      cases hub.remove? listener with
      | none => rfl
      | some next => rfl
  | fire phase => exact announced phase hub
  | raise text =>
      rw [performWithin, watch]
      rfl

/-- A command does what is watched. -/
theorem performWithin_eq_watch (depth : Nat) (command : Command) (hub : Hub) :
    performWithin reaction depth command hub =
      ((watch reaction depth command hub).outcome, (watch reaction depth command hub).after) := by
  induction depth generalizing command hub with
  | zero =>
      apply performWithin_eq_watch_of_fire
      intro phase hub
      rfl
  | succ depth induction =>
      apply performWithin_eq_watch_of_fire
      intro phase hub
      rw [performWithin_fire, watch]
      exact forM_eq_ending (notify_eq induction) hub.listeners (hub.announce phase)

/-- Several commands do what is watched. -/
theorem performAll_eq_watchAll (depth : Nat) (commands : List Command) (hub : Hub) :
    performAll reaction depth commands hub =
      (watchAll reaction depth commands hub).map fun episode =>
        (episode.outcome, episode.after) := by
  induction commands generalizing hub with
  | nil => rfl
  | cons command rest induction =>
      rw [performAll, induction, performWithin_eq_watch]
      rfl

end Command

end GeneticProgram
