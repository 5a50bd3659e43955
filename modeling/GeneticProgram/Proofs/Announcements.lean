import GeneticProgram.Proofs.Episodes
import Mathlib.Data.List.Perm.Subperm

/-!
# Announcements

Every episode of a run is seen together with the changes of subscriptions that were made before it.
At any moment the listeners are those that were added, less those that were removed.  An
announcement goes to the listeners that were subscribed when it began, whatever they do to the
subscriptions, up to the first that fails; the failure is passed on, and what was changed before
stays changed.
-/

namespace GeneticProgram

/-! ## Changes of subscriptions -/

/-- The listeners that commands add. -/
def Command.added (changes : List Command) : List String :=
  changes.filterMap fun
    | .add listener => some listener
    | _ => none

/-- The listeners that commands remove. -/
def Command.removed (changes : List Command) : List String :=
  changes.filterMap fun
    | .remove listener => some listener
    | _ => none

open Command (added removed)

/-- The listeners are those of the beginning and those that were added, in this order, less the
earliest ones of those that were removed; and nothing was removed that was not there. -/
structure Settled (initial : List String) (changes : List Command) (listeners : List String) :
    Prop where
  /-- Every removal cancels the earliest subscription of its listener that is left. -/
  order : listeners = (initial ++ added changes).diff (removed changes)
  /-- A listener is subscribed as often as it was added and not removed. -/
  count : ∀ listener, listeners.count listener + (removed changes).count listener =
    (initial ++ added changes).count listener

namespace Settled

variable {initial listeners : List String} {changes : List Command}

theorem refl (initial : List String) : Settled initial [] initial := by
  constructor
  · rw [added, removed, List.filterMap_nil, List.filterMap_nil, List.append_nil, List.diff_nil]
  · intro listener
    rw [added, removed, List.filterMap_nil, List.filterMap_nil, List.append_nil, List.count_nil]
    rfl

/-- What is added behind everything that is removed stays where it is. -/
theorem append_diff {first away : List String} (within : away.Subperm first) (last : List String) :
    (first ++ last).diff away = first.diff away ++ last := by
  induction away generalizing first with
  | nil => rw [List.diff_nil, List.diff_nil]
  | cons item rest induction =>
      have present : item ∈ first := within.subset List.mem_cons_self
      have remaining : rest.Subperm (first.erase item) := by
        have erased := within.erase item
        rwa [List.erase_cons_head] at erased
      rw [List.diff_cons, List.diff_cons, List.erase_append_left last present, induction remaining]

theorem add (settled : Settled initial changes listeners) (listener : String) :
    Settled initial (changes ++ [.add listener]) (listeners ++ [listener]) := by
  have added_eq : added (changes ++ [.add listener]) = added changes ++ [listener] := by
    simp [added]
  have removed_eq : removed (changes ++ [.add listener]) = removed changes := by
    simp [removed]
  have within : (removed changes).Subperm (initial ++ added changes) := by
    rw [List.subperm_ext_iff]
    intro other member
    rw [← settled.count other]
    exact Nat.le_add_left _ _
  constructor
  · rw [added_eq, removed_eq, ← List.append_assoc, append_diff within, ← settled.order]
  · intro other
    have counted := settled.count other
    rw [added_eq, removed_eq]
    simp only [List.count_append] at counted ⊢
    omega

theorem remove (settled : Settled initial changes listeners) {listener : String}
    (present : listener ∈ listeners) :
    Settled initial (changes ++ [.remove listener]) (listeners.erase listener) := by
  have added_eq : added (changes ++ [.remove listener]) = added changes := by
    simp [added]
  have removed_eq : removed (changes ++ [.remove listener]) = removed changes ++ [listener] := by
    simp [removed]
  constructor
  · rw [added_eq, removed_eq, List.diff_append, ← settled.order, List.diff_cons, List.diff_nil]
  · intro other
    rw [added_eq, removed_eq, List.count_append, ← settled.count other]
    by_cases same : other = listener
    · subst same
      have positive := List.count_pos_iff.mpr present
      rw [List.count_erase_self, List.count_singleton_self]
      omega
    · rw [List.count_erase_of_ne same, List.count_singleton, if_neg]
      · omega
      · simpa using Ne.symm same

end Settled

/-! ## Situations -/

namespace Episode

/-- The change of subscriptions that an occurrence is by itself. -/
def ownChange (occurrence : Occurrence) (outcome : Except LifecycleError Unit) : List Command :=
  match occurrence, outcome with
  | .command (.add listener), .ok () => [.add listener]
  | .command (.remove listener), .ok () => [.remove listener]
  | _, _ => []

theorem ownChange_error (occurrence : Occurrence) (error : LifecycleError) :
    ownChange occurrence (.error error) = [] := by
  rw [ownChange]
  · simp
  · simp

/-- How deep announcements are nested inside an occurrence at some depth. -/
def levelInside (level : Nat) : Occurrence → Nat
  -- Of all commands only an announcement has anything inside.
  | .command _ => level + 1
  | .notice _ _ => level

mutual

/-- The changes of subscriptions that are made in an episode, in order. -/
def changes : Episode → List Command
  | ⟨occurrence, _, inner, outcome, _⟩ => ownChange occurrence outcome ++ changesIn inner

/-- The changes of subscriptions that are made in several episodes. -/
def changesIn : List Episode → List Command
  | [] => []
  | first :: rest => first.changes ++ changesIn rest

end

mutual

/-- The notifications in an episode that are acted on, in order. -/
def heard (reaction : Reaction) : Episode → List (String × Phase)
  | ⟨.command _, _, inner, _, _⟩ => heardIn reaction inner
  | ⟨.notice listener phase, before, inner, _, _⟩ =>
    (if (reaction listener phase before).isSome then [(listener, phase)] else []) ++
      heardIn reaction inner

/-- The notifications in several episodes that are acted on. -/
def heardIn (reaction : Reaction) : List Episode → List (String × Phase)
  | [] => []
  | first :: rest => first.heard reaction ++ heardIn reaction rest

end

end Episode

/-- An episode of a run with what surrounds it and what comes before it. -/
structure Situation where
  /-- The number of announcements in which it happens. -/
  level : Nat
  /-- The changes of subscriptions that were made before it. -/
  past : List Command
  /-- The episode. -/
  episode : Episode

namespace Episode

mutual

/-- An episode and all episodes inside it. -/
def situations (level : Nat) (past : List Command) : Episode → List Situation
  | ⟨occurrence, before, inner, outcome, after⟩ =>
    ⟨level, past, ⟨occurrence, before, inner, outcome, after⟩⟩ ::
      situationsIn (levelInside level occurrence) past inner

/-- Several episodes and all episodes inside them. -/
def situationsIn (level : Nat) (past : List Command) : List Episode → List Situation
  | [] => []
  | first :: rest =>
    first.situations level past ++ situationsIn level (past ++ first.changes) rest

end

/-- Things that are to happen one after another happen up to the first that fails, and its failure
is passed on. -/
inductive Carried (planned : List Occurrence) (inner : List Episode)
    (outcome : Except LifecycleError Unit) : Prop
  | returned (all : inner.map occurrence = planned)
      (fine : ∀ episode ∈ inner, episode.outcome = .ok ()) (passed : outcome = .ok ())
  | failed (done : List Episode) (last : Episode) (left : List Occurrence)
      (error : LifecycleError) (part : inner = done ++ [last])
      (prior : planned = done.map occurrence ++ last.occurrence :: left)
      (fine : ∀ episode ∈ done, episode.outcome = .ok ()) (broken : last.outcome = .error error)
      (passed : outcome = .error error)

/-- What is watched goes by the rules.  A listener that is not subscribed cannot be removed.  An
announcement notifies the listeners that are subscribed when it begins, in order, up to the first
that fails; one that is nested too deep is refused.  A listener that acts on a notification carries
out its commands up to the first that fails. -/
def Lawful (reaction : Reaction) (depth level : Nat) (episode : Episode) : Prop :=
  match episode.occurrence with
  | .command (.add _) => episode.outcome = .ok ()
  | .command (.remove listener) =>
    if listener ∈ episode.before.listeners then episode.outcome = .ok ()
    else episode.outcome = .error .notSubscribed ∧ episode.after = episode.before
  | .command (.raise text) =>
    episode.outcome = .error (.raised text) ∧ episode.after = episode.before
  | .command (.fire phase) =>
    if level < depth then
      Carried (episode.before.listeners.map (.notice · phase)) episode.inner episode.outcome
    else episode.inner = [] ∧ episode.outcome = .error .nestedTooDeep ∧
      episode.after = episode.before
  | .notice listener phase =>
    match reaction listener phase episode.before with
    | none => episode.inner = [] ∧ episode.outcome = .ok () ∧ episode.after = episode.before
    | some commands => Carried (commands.map .command) episode.inner episode.outcome

/-- Things that happen until one fails are carried out. -/
theorem carried_chain {Item : Type} {step : Item → Hub → Episode} {label : Item → Occurrence}
    (labelled : ∀ item hub, (step item hub).occurrence = label item) (items : List Item)
    (hub : Hub) :
    Carried (items.map label) (chain false step items hub)
      (ending hub (chain false step items hub)).1 := by
  induction items generalizing hub with
  | nil => exact .returned rfl (by simp [chain]) rfl
  | cons item rest induction =>
      rw [chain]
      cases outcome : (step item hub).outcome with
      | error error =>
          rw [Bool.false_or, Except.isOk, Except.toBool, if_neg Bool.false_ne_true]
          refine .failed [] (step item hub) (rest.map label) error rfl ?_ ?_ outcome ?_
          · rw [labelled]
            rfl
          · exact List.forall_mem_nil _
          · rw [ending, outcome]
      | ok value =>
          rw [Bool.false_or, Except.isOk, Except.toBool, if_pos rfl, ending_cons_of_ok outcome]
          cases induction (step item hub).after with
          | returned all fine passed =>
              refine .returned ?_ (List.forall_mem_cons.mpr ⟨outcome, fine⟩) passed
              rw [List.map_cons, List.map_cons, labelled, all]
          | failed done last left error part prior fine broken passed =>
              refine .failed (step item hub :: done) last left error ?_ ?_
                (List.forall_mem_cons.mpr ⟨outcome, fine⟩) broken passed
              · rw [part, List.cons_append]
              · rw [List.map_cons, List.map_cons, labelled, prior, List.cons_append]

theorem ending_cons_snd (hub : Hub) (first : Episode) (rest : List Episode) :
    (ending hub (first :: rest)).2 = (ending first.after rest).2 := by
  cases rest with
  | nil => rfl
  | cons next rest => rw [ending, ending_cons hub first.after]

theorem situations_eq (level : Nat) (past : List Command) (episode : Episode) :
    episode.situations level past =
      ⟨level, past, episode⟩ ::
        situationsIn (levelInside level episode.occurrence) past episode.inner := by
  cases episode
  rw [situations]

theorem changes_eq (episode : Episode) :
    episode.changes =
      ownChange episode.occurrence episode.outcome ++ changesIn episode.inner := by
  cases episode
  rw [changes]

end Episode

/-- A situation agrees with the changes before it and in it, and with the rules. -/
structure Situation.Sound (reaction : Reaction) (depth : Nat) (initial : List String)
    (situation : Situation) : Prop where
  /-- The listeners when it begins are those of the changes before it. -/
  began : Settled initial situation.past situation.episode.before.listeners
  /-- The listeners when it ends, also with a failure, are those of the changes until then. -/
  ended : Settled initial (situation.past ++ situation.episode.changes)
    situation.episode.after.listeners
  /-- The notifications that were acted on are noted in their order. -/
  noted : situation.episode.after.events =
    situation.episode.before.events ++ situation.episode.heard reaction
  /-- It goes by the rules. -/
  lawful : situation.episode.Lawful reaction depth situation.level

namespace Episode

variable {reaction : Reaction} {depth level : Nat} {initial : List String} {past : List Command}

/-- What happens one after another is sound if each of it is. -/
theorem sound_chain {Item : Type} {step : Item → Hub → Episode} (inSpite : Bool)
    (starts : ∀ item hub, (step item hub).before = hub)
    (sound : ∀ item hub past, Settled initial past hub.listeners →
      ∀ situation ∈ (step item hub).situations level past, situation.Sound reaction depth initial)
    (items : List Item) {hub : Hub} (settled : Settled initial past hub.listeners) :
    (∀ situation ∈ situationsIn level past (chain inSpite step items hub),
        situation.Sound reaction depth initial) ∧
      Settled initial (past ++ changesIn (chain inSpite step items hub))
        (ending hub (chain inSpite step items hub)).2.listeners ∧
      (ending hub (chain inSpite step items hub)).2.events =
        hub.events ++ heardIn reaction (chain inSpite step items hub) := by
  induction items generalizing hub past with
  | nil =>
      refine ⟨?_, ?_, ?_⟩
      · rw [chain, situationsIn]
        exact List.forall_mem_nil _
      · rw [chain, changesIn, List.append_nil]
        exact settled
      · rw [chain, heardIn, List.append_nil]
        rfl
  | cons item rest induction =>
      have first := sound item hub past settled
      have whole : Situation.Sound reaction depth initial ⟨level, past, step item hub⟩ := by
        apply first
        rw [situations_eq]
        exact List.mem_cons_self
      have noted := whole.noted
      rw [starts] at noted
      obtain ⟨later, ended, noted_later⟩ := induction whole.ended
      rw [chain]
      split
      · rw [situationsIn, changesIn, heardIn, ending_cons_snd, ← List.append_assoc,
          ← List.append_assoc, noted_later, noted]
        refine ⟨?_, ended, rfl⟩
        intro situation member
        rcases List.mem_append.mp member with here | there
        · exact first situation here
        · exact later situation there
      · rw [situationsIn, situationsIn, changesIn, changesIn, heardIn, heardIn, List.append_nil,
          List.append_nil, List.append_nil]
        exact ⟨first, whole.ended, noted⟩

/-- An episode is sound if it is sound itself and what happens inside it is. -/
theorem sound_of_inner {episode : Episode}
    (whole : Situation.Sound reaction depth initial ⟨level, past, episode⟩)
    (inside : ∀ situation ∈
      situationsIn (levelInside level episode.occurrence) past episode.inner,
      situation.Sound reaction depth initial) :
    ∀ situation ∈ episode.situations level past, situation.Sound reaction depth initial := by
  rw [situations_eq]
  exact List.forall_mem_cons.mpr ⟨whole, inside⟩

/-- A command with nothing inside is sound if it makes no more than its own change. -/
theorem sound_of_bare {episode : Episode} {command : Command}
    (occurs : episode.occurrence = .command command) (bare : episode.inner = [])
    (began : Settled initial past episode.before.listeners)
    (ended : Settled initial (past ++ ownChange (.command command) episode.outcome)
      episode.after.listeners)
    (quiet : episode.after.events = episode.before.events)
    (lawful : episode.Lawful reaction depth level) :
    ∀ situation ∈ episode.situations level past, situation.Sound reaction depth initial := by
  cases episode
  cases occurs
  cases bare
  apply sound_of_inner
  · refine ⟨began, ?_, ?_, lawful⟩
    · rw [changes, changesIn, List.append_nil]
      exact ended
    · rw [heard, heardIn, List.append_nil]
      exact quiet
  · exact List.forall_mem_nil _

end Episode

namespace Command

open Episode

variable {reaction : Reaction} {depth level : Nat} {initial : List String} {past : List Command}

theorem label_watch (command : Command) (hub : Hub) :
    (watch reaction depth command hub).occurrence = .command command ∧
      (watch reaction depth command hub).before = hub := by
  cases command with
  | add listener =>
      rw [watch]
      exact ⟨rfl, rfl⟩
  | remove listener =>
      rw [watch]
      cases hub.remove? listener with
      | none => exact ⟨rfl, rfl⟩
      | some next => exact ⟨rfl, rfl⟩
  | fire phase =>
      cases depth with
      | zero => exact ⟨rfl, rfl⟩
      | succ depth => exact ⟨rfl, rfl⟩
  | raise text =>
      rw [watch]
      exact ⟨rfl, rfl⟩

theorem label_watchNotice {watched : Command → Hub → Episode} {phase : Phase}
    (listener : String) (hub : Hub) :
    (watchNotice reaction watched phase listener hub).occurrence = .notice listener phase ∧
      (watchNotice reaction watched phase listener hub).before = hub := by
  rw [watchNotice]
  cases reaction listener phase hub with
  | none => exact ⟨rfl, rfl⟩
  | some commands => exact ⟨rfl, rfl⟩

/-- A notification is sound if the commands in it are. -/
theorem sound_watchNotice {watched : Command → Hub → Episode} {phase : Phase}
    (labelled : ∀ command hub,
      (watched command hub).occurrence = .command command ∧ (watched command hub).before = hub)
    (sound : ∀ command hub past, Settled initial past hub.listeners →
      ∀ situation ∈ (watched command hub).situations level past,
        situation.Sound reaction depth initial)
    (listener : String) (hub : Hub) (past : List Command)
    (settled : Settled initial past hub.listeners) :
    ∀ situation ∈ (watchNotice reaction watched phase listener hub).situations level past,
      situation.Sound reaction depth initial := by
  rw [watchNotice]
  cases reacts : reaction listener phase hub with
  | none =>
      apply sound_of_inner
      · constructor
        · exact settled
        · rw [changes_eq]
          simpa [enclose, ending, ownChange, changesIn] using settled
        · simp [enclose, ending, heard, heardIn, reacts]
        · simp [Lawful, enclose, ending, reacts]
      · exact List.forall_mem_nil _
  | some commands =>
      have settled_note : Settled initial past (hub.note listener phase).listeners := settled
      obtain ⟨inside, ended, noted⟩ :=
        sound_chain false (fun command hub => (labelled command hub).2) sound commands settled_note
      apply sound_of_inner
      · constructor
        · exact settled
        · rw [changes_eq]
          exact ended
        · simpa [enclose, heard, reacts, Hub.note] using noted
        · have carried := carried_chain (fun command hub => (labelled command hub).1) commands
            (hub.note listener phase)
          simpa [Lawful, enclose, reacts] using carried
      · exact inside

/-- A command other than an announcement is sound. -/
theorem sound_watch_plain {command : Command} (plain : ∀ phase, command ≠ .fire phase) {hub : Hub}
    (settled : Settled initial past hub.listeners) {allowed : Nat} :
    ∀ situation ∈ (watch reaction allowed command hub).situations level past,
      situation.Sound reaction depth initial := by
  cases command with
  | add listener =>
      rw [watch]
      exact sound_of_bare rfl rfl settled (settled.add listener) rfl rfl
  | remove listener =>
      rw [watch, Hub.remove?]
      by_cases present : listener ∈ hub.listeners
      · rw [if_pos (List.contains_iff_mem.mpr present)]
        apply sound_of_bare rfl rfl settled (settled.remove present) rfl
        simp [Lawful, present]
      · rw [if_neg (mt List.contains_iff_mem.mp present)]
        apply sound_of_bare rfl rfl settled
        · rw [ownChange_error, List.append_nil]
          exact settled
        · rfl
        · simp [Lawful, present]
  | fire phase => exact absurd rfl (plain phase)
  | raise text =>
      rw [watch]
      apply sound_of_bare rfl rfl settled
      · rw [ownChange_error, List.append_nil]
        exact settled
      · rfl
      · exact ⟨rfl, rfl⟩

/-- A command is sound with everything that happens inside it. -/
theorem sound_watch {allowed : Nat} (budget : level + allowed = depth) (command : Command)
    (hub : Hub) (past : List Command) (settled : Settled initial past hub.listeners) :
    ∀ situation ∈ (watch reaction allowed command hub).situations level past,
      situation.Sound reaction depth initial := by
  -- The commands inside an announcement are one level deeper, where less nesting is allowed.
  induction allowed generalizing level command hub past with
  | zero =>
      cases command with
      | fire phase =>
          have exhausted : ¬level < depth := by omega
          rw [watch]
          apply sound_of_bare rfl rfl settled
          · rw [ownChange_error, List.append_nil]
            exact settled
          · rfl
          · simp [Lawful, exhausted]
      | _ => exact sound_watch_plain (by simp) settled
  | succ allowed induction =>
      cases command with
      | fire phase =>
          have permitted : level < depth := by omega
          have settled_announce : Settled initial past (hub.announce phase).listeners := settled
          have labelled : ∀ listener hub,
              (watchNotice reaction (watch reaction allowed) phase listener hub).occurrence =
                  .notice listener phase ∧
                (watchNotice reaction (watch reaction allowed) phase listener hub).before = hub :=
            label_watchNotice
          obtain ⟨inside, ended, noted⟩ := sound_chain false
            (fun listener hub => (labelled listener hub).2)
            (sound_watchNotice label_watch
              (induction (show level + 1 + allowed = depth by omega)))
            hub.listeners settled_announce
          have carried := carried_chain (fun listener hub => (labelled listener hub).1)
            hub.listeners (hub.announce phase)
          rw [watch]
          apply sound_of_inner
          · constructor
            · exact settled
            · rw [changes_eq]
              exact ended
            · exact noted
            · simpa [Lawful, enclose, permitted] using carried
          · exact inside
      | _ => exact sound_watch_plain (by simp) settled

end Command

/-- Whatever listeners do when they are notified, commands do what is watched, and all that is
watched is sound.  At every moment the listeners are those that were added, less those that were
removed; removing one that is not subscribed fails and changes nothing.  An announcement that
returns has notified the listeners subscribed when it began, and one that fails has notified them up
to the one whose failure it passes on, with all changes until then kept. -/
theorem announcements_follow_snapshots (reaction : Reaction) (depth : Nat)
    (commands : List Command) (hub : Hub) :
    Command.performAll reaction depth commands hub =
        (Command.watchAll reaction depth commands hub).map (fun episode =>
          (episode.outcome, episode.after)) ∧
      ∀ situation ∈ Episode.situationsIn 0 [] (Command.watchAll reaction depth commands hub),
        situation.Sound reaction depth hub.listeners := by
  constructor
  · exact Command.performAll_eq_watchAll depth commands hub
  · intro situation member
    exact (Episode.sound_chain true (fun command hub => (Command.label_watch command hub).2)
      (fun command hub past settled => Command.sound_watch (Nat.zero_add depth) command hub past
        settled) commands (Settled.refl hub.listeners)).1 situation member

end GeneticProgram
