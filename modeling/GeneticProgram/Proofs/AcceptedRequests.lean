import GeneticProgram.CommandLine.Request
import GeneticProgram.Proofs.EvaluationFailures

/-!
# What an accepted command line asks for

Every value on a command line is checked where it is read.  So a request that is accepted defines
its variables by truth values and doubles only, and a depth that it gives is positive.  Each switch
keeps this, and therefore the reading of all words does.
-/

namespace GeneticProgram.CommandLine

/-! ## Values -/

/-- A variable is defined by a truth value or a double. -/
theorem Definition.isBooleanOrDouble_of_read {text : List Char} {definition : Definition}
    (read : Definition.read text = .ok definition) :
    definition.value.isBooleanOrDouble = true := by
  rw [Definition.read.eq_def] at read
  split at read
  · cases read
  · cases read
  · split at read
    · rename_i value found
      obtain rfl := Except.ok.inj read
      rw [value?] at found
      split at found
      · obtain rfl := Option.some.inj found
        rfl
      · obtain ⟨number, -, rfl⟩ := Option.map_eq_some_iff.mp found
        rfl
    · cases read

/-- A limit that is read is positive. -/
theorem one_le_of_positive {text : List Char} {limit : Int} (read : positive text = .ok limit) :
    1 ≤ limit := by
  rw [positive] at read
  split at read
  · cases read
  · split at read
    · cases read
    · rename_i small
      obtain rfl := Except.ok.inj read
      exact Int.not_lt.mp small

namespace Options

variable {options changed : Options}

/-- The variables are defined by truth values and doubles, and a depth that is given is positive. -/
structure Sound (options : Options) : Prop where
  /-- What defines a variable. -/
  values : ∀ definition, some definition ∈ options.definitions →
    definition.value.isBooleanOrDouble = true
  /-- The greatest depth. -/
  depth : ∀ limit, options.maxDepth = .given limit → 1 ≤ limit

theorem sound_default : ({} : Options).Sound := by
  constructor
  · intro definition member
    cases member
  · intro limit given
    cases given

/-! ## Switches -/

/-- A switch without a value changes neither the variables nor the depth. -/
theorem Sound.set (sound : options.Sound) {switch : Switch}
    (done : options.set switch = .ok changed) : changed.Sound := by
  cases switch with
  | help => cases done
  | define => cases done
  | antSize => cases done
  | maxDepth => cases done
  | _ =>
      obtain rfl := Except.ok.inj done
      exact ⟨sound.values, sound.depth⟩

theorem Sound.setAll (sound : options.Sound) {switches : List Switch}
    (done : options.setAll switches = .ok changed) : changed.Sound := by
  induction switches generalizing options with
  | nil =>
      obtain rfl := Except.ok.inj done
      exact sound
  | cons switch rest induction =>
      rw [Options.setAll, List.foldlM_cons] at done
      obtain ⟨middle, first, others⟩ := Outcome.bind_eq_ok_iff.mp done
      exact induction (sound.set first) others

/-- A switch that is set to a value has had the value checked. -/
theorem Sound.assign (sound : options.Sound) {switch : Switch} {text : List Char}
    (done : options.assign switch text = .ok changed) : changed.Sound := by
  rw [Options.assign.eq_def] at done
  split at done
  · split at done
    · rename_i definition read
      obtain rfl := Except.ok.inj done
      refine ⟨fun other member => ?_, sound.depth⟩
      rcases List.mem_append.mp member with before | last
      · exact sound.values other before
      · obtain rfl := Option.some.inj (List.mem_singleton.mp last)
        exact Definition.isBooleanOrDouble_of_read read
    · cases done
  · split at done
    · obtain rfl := Except.ok.inj done
      exact ⟨sound.values, sound.depth⟩
    · cases done
  · split at done
    · rename_i number read
      obtain rfl := Except.ok.inj done
      refine ⟨sound.values, fun limit given => ?_⟩
      obtain rfl := Setting.given.inj given
      exact one_le_of_positive read
    · cases done
    · cases done
  · cases done

/-- A switch that is left without its value defines no variable and gives no depth. -/
theorem Sound.clear (sound : options.Sound) (switch : Switch) : (options.clear switch).Sound := by
  cases switch with
  | define =>
      refine ⟨fun definition member => ?_, sound.depth⟩
      rcases List.mem_append.mp member with before | last
      · exact sound.values definition before
      · cases List.mem_singleton.mp last
  | maxDepth => exact ⟨sound.values, fun limit given => nomatch given⟩
  | _ => exact ⟨sound.values, sound.depth⟩

theorem Sound.attach (sound : options.Sound) {switch : Switch} {short : Bool}
    {attached : List Char} (done : options.attach switch short attached = .ok changed) :
    changed.Sound := by
  rw [Options.attach] at done
  split at done
  · split at done
    · obtain rfl := Except.ok.inj done
      exact sound.clear switch
    · exact sound.assign done
  · split at done
    · obtain ⟨switches, -, all⟩ := Outcome.bind_eq_ok_iff.mp done
      exact sound.setAll all
    · cases done

end Options

/-! ## Words -/

namespace Draft

/-- Plain arguments change no options. -/
theorem options_takeArgument (draft : Draft) (text : List Char) (asGiven : List (List Char)) :
    (draft.takeArgument text asGiven).options = draft.options := by
  rw [takeArgument]
  split
  · rfl
  · rfl

/-- Taking all words of a command line leaves the options sound. -/
theorem sound_takeAll {draft final : Draft} {words : List Word} (sound : draft.options.Sound)
    (taken : draft.takeAll words = .ok final) : final.options.Sound := by
  fun_induction takeAll draft words with
  | case1 draft =>
      obtain rfl := Except.ok.inj taken
      exact sound
  | case2 draft text rest induction =>
      exact induction (draft.options_takeArgument text _ ▸ sound) taken
  | case3 draft text rest _ induction =>
      exact induction (draft.options_takeArgument text _ ▸ sound) taken
  | case4 draft text rest induction =>
      exact induction (draft.options_takeArgument text _ ▸ sound) taken
  | case5 draft rest _ induction => exact induction sound taken
  | case6 draft text rest induction => exact induction sound taken
  | case7 draft kind short attached rest options done induction =>
      exact induction (sound.attach done) taken
  | case8 draft kind short attached rest stop => cases taken
  | case9 draft kind short needed text rest options done induction =>
      exact induction (sound.assign done) taken
  | case10 draft kind short needed text rest stop => cases taken
  | case11 draft kind short rest => cases taken
  | case12 draft kind short rest free options done induction =>
      exact induction (sound.set done) taken
  | case13 draft kind short rest free stop => cases taken

end Draft

/-- A request that is accepted is sound. -/
theorem Request.sound_of_read {arguments : List String} {request : Request}
    (read : Request.read arguments = .ok request) : request.options.Sound := by
  rw [Request.read] at read
  split at read
  · cases read
  · obtain ⟨draft, taken, finished⟩ := Outcome.bind_eq_ok_iff.mp read
    have sound : draft.options.Sound := Draft.sound_takeAll Options.sound_default taken
    rw [Draft.finish] at finished
    split at finished
    · cases finished
    · split at finished
      · obtain rfl := Except.ok.inj finished
        exact sound
      · cases finished

end GeneticProgram.CommandLine
