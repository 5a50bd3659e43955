import GeneticProgram.Text.Blank
import Mathlib.Data.List.TakeWhile

/-!
# Trimmed texts

A text with some characters removed from its ends is the text between two margins of such
characters, and the removal stops at the first character that stays.  A text whose ends both stay is
therefore its own trimmed text.
-/

namespace GeneticProgram.Text

/-- What each of some listed characters passes holds of all of them.  The check runs over the list,
where one of the statement itself may run over all characters that there are. -/
theorem forall_mem_of_all {characters : List Char} {property : Char → Prop}
    [DecidablePred property]
    (checked : (characters.all fun character => decide (property character)) = true) :
    ∀ character ∈ characters, property character :=
  fun character member => of_decide_eq_true (List.all_eq_true.mp checked character member)

/-- A text whose first and last characters are not removed by trimming. -/
structure Trimmed (drops : Char → Bool) (text : List Char) : Prop where
  /-- The first character stays. -/
  first : ∀ character ∈ text.head?, drops character = false
  /-- The last character stays. -/
  last : ∀ character ∈ text.getLast?, drops character = false

theorem dropWhile_eq_self_of_head {drops : Char → Bool} {text : List Char}
    (first : ∀ character ∈ text.head?, drops character = false) :
    text.dropWhile drops = text := by
  cases text with
  | nil => rfl
  | cons character rest =>
      have stays : drops character = false := first character (by simp)
      simp [stays]

theorem head_dropWhile (drops : Char → Bool) (text : List Char) :
    ∀ character ∈ (text.dropWhile drops).head?, drops character = false := by
  intro character member
  have stays := List.head?_dropWhile_not drops text
  rw [Option.mem_def.mp member] at stays
  simpa using stays

theorem trimWhere_eq_self {drops : Char → Bool} {text : List Char}
    (trimmed : Trimmed drops text) : trimWhere drops text = text := by
  rw [trimWhere]
  rw [dropWhile_eq_self_of_head trimmed.first]
  rw [dropWhile_eq_self_of_head]
  · exact List.reverse_reverse text
  · simpa using trimmed.last

theorem trimWhere_eq_self_of_forall {drops : Char → Bool} {text : List Char}
    (stays : ∀ character ∈ text, drops character = false) : trimWhere drops text = text :=
  trimWhere_eq_self
    { first := fun character member => stays character (List.mem_of_head? member)
      last := fun character member => stays character (List.mem_of_getLast? member) }

/-- Margins of removed characters around a text do not matter for it. -/
theorem trimWhere_margins {drops : Char → Bool} {front text back : List Char}
    (trimmed : Trimmed drops text) (nonempty : text ≠ [])
    (front_drops : ∀ character ∈ front, drops character = true)
    (back_drops : ∀ character ∈ back, drops character = true) :
    trimWhere drops (front ++ text ++ back) = text := by
  have begins : ∀ character ∈ (text ++ back).head?, drops character = false := by
    obtain ⟨first, rest, rfl⟩ := List.exists_cons_of_ne_nil nonempty
    exact trimmed.first
  have ends : ∀ character ∈ text.reverse.head?, drops character = false := by
    rw [List.head?_reverse]
    exact trimmed.last
  have reversed_drops : ∀ character ∈ back.reverse, drops character = true :=
    fun character member => back_drops character (List.mem_reverse.mp member)
  rw [trimWhere, List.append_assoc, List.dropWhile_append_of_pos front_drops,
    dropWhile_eq_self_of_head begins, List.reverse_append,
    List.dropWhile_append_of_pos reversed_drops, dropWhile_eq_self_of_head ends,
    List.reverse_reverse]

/-- A text is its trimmed text between two margins of removed characters. -/
theorem eq_margins_trimWhere (drops : Char → Bool) (text : List Char) :
    ∃ front back, text = front ++ trimWhere drops text ++ back ∧
      (∀ character ∈ front, drops character = true) ∧
      ∀ character ∈ back, drops character = true := by
  let inner := text.dropWhile drops
  refine ⟨text.takeWhile drops, (inner.reverse.takeWhile drops).reverse, ?_, ?_, ?_⟩
  · have inner_eq : trimWhere drops text ++ (inner.reverse.takeWhile drops).reverse = inner := by
      rw [trimWhere, ← List.reverse_append, List.takeWhile_append_dropWhile, List.reverse_reverse]
    rw [List.append_assoc, inner_eq, List.takeWhile_append_dropWhile]
  · exact fun character member => List.mem_takeWhile_imp member
  · exact fun character member => List.mem_takeWhile_imp (List.mem_reverse.mp member)

theorem trimmed_trimWhere (drops : Char → Bool) (text : List Char) :
    Trimmed drops (trimWhere drops text) where
  first := by
    -- What is removed from the end of a text leaves its first character in place.
    obtain ⟨back, pieces_reversed⟩ :=
      List.dropWhile_suffix (l := (text.dropWhile drops).reverse) drops
    have pieces : trimWhere drops text ++ back.reverse = text.dropWhile drops := by
      rw [trimWhere, ← List.reverse_append, pieces_reversed, List.reverse_reverse]
    intro character member
    refine head_dropWhile drops text character ?_
    rw [← pieces, List.head?_append, Option.mem_def.mp member]
    rfl
  last := by
    intro character member
    refine head_dropWhile drops (text.dropWhile drops).reverse character ?_
    simpa [trimWhere] using member

theorem trimWhere_eq_nil_iff {drops : Char → Bool} {text : List Char} :
    trimWhere drops text = [] ↔ ∀ character ∈ text, drops character = true := by
  constructor
  · intro empty character member
    obtain ⟨front, back, pieces, front_drops, back_drops⟩ := eq_margins_trimWhere drops text
    rw [pieces, empty] at member
    rcases List.mem_append.mp member with inFront | inBack
    · exact front_drops character (by simpa using inFront)
    · exact back_drops character inBack
  · intro all
    have nothing : text.dropWhile drops = [] := List.dropWhile_eq_nil_iff.mpr all
    simp [trimWhere, nothing]

theorem trim_eq_nil_iff {text : List Char} :
    trim text = [] ↔ ∀ character ∈ text, isBlank character = true :=
  trimWhere_eq_nil_iff

end GeneticProgram.Text
