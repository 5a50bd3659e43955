import GeneticProgram.Proofs.Trimming
import GeneticProgram.Source.Parenthesis
import Mathlib.Data.List.Basic

/-!
# Balanced texts

The nesting depth of a text is counted character by character, and the count breaks off at a
parenthesis that closes none.  A text is balanced when the count goes through and ends at zero.  The
two ways of finding the end of an argument list are described by this count: one cuts behind the
first balanced part, the other at the last closing parenthesis whatever stands before it.
-/

namespace GeneticProgram.Source

/-- The number of open parentheses after one more character; nothing if it closes none of them. -/
def nest (depth : Nat) (character : Char) : Option Nat :=
  if character = '(' then some (depth + 1)
  else if character = ')' then
    if depth = 0 then none else some (depth - 1)
  else some depth

/-- The number of open parentheses after a text. -/
def depthAfter (depth : Nat) (text : List Char) : Option Nat := text.foldlM nest depth

/-- Every closing parenthesis closes an open one, and none stays open. -/
def Balanced (text : List Char) : Prop := depthAfter 0 text = some 0

instance (text : List Char) : Decidable (Balanced text) :=
  inferInstanceAs (Decidable (depthAfter 0 text = some 0))

/-- A character that is no parenthesis. -/
def isPlain (character : Char) : Bool := character != '(' && character != ')'

@[simp] theorem nest_opening (depth : Nat) : nest depth '(' = some (depth + 1) := by
  simp [nest]

@[simp] theorem nest_closing_zero : nest 0 ')' = none := by
  simp [nest]

@[simp] theorem nest_closing_succ (depth : Nat) : nest (depth + 1) ')' = some depth := by
  simp [nest]

theorem nest_plain {character : Char} (plain : isPlain character = true) (depth : Nat) :
    nest depth character = some depth := by
  obtain ⟨not_opening, not_closing⟩ : character ≠ '(' ∧ character ≠ ')' := by
    simpa [isPlain] using plain
  simp [nest, not_opening, not_closing]

@[simp] theorem depthAfter_nil (depth : Nat) : depthAfter depth [] = some depth := rfl

theorem depthAfter_cons (depth : Nat) (character : Char) (rest : List Char) :
    depthAfter depth (character :: rest) =
      (nest depth character).bind fun middle => depthAfter middle rest := rfl

theorem depthAfter_append (depth : Nat) (left right : List Char) :
    depthAfter depth (left ++ right) =
      (depthAfter depth left).bind fun middle => depthAfter middle right :=
  List.foldlM_append

/-- A text whose depth is counted is counted in each of its pieces. -/
theorem depthAfter_append_eq_some {depth final : Nat} {left right : List Char}
    (counted : depthAfter depth (left ++ right) = some final) :
    ∃ middle, depthAfter depth left = some middle ∧ depthAfter middle right = some final := by
  rw [depthAfter_append] at counted
  exact Option.bind_eq_some_iff.mp counted

theorem depthAfter_plain {text : List Char} (plain : ∀ character ∈ text, isPlain character = true)
    (depth : Nat) : depthAfter depth text = some depth := by
  induction text with
  | nil => rfl
  | cons character rest induction =>
      rw [depthAfter_cons, nest_plain (plain character List.mem_cons_self)]
      exact induction fun other member => plain other (List.mem_cons_of_mem character member)

/-- What one character can do to the depth. -/
theorem nest_cases {depth final : Nat} {character : Char}
    (counted : nest depth character = some final) :
    (character = '(' ∧ final = depth + 1) ∨ (character = ')' ∧ depth = final + 1) ∨
      (isPlain character = true ∧ final = depth) := by
  by_cases opening : character = '('
  · subst opening
    rw [nest_opening] at counted
    exact .inl ⟨rfl, (Option.some.inj counted).symm⟩
  by_cases closing : character = ')'
  · subst closing
    cases depth with
    | zero => cases counted
    | succ depth =>
        rw [nest_closing_succ] at counted
        exact .inr (.inl ⟨rfl, congrArg (· + 1) (Option.some.inj counted)⟩)
  · have plain : isPlain character = true := by simp [isPlain, opening, closing]
    rw [nest_plain plain] at counted
    exact .inr (.inr ⟨plain, (Option.some.inj counted).symm⟩)

/-- Only a closing parenthesis outside of all others breaks off the count. -/
theorem nest_eq_none {depth : Nat} {character : Char} (broken : nest depth character = none) :
    character = ')' ∧ depth = 0 := by
  by_cases closing : character = ')'
  · subst closing
    cases depth with
    | zero => exact ⟨rfl, rfl⟩
    | succ depth => cases broken
  by_cases opening : character = '('
  · subst opening
    cases broken
  · rw [nest_plain (by simp [isPlain, opening, closing])] at broken
    cases broken

theorem nest_add {depth final : Nat} {character : Char} (extra : Nat)
    (counted : nest depth character = some final) :
    nest (depth + extra) character = some (final + extra) := by
  rcases nest_cases counted with ⟨rfl, rfl⟩ | ⟨rfl, rfl⟩ | ⟨plain, rfl⟩
  · rw [nest_opening, Nat.add_right_comm]
  · rw [Nat.add_right_comm, nest_closing_succ]
  · exact nest_plain plain _

/-- Parentheses that are open around a text stay open throughout it. -/
theorem depthAfter_add {depth final : Nat} {text : List Char} (extra : Nat)
    (counted : depthAfter depth text = some final) :
    depthAfter (depth + extra) text = some (final + extra) := by
  induction text generalizing depth with
  | nil =>
      obtain rfl := Option.some.inj counted
      rfl
  | cons character rest induction =>
      rw [depthAfter_cons] at counted ⊢
      obtain ⟨middle, step, counted_rest⟩ := Option.bind_eq_some_iff.mp counted
      rw [nest_add extra step]
      exact induction counted_rest

theorem Balanced.depthAfter {text : List Char} (balanced : Balanced text) (depth : Nat) :
    depthAfter depth text = some depth := by
  have lifted := depthAfter_add depth balanced
  simpa using lifted

theorem Balanced.append {left right : List Char} (left_balanced : Balanced left)
    (right_balanced : Balanced right) : Balanced (left ++ right) := by
  rw [Balanced]
  rw [depthAfter_append, left_balanced]
  exact right_balanced

/-- A text that opens no parenthesis can close none. -/
theorem isPlain_of_depthAfter {text : List Char} {final : Nat} (unopened : '(' ∉ text)
    (counted : depthAfter 0 text = some final) : ∀ character ∈ text, isPlain character = true := by
  induction text with
  | nil => simp
  | cons character rest induction =>
      rw [depthAfter_cons] at counted
      obtain ⟨middle, step, counted⟩ := Option.bind_eq_some_iff.mp counted
      rcases nest_cases step with ⟨rfl, -⟩ | ⟨-, impossible⟩ | ⟨plain, rfl⟩
      · exact absurd List.mem_cons_self unopened
      · cases impossible
      · refine List.forall_mem_cons.mpr ⟨plain, induction ?_ counted⟩
        exact fun opened => unopened (List.mem_cons_of_mem character opened)

theorem balanced_plain {text : List Char}
    (plain : ∀ character ∈ text, isPlain character = true) : Balanced text :=
  depthAfter_plain plain 0

theorem Balanced.enclose {text : List Char} (balanced : Balanced text) :
    Balanced ('(' :: text ++ [')']) := by
  rw [Balanced]
  rw [List.cons_append, depthAfter_cons, nest_opening, Option.bind_some, depthAfter_append,
    balanced.depthAfter]
  rfl

theorem isPlain_of_isBlank {character : Char} (blank : Text.isBlank character = true) :
    isPlain character = true := by
  have not_opening : character ≠ '(' := by
    rintro rfl
    exact absurd blank (by decide)
  have not_closing : character ≠ ')' := by
    rintro rfl
    exact absurd blank (by decide)
  simp [isPlain, not_opening, not_closing]

/-- White space around a text does not matter for its balance. -/
theorem balanced_trim_iff {text : List Char} : Balanced (Text.trim text) ↔ Balanced text := by
  obtain ⟨front, back, pieces, front_blank, back_blank⟩ :=
    Text.eq_margins_trimWhere Text.isBlank text
  have front_plain := fun character member => isPlain_of_isBlank (front_blank character member)
  have back_plain := fun character member => isPlain_of_isBlank (back_blank character member)
  have same : depthAfter 0 text = depthAfter 0 (Text.trim text) := by
    conv_lhs => rw [pieces]
    rw [depthAfter_append, depthAfter_append, depthAfter_plain front_plain, Option.bind_some]
    simp only [depthAfter_plain back_plain, Option.bind_fun_some]
    rfl
  unfold Balanced
  rw [same]

section Closing

theorem cutAtClosing_opening (depth : Int) (rest : List Char) :
    cutAtClosing depth ('(' :: rest) =
      (cutAtClosing (depth + 1) rest).map fun cut => ('(' :: cut.1, cut.2) := by
  rw [cutAtClosing]

theorem cutAtClosing_closing_one (rest : List Char) :
    cutAtClosing 1 (')' :: rest) = some ([], rest) := by
  rw [cutAtClosing, if_pos rfl]

theorem cutAtClosing_closing {depth : Int} (deeper : depth ≠ 1) (rest : List Char) :
    cutAtClosing depth (')' :: rest) =
      (cutAtClosing (depth - 1) rest).map fun cut => (')' :: cut.1, cut.2) := by
  rw [cutAtClosing, if_neg deeper]

theorem cutAtClosing_plain {character : Char} (plain : isPlain character = true) (depth : Int)
    (rest : List Char) :
    cutAtClosing depth (character :: rest) =
      (cutAtClosing depth rest).map fun cut => (character :: cut.1, cut.2) := by
  obtain ⟨not_opening, not_closing⟩ : character ≠ '(' ∧ character ≠ ')' := by
    simpa [isPlain] using plain
  rw [cutAtClosing]
  · exact fun equal => not_opening equal
  · exact fun equal => not_closing equal

/-- A balanced continuation of the open parentheses is cut at the parenthesis behind it. -/
theorem cutAtClosing_append {depth : Nat} {body : List Char} (tail : List Char)
    (counted : depthAfter depth body = some 0) :
    cutAtClosing (depth + 1 : Nat) (body ++ ')' :: tail) = some (body, tail) := by
  induction body generalizing depth with
  | nil =>
      obtain rfl := Option.some.inj counted
      exact cutAtClosing_closing_one tail
  | cons character rest induction =>
      rw [depthAfter_cons] at counted
      obtain ⟨middle, step, counted_rest⟩ := Option.bind_eq_some_iff.mp counted
      have cut_rest := induction counted_rest
      rw [List.cons_append]
      rcases nest_cases step with ⟨rfl, rfl⟩ | ⟨rfl, rfl⟩ | ⟨plain, rfl⟩
      · rw [cutAtClosing_opening,
          show ((depth + 1 : Nat) : Int) + 1 = (depth + 1 + 1 : Nat) by simp, cut_rest]
        rfl
      · rw [cutAtClosing_closing (by omega),
          show ((middle + 1 + 1 : Nat) : Int) - 1 = (middle + 1 : Nat) by simp, cut_rest]
        rfl
      · rw [cutAtClosing_plain plain, cut_rest]
        rfl

/-- What stands before the cut closes all but one of the open parentheses. -/
theorem of_cutAtClosing (depth : Nat) {text body tail : List Char}
    (cut : cutAtClosing (depth + 1 : Nat) text = some (body, tail)) :
    text = body ++ ')' :: tail ∧ depthAfter depth body = some 0 := by
  induction text generalizing depth body with
  | nil => cases cut
  | cons character rest induction =>
      -- One character either is the cut or joins the body of the cut behind it.
      have joined : ∀ next : Nat, nest depth character = some next →
          (cutAtClosing (next + 1 : Nat) rest).map (fun cut => (character :: cut.1, cut.2)) =
            some (body, tail) →
          character :: rest = body ++ ')' :: tail ∧ depthAfter depth body = some 0 := by
        intro next step found
        obtain ⟨⟨inner, others⟩, cut_rest, equal⟩ := Option.map_eq_some_iff.mp found
        obtain ⟨rfl, rfl⟩ := Prod.mk.inj equal
        obtain ⟨rest_eq, counted⟩ := induction next cut_rest
        refine ⟨by rw [rest_eq]; rfl, ?_⟩
        rw [depthAfter_cons, step]
        exact counted
      by_cases opening : character = '('
      · subst opening
        rw [cutAtClosing_opening] at cut
        exact joined (depth + 1) (nest_opening depth) cut
      by_cases closing : character = ')'
      · subst closing
        cases depth with
        | zero =>
            rw [show ((0 + 1 : Nat) : Int) = 1 from rfl, cutAtClosing_closing_one] at cut
            obtain ⟨rfl, rfl⟩ := Prod.mk.inj (Option.some.inj cut)
            exact ⟨rfl, rfl⟩
        | succ depth =>
            rw [cutAtClosing_closing (by omega)] at cut
            refine joined depth (nest_closing_succ depth) ?_
            simpa using cut
      · have plain : isPlain character = true := by simp [isPlain, opening, closing]
        rw [cutAtClosing_plain plain] at cut
        exact joined depth (nest_plain plain depth) cut

/-- The matching parenthesis of an argument list is the one behind a balanced text. -/
theorem cutAtClosing_one_iff {text body tail : List Char} :
    cutAtClosing 1 text = some (body, tail) ↔ text = body ++ ')' :: tail ∧ Balanced body := by
  constructor
  · intro cut
    exact of_cutAtClosing 0 (by simpa using cut)
  · rintro ⟨rfl, balanced⟩
    have cut := cutAtClosing_append tail balanced
    simpa using cut

theorem beforeLastClosing_eq_none_iff {text : List Char} :
    beforeLastClosing text = none ↔ ')' ∉ text := by
  induction text with
  | nil => simp [beforeLastClosing]
  | cons character rest induction =>
      rw [beforeLastClosing, List.mem_cons, not_or, ← induction]
      cases beforeLastClosing rest with
      | some body => simp
      | none => simp [eq_comm]

theorem beforeLastClosing_append (body : List Char) {tail : List Char} (last : ')' ∉ tail) :
    beforeLastClosing (body ++ ')' :: tail) = some body := by
  induction body with
  | nil => simp [beforeLastClosing, beforeLastClosing_eq_none_iff.mpr last]
  | cons character rest induction => simp [beforeLastClosing, induction]

/-- The last closing parenthesis is the one behind which no other follows. -/
theorem beforeLastClosing_eq_some_iff {text body : List Char} :
    beforeLastClosing text = some body ↔ ∃ tail, text = body ++ ')' :: tail ∧ ')' ∉ tail := by
  constructor
  · intro found
    fun_induction beforeLastClosing text generalizing body with
    | case1 => cases found
    | case2 character rest inner found_inner induction =>
        obtain rfl := Option.some.inj found
        obtain ⟨tail, rest_eq, last⟩ := induction found_inner
        exact ⟨tail, by rw [rest_eq]; rfl, last⟩
    | case3 rest missing _ =>
        obtain rfl := Option.some.inj found
        exact ⟨rest, rfl, beforeLastClosing_eq_none_iff.mp missing⟩
    | case4 => cases found
  · rintro ⟨tail, rfl, last⟩
    exact beforeLastClosing_append body last

end Closing

end GeneticProgram.Source
