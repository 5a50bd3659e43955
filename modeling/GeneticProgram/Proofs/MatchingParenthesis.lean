import GeneticProgram.Proofs.ArgumentGrammar

/-!
# Matching parentheses

An opening parenthesis is matched by a closing one behind it when the text between the two is
balanced.  No opening parenthesis has two matches, and the search for the closing position finds the
match or finds that there is none.  The splitter of argument lists counts the depth of its text once
more: character by character its count is the depth of the text, so that between two matching
parentheses it can object to commas only.
-/

namespace GeneticProgram.Source

/-- The parenthesis at a position closes the one that is opened at an earlier position. -/
structure Matches (text : List Char) (start position : Nat) : Prop where
  /-- The match stands behind the opening parenthesis. -/
  behind : start < position
  /-- The match is a closing parenthesis. -/
  closing : text[position]? = some ')'
  /-- What stands between the two is balanced. -/
  balanced : Balanced (text.extract (start + 1) position)

/-- A match ends the balanced text that follows the opening parenthesis. -/
theorem matches_iff {text : List Char} {start position : Nat} :
    Matches text start position ↔
      ∃ body tail, text.drop (start + 1) = body ++ ')' :: tail ∧ Balanced body ∧
        position = start + 1 + body.length := by
  constructor
  · rintro ⟨behind, closing, balanced⟩
    obtain ⟨length, rfl⟩ : ∃ length, position = start + 1 + length :=
      ⟨position - (start + 1), by omega⟩
    let after := text.drop (start + 1)
    have found : after[length]? = some ')' := by rw [List.getElem?_drop, closing]
    obtain ⟨bounded, closing_here⟩ := List.getElem?_eq_some_iff.mp found
    refine ⟨after.take length, after.drop (length + 1), ?_, ?_, ?_⟩
    · rw [← closing_here, List.getElem_cons_drop, List.take_append_drop]
    · rwa [List.extract_eq_take_drop, Nat.add_sub_cancel_left] at balanced
    · rw [List.length_take, Nat.min_eq_left bounded.le]
  · rintro ⟨body, tail, after_eq, balanced, rfl⟩
    refine ⟨by omega, ?_, ?_⟩
    · rw [← List.getElem?_drop, after_eq]
      simp
    · rwa [List.extract_eq_take_drop, Nat.add_sub_cancel_left, after_eq, List.take_left]

/-- From an opening parenthesis on, the search cuts the text behind it. -/
theorem closingPosition_eq {text : List Char} {start : Nat} (opening : text[start]? = some '(') :
    closingPosition text start =
      .ok ((cutAtClosing 1 (text.drop (start + 1))).map fun cut =>
        ((start + 1 + cut.1.length : Nat) : Int)) := by
  obtain ⟨bounded, opening_here⟩ := List.getElem?_eq_some_iff.mp opening
  have read : readFrom text start = .ok ('(' :: text.drop (start + 1)) := by
    rw [← opening_here, List.getElem_cons_drop]
    rfl
  rw [closingPosition, read, Outcome.ok_bind, cutAtClosing_opening, Int.zero_add, Option.map_map]
  refine congrArg (fun cut => Except.ok (Option.map cut _)) (funext fun cut => ?_)
  simp only [Function.comp_apply, List.length_cons]
  omega

/-- The search ends at a position exactly if the match stands there. -/
theorem closingPosition_eq_some_iff {text : List Char} {start : Nat}
    (opening : text[start]? = some '(') {position : Int} :
    closingPosition text start = .ok (some position) ↔
      ∃ place : Nat, position = place ∧ Matches text start place := by
  rw [closingPosition_eq opening, Except.ok.injEq, Option.map_eq_some_iff]
  constructor
  · rintro ⟨⟨body, tail⟩, cut, rfl⟩
    obtain ⟨after_eq, balanced⟩ := cutAtClosing_one_iff.mp cut
    exact ⟨_, rfl, matches_iff.mpr ⟨body, tail, after_eq, balanced, rfl⟩⟩
  · rintro ⟨place, rfl, matched⟩
    obtain ⟨body, tail, after_eq, balanced, rfl⟩ := matches_iff.mp matched
    exact ⟨(body, tail), cutAtClosing_one_iff.mpr ⟨after_eq, balanced⟩, rfl⟩

/-- The search ends without a position exactly if there is no match. -/
theorem closingPosition_eq_none_iff {text : List Char} {start : Nat}
    (opening : text[start]? = some '(') :
    closingPosition text start = .ok none ↔ ¬∃ place, Matches text start place := by
  constructor
  · rintro missing ⟨place, matched⟩
    rw [(closingPosition_eq_some_iff opening).mpr ⟨place, rfl, matched⟩] at missing
    cases missing
  · intro unmatched
    have outcome := closingPosition_eq opening
    cases cut : cutAtClosing 1 (text.drop (start + 1)) with
    | none =>
        rw [cut] at outcome
        exact outcome
    | some found =>
        rw [cut] at outcome
        obtain ⟨place, -, matched⟩ := (closingPosition_eq_some_iff opening).mp outcome
        exact absurd ⟨place, matched⟩ unmatched

/-- An opening parenthesis has at most one match. -/
theorem Matches.unique {text : List Char} {start first second : Nat}
    (one : Matches text start first) (other : Matches text start second) : first = second := by
  obtain ⟨body, tail, after_eq, balanced, rfl⟩ := matches_iff.mp one
  obtain ⟨body_too, tail_too, after_eq_too, balanced_too, rfl⟩ := matches_iff.mp other
  have cut := cutAtClosing_one_iff.mpr ⟨after_eq, balanced⟩
  rw [cutAtClosing_one_iff.mpr ⟨after_eq_too, balanced_too⟩] at cut
  rw [(Prod.mk.inj (Option.some.inj cut)).1]

namespace Splitter

variable {splitter : Splitter} {depth : Nat}

/-- The splitter reads a character to the depth that it leads to, unless a comma is misplaced. -/
theorem read_of_nest {character : Char} (step : nest splitter.depth character = some depth) :
    (∃ next, splitter.read character = .ok next ∧ next.depth = depth) ∨
      splitter.read character = .error .emptyArgument := by
  by_cases separating : isSeparating character = true ∧ splitter.depth = 0
  · obtain ⟨separates, outside⟩ := separating
    have character_cases : character = ' ' ∨ character = ',' := by
      simpa [isSeparating] using separates
    obtain rfl : splitter.depth = depth := by
      rcases character_cases with rfl | rfl <;> exact Option.some.inj step
    have read_eq : splitter.read character = splitter.separate (character = ',') := by
      rcases character_cases with rfl | rfl <;> simp [read, outside]
    rw [read_eq, separate]
    split
    · exact .inl ⟨_, rfl, rfl⟩
    · split
      · exact .inl ⟨_, rfl, rfl⟩
      · split
        · exact .inr rfl
        · exact .inl ⟨_, rfl, rfl⟩
  · have free : splitter.depth = 0 → isSeparating character = false := by
      intro outside
      simpa [outside] using separating
    exact .inl ⟨_, read_extend step free, rfl⟩

/-- The splitter reads a text to the depth that it leads to, unless a comma is misplaced. -/
theorem foldlM_read_of_depthAfter {text : List Char}
    (counted : depthAfter splitter.depth text = some depth) :
    (∃ next, text.foldlM read splitter = .ok next ∧ next.depth = depth) ∨
      text.foldlM read splitter = .error .emptyArgument := by
  induction text generalizing splitter with
  | nil => exact .inl ⟨splitter, rfl, Option.some.inj counted⟩
  | cons character rest induction =>
      rw [depthAfter_cons] at counted
      obtain ⟨middle, step, counted_rest⟩ := Option.bind_eq_some_iff.mp counted
      rw [List.foldlM_cons]
      rcases read_of_nest step with ⟨next, taken, rfl⟩ | refused
      · rw [taken, Outcome.ok_bind]
        exact induction counted_rest
      · rw [refused]
        exact .inr rfl

/-- Outside of all parentheses the splitter finishes, unless it stands behind a comma. -/
theorem finish_of_outside (outside : splitter.depth = 0) :
    (∃ arguments, splitter.finish = .ok arguments) ∨
      splitter.finish = .error .trailingComma := by
  rw [finish, if_neg (not_not_intro outside)]
  split
  · exact .inl ⟨_, rfl⟩
  · split
    · exact .inr rfl
    · exact .inl ⟨_, rfl⟩

end Splitter

/-- A balanced argument list is refused for its commas only. -/
theorem fault_of_balanced {text : List Char} (balanced : Balanced text) {error : ArgumentError}
    (refused : splitArguments text = .error error) :
    error.fault = .emptyArgument ∨ error.fault = .trailingComma := by
  have counted : depthAfter ({} : Splitter).depth (Text.trim text) = some 0 :=
    balanced_trim_iff.mpr balanced
  rw [splitArguments] at refused
  split at refused
  · cases refused
  · rename_i fault failed
    obtain rfl := Except.error.inj refused
    rcases Splitter.foldlM_read_of_depthAfter counted with ⟨next, taken, outside⟩ | misplaced
    · rw [taken, Outcome.ok_bind] at failed
      rcases Splitter.finish_of_outside outside with ⟨arguments, finished⟩ | trailing
      · rw [finished] at failed
        cases failed
      · exact .inr (Except.error.inj (failed.symm.trans trailing))
    · rw [misplaced] at failed
      exact .inl (Except.error.inj failed).symm

/-- From an opening parenthesis the search gives the position of the one match, or no position if
there is no match.  The splitter never finds the parentheses between the two unbalanced. -/
theorem closing_position_is_match (text : List Char) (start : Nat)
    (opening : text[start]? = some '(') :
    (∀ position : Int, closingPosition text start = .ok (some position) ↔
        ∃ place : Nat, position = place ∧ Matches text start place) ∧
      (∀ first second, Matches text start first → Matches text start second → first = second) ∧
      (closingPosition text start = .ok none ↔ ¬∃ place, Matches text start place) ∧
      ∀ place : Nat, closingPosition text start = .ok (some (place : Int)) → ∀ error,
        splitArguments (text.extract (start + 1) place) = .error error →
          error.fault ≠ .unopened ∧ error.fault ≠ .unclosed := by
  refine ⟨fun position => closingPosition_eq_some_iff opening,
    fun first second one other => one.unique other, closingPosition_eq_none_iff opening, ?_⟩
  intro place found error refused
  obtain ⟨same, place_eq, matched⟩ := (closingPosition_eq_some_iff opening).mp found
  obtain rfl := Int.ofNat.inj place_eq
  rcases fault_of_balanced matched.balanced refused with fault | fault <;>
    · rw [fault]
      decide

/-- A call with text behind it, of which the last parenthesis is not the match, and with a comma too
many in its argument list. -/
theorem closing_position_is_match_double_comma :
    let text := "g(a,, (b)) )".toList
    closingPosition text 1 = .ok (some 9) ∧ (∀ place, Matches text 1 place → place = 9) ∧
      closingPosition text 1 ≠ .ok none ∧
      ∃ error, splitArguments (text.extract 2 9) = .error error ∧ error.fault ≠ .unopened ∧
        error.fault ≠ .unclosed := by
  intro text
  have matched : Matches text 1 9 := ⟨by decide, rfl, by decide⟩
  obtain ⟨found, unique, missing, commas⟩ := closing_position_is_match text 1 rfl
  have ends_there : closingPosition text 1 = .ok (some 9) := (found 9).mpr ⟨9, rfl, matched⟩
  have refused : splitArguments (text.extract 2 9) = .error ⟨.emptyArgument, _⟩ := rfl
  exact ⟨ends_there, fun place other => unique place 9 other matched,
    fun none_found => missing.mp none_found ⟨9, matched⟩, _, refused, commas 9 ends_there _ refused⟩

end GeneticProgram.Source
