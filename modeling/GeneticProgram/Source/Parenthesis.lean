/-!
# Closing parentheses

Two ways to find the end of an argument list: at the parenthesis that closes the list, or at the
last closing parenthesis of the text.
-/

namespace GeneticProgram.Source

/-- Cut a text at the parenthesis that closes the given number of open ones, into what stands
before it and what follows it. -/
def cutAtClosing (depth : Int) : List Char → Option (List Char × List Char)
  | [] => none
  | '(' :: rest => (cutAtClosing (depth + 1) rest).map fun (body, tail) => ('(' :: body, tail)
  | ')' :: rest =>
    if depth = 1 then some ([], rest)
    else (cutAtClosing (depth - 1) rest).map fun (body, tail) => (')' :: body, tail)
  | character :: rest =>
    (cutAtClosing depth rest).map fun (body, tail) => (character :: body, tail)

/-- What stands before the last closing parenthesis of a text. -/
def beforeLastClosing : List Char → Option (List Char)
  | [] => none
  | character :: rest =>
    match beforeLastClosing rest with
    | some body => some (character :: body)
    | none => if character = ')' then some [] else none

/-- A position lies before the beginning of a text. -/
structure PositionError where
deriving DecidableEq

/-- The wording of a refused position. -/
def PositionError.message (_ : PositionError) : String := "string index out of range"

/-- The characters met by reading a text from a position on.  A negative position counts from the
end, and reading goes on at the beginning when the end is reached. -/
def readFrom (text : List Char) : Int → Except PositionError (List Char)
  | .ofNat start => .ok (text.drop start)
  | .negSucc predecessor =>
    if predecessor < text.length then .ok (text.drop (text.length - predecessor - 1) ++ text)
    else .error {}

/-- The position of the parenthesis that closes the first one opened from a position on. -/
def closingPosition (text : List Char) (start : Int) : Except PositionError (Option Int) := do
  let characters ← readFrom text start
  pure ((cutAtClosing 0 characters).map fun (body, _) => start + body.length)

theorem length_cutAtClosing {depth : Int} {text body tail : List Char}
    (cut : cutAtClosing depth text = some (body, tail)) :
    body.length + tail.length < text.length := by
  fun_induction cutAtClosing depth text generalizing body tail with
  | case1 => simp at cut
  | case2 depth rest induction =>
    obtain ⟨⟨body', tail'⟩, inner, equal⟩ := Option.map_eq_some_iff.mp cut
    obtain ⟨rfl, rfl⟩ := Prod.mk.injEq .. ▸ equal
    have := induction inner
    simp
    omega
  | case3 rest =>
    obtain ⟨rfl, rfl⟩ := Prod.mk.injEq .. ▸ Option.some.inj cut
    simp
  | case4 depth rest _ induction =>
    obtain ⟨⟨body', tail'⟩, inner, equal⟩ := Option.map_eq_some_iff.mp cut
    obtain ⟨rfl, rfl⟩ := Prod.mk.injEq .. ▸ equal
    have := induction inner
    simp
    omega
  | case5 depth character rest _ _ induction =>
    obtain ⟨⟨body', tail'⟩, inner, equal⟩ := Option.map_eq_some_iff.mp cut
    obtain ⟨rfl, rfl⟩ := Prod.mk.injEq .. ▸ equal
    have := induction inner
    simp
    omega

theorem length_beforeLastClosing {text body : List Char}
    (cut : beforeLastClosing text = some body) : body.length < text.length := by
  fun_induction beforeLastClosing text generalizing body with
  | case1 => simp at cut
  | case2 character rest inner found induction =>
    obtain rfl := Option.some.inj cut
    have := induction found
    simp
    omega
  | case3 rest missing induction =>
    obtain rfl := Option.some.inj cut
    simp
  | case4 => simp at cut

end GeneticProgram.Source
