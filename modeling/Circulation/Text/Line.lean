import Circulation.Text.WhiteSpace

/-!
Contract: the physical lines of a text and what of them is content.

Owns:
- the division of a text into lines, with either line ending;
- the removal of comments;
- the pieces of a line between boundaries.

Does not own: what the content of a line means.
-/

namespace Circulation.Text

/-- The lines of a text without their endings. A line ends at a line feed, which takes one carriage
return directly before it along; what follows the last line feed is a line unless it is empty. -/
def physicalLines : List Char → List (List Char)
  | [] => []
  | '\n' :: rest => [] :: physicalLines rest
  | '\r' :: '\n' :: rest => [] :: physicalLines rest
  | char :: rest =>
      match physicalLines rest with
      | [] => [[char]]
      | line :: lines => (char :: line) :: lines

/-- A line without the carriage return that its line feed takes along. -/
def withoutReturn (line : List Char) : List Char :=
  if line.getLast? = some '\r' then line.dropLast else line

/-- The first line of a text is what its first line feed ends. -/
theorem physicalLines_append_lineFeed {line : List Char} (rest : List Char)
    (noLineFeed : '\n' ∉ line) :
    physicalLines (line ++ '\n' :: rest) = withoutReturn line :: physicalLines rest := by
  induction line with
  | nil => rfl
  | cons char line ih =>
    rw [List.mem_cons, not_or] at noLineFeed
    cases line with
    | nil =>
      by_cases isReturn : char = '\r'
      · subst isReturn
        rfl
      · rw [List.singleton_append, physicalLines, physicalLines]
        · simp [withoutReturn, isReturn]
        · rintro rfl
          exact noLineFeed.1 rfl
        · rintro _ same
          exact absurd same isReturn
    | cons next line =>
      have others := ih noLineFeed.2
      rw [List.mem_cons, not_or] at noLineFeed
      rw [List.cons_append, physicalLines, others]
      · simp only [withoutReturn, List.getLast?_cons_cons]
        split <;> simp
      · rintro rfl
        exact noLineFeed.1 rfl
      · rintro _ _ same
        rw [List.cons_append, List.cons.injEq] at same
        exact noLineFeed.2.1 same.1.symm

/-- A text that no line feed divides is one line, unless it is empty. -/
theorem physicalLines_of_not_mem {line : List Char} (nonempty : line ≠ [])
    (noLineFeed : '\n' ∉ line) : physicalLines line = [line] := by
  induction line with
  | nil => exact absurd rfl nonempty
  | cons char line ih =>
    rw [List.mem_cons, not_or] at noLineFeed
    have others : physicalLines line = if line = [] then [] else [line] := by
      split
      · next isEmpty => rw [isEmpty, physicalLines]
      · next visible => exact ih visible noLineFeed.2
    rw [physicalLines, others]
    · cases line <;> rfl
    · rintro rfl
      exact noLineFeed.1 rfl
    · rintro rest _ rfl
      exact noLineFeed.2 List.mem_cons_self

theorem withoutReturn_eq_self {line : List Char} (noReturn : '\r' ∉ line) :
    withoutReturn line = line :=
  if_neg fun ends => noReturn (List.mem_of_getLast? ends)

/-- A line up to the first `#` or `//`. -/
def stripComment : List Char → List Char
  | [] => []
  | '#' :: _ => []
  | '/' :: '/' :: _ => []
  | char :: rest => char :: stripComment rest

theorem stripComment_eq_self {line : List Char} (noHash : '#' ∉ line) (noSlash : '/' ∉ line) :
    stripComment line = line := by
  induction line with
  | nil => rfl
  | cons char line ih =>
    rw [List.mem_cons, not_or] at noHash noSlash
    rw [stripComment, ih noHash.2 noSlash.2]
    · rintro rfl
      exact noHash.1 rfl
    · rintro _ rfl
      exact absurd rfl noSlash.1

/-- Whether a line is empty or white space throughout. -/
def isBlankLine (line : List Char) : Bool :=
  line.all isWhiteSpace

def pieces (isBoundary : Char → Bool) : List Char → List (List Char)
  | [] => [[]]
  | char :: rest =>
      if isBoundary char then [] :: pieces isBoundary rest
      else
        match pieces isBoundary rest with
        | [] => [[char]]
        | piece :: others => (char :: piece) :: others

end Circulation.Text
