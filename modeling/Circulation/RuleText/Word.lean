/-!
Contract: the smallest parts of a line of rule text.

Owns:
- the blanks between words, and the characters of words;
- the longest word at the start of a text;
- literals at the start of a text.

Does not own: what words mean, or how they follow one another.
-/

namespace Circulation.RuleText

/-- The characters that may separate the parts of a line. -/
def isBlank (char : Char) : Bool :=
  char == ' ' || char == '\t'

/-- The characters that words consist of: ASCII letters and digits, hyphens, underscores and full
stops. -/
def isWordChar (char : Char) : Bool :=
  char.isAlphanum || char == '-' || char == '_' || char == '.'

def skipBlanks (text : List Char) : List Char :=
  text.dropWhile isBlank

/-- The longest word at the start of a text, and the text after it. -/
def word? (text : List Char) : Option (String × List Char) :=
  match text.takeWhile isWordChar with
  | [] => none
  | chars => some (String.ofList chars, text.dropWhile isWordChar)

def skipLiteral? : List Char → List Char → Option (List Char)
  | [], text => some text
  | _ :: _, [] => none
  | expected :: others, char :: text =>
      if char = expected then skipLiteral? others text else none

theorem skipLiteral?_eq_some_iff {literal text rest : List Char} :
    skipLiteral? literal text = some rest ↔ text = literal ++ rest := by
  induction literal generalizing text with
  | nil => simp [skipLiteral?]
  | cons expected others ih =>
    cases text with
    | nil => simp [skipLiteral?]
    | cons char text =>
      by_cases same : char = expected
      · simp [skipLiteral?, same, ih]
      · simp [skipLiteral?, same]

theorem length_skipBlanks_le (text : List Char) :
    (skipBlanks text).length ≤ text.length :=
  (List.dropWhile_sublist isBlank).length_le

theorem length_lt_of_word? {text rest : List Char} {word : String}
    (found : word? text = some (word, rest)) : rest.length < text.length := by
  have whole : text.takeWhile isWordChar ++ text.dropWhile isWordChar = text :=
    List.takeWhile_append_dropWhile
  have lengths := congrArg List.length whole
  rw [List.length_append] at lengths
  simp only [word?] at found
  split at found
  · simp at found
  · next notEmpty =>
    simp only [Option.some.injEq, Prod.mk.injEq] at found
    have positive := List.length_pos_iff.mpr notEmpty
    rw [← found.2]
    omega

end Circulation.RuleText
