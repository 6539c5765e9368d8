import Circulation.Rule.Draft
import Circulation.RuleText.Grammar
import Circulation.Text.Line

/-!
Contract: the draft that a rule text describes.

Owns:
- the token at which a fault shows;
- the refusal of facets and kinds that a line repeats;
- the reading of a text line by line, each line with its number.

Does not own: the grammar of a line, or the checks of a draft as a whole.
-/

namespace Circulation.RuleText

/-! ## Tokens of faults -/

/-- The token with which a text goes on, past any white space: a word, or else one character. -/
def tokenAt (text : List Char) : String :=
  let start := text.dropWhile Text.isWhiteSpace
  match start.takeWhile isWordChar with
  | [] => String.ofList (start.take 1)
  | chars => String.ofList chars

/-- The spelling of a keyword that a line is taken to use: the long one if that is a piece of the
line between white space and colons, or else the letter. -/
def spellingIn (line : List Char) (keyword : String) (letter : Char) : String :=
  let isBoundary := fun char => Text.isWhiteSpace char || char == ':'
  if (Text.pieces isBoundary line).contains keyword.toList then keyword else letter.toString

/-! ## One line -/

/-- The conditions of a line, unless it constrains a facet again. -/
def collectConditions (number : UInt32) (line : List Char)
    (constraints : List (Facet × Condition)) : Except ParseError Conditions :=
  match Conditions.ofConstraints constraints with
  | .ok conditions => .ok conditions
  | .error facet =>
      .error ⟨number, spellingIn line facet.keyword facet.letter, .repeatedFacet facet⟩

/-- The policies of a line, unless it assigns a kind again. -/
def collectPolicies (number : UInt32) (line : List Char)
    (assignments : List (PolicyKind × String)) : Except ParseError PolicyMap :=
  match PolicyMap.ofAssignments assignments with
  | .ok policies => .ok policies
  | .error kind =>
      .error ⟨number, spellingIn line kind.keyword kind.letter, .repeatedKind kind⟩

def parseStatement (number : UInt32) (line : List Char) : Except ParseError Statement :=
  match readStatement line with
  | .ok statement => .ok statement
  | .error stop => .error ⟨number, tokenAt stop.rest, stop.fault⟩

/-- What a statement writes down. The fallbacks of a line are in kind order. -/
def draftOfStatement (number : UInt32) (line : List Char) :
    Statement → Except ParseError RuleDraft
  | .fallback assignments => do
      let policies ← collectPolicies number line assignments
      return { fallbacks := policies.entries.map fun (kind, id) => ⟨number, kind, id⟩ }
  | .rule constraints assignments => do
      let conditions ← collectConditions number line constraints
      let policies ← collectPolicies number line assignments
      return { lines := [.scored number conditions policies] }

/-- What a physical line writes down: nothing if it is blank without its comment. -/
def draftOfLine (number : UInt32) (physicalLine : List Char) : Except ParseError RuleDraft :=
  let line := Text.stripComment physicalLine
  if Text.isBlankLine line then .ok .empty
  else do
    let statement ← parseStatement number line
    draftOfStatement number line statement

/-! ## Whole texts -/

/-- What lines write down, the first of them with a number. The first faulty line is reported. -/
def draftOfLines (number : Nat) : List (List Char) → Except ParseError RuleDraft
  | [] => .ok .empty
  | line :: rest => do
      let first ← draftOfLine (UInt32.ofNat number) line
      let others ← draftOfLines (number + 1) rest
      return first ++ others

/-- The draft that a rule text describes; its lines are numbered from 1. -/
def parse (text : String) : Except ParseError RuleDraft :=
  draftOfLines 1 (Text.physicalLines text.toList)

end Circulation.RuleText
