import Circulation.Cache.Payload

/-!
Contract: the rule set whose stored form a payload is.

Owns:
- the checks of a payload and their order;
- the faults of a payload and their wording.

Does not own: the checks that a rule set passes when it is first made.
-/

namespace Circulation.Cache

/-! ## Faults -/

/-- Why a payload is the stored form of no rule set. -/
inductive PayloadFault where
  | lineCountMismatch (stated found : Nat)
  /-- A line, or line 0 for the defaults, assigns a kind a second time. -/
  | repeatedKind (line : UInt32) (kind : PolicyKind)
  | reservedNumber
  /-- A line has a number that is not greater than that of the line before. -/
  | unorderedNumber (line previous : UInt32)
  | conditionCount (line : UInt32) (found : Nat)
  /-- A line assigns nothing, or a kind without default. -/
  | uncompilable (error : CompileError)
  | rankingCount (found : Nat)
  /-- A ranking names a position at which no line stands. -/
  | rankingOutOfRange (kind : PolicyKind) (position lineCount : Nat)
  /-- A ranking is not the order in which the lines of its kind are tried. -/
  | rankingOutOfOrder (kind : PolicyKind)
deriving DecidableEq, Repr

namespace PayloadFault

def message : PayloadFault → String
  | lineCountMismatch stated found =>
      s!"metadata says {stated} lines but payload has {found}"
  | repeatedKind line kind => s!"line {line} assigns {kind.keyword} policy twice"
  | reservedNumber => "line number 0 is reserved for the fallback"
  | unorderedNumber line previous =>
      s!"line {line} follows line {previous}: line numbers must strictly increase"
  | conditionCount line found =>
      s!"line {line} carries {found} conditions, expected {Facet.all.length}"
  | uncompilable error => error.message
  | rankingCount found =>
      s!"payload has {found} kind rankings, expected {PolicyKind.all.length}"
  | rankingOutOfRange kind position lineCount =>
      s!"{kind.keyword} ranking references index {position} but only {lineCount} lines exist"
  | rankingOutOfOrder kind =>
      s!"{kind.keyword} ranking is not sorted by specificity and line number"

end PayloadFault

/-! ## Restoring rule sets -/

namespace Payload

/-- The policies of stored assignments; the line is named if they repeat a kind. -/
def restorePolicies (line : UInt32) (assignments : List (PolicyKind × String)) :
    Except PayloadFault PolicyMap :=
  (PolicyMap.ofAssignments assignments).mapError (.repeatedKind line)

/-- The conditions of a line, if there is one for each facet. -/
def restoreConditions (line : UInt32) (conditions : List StoredCondition) :
    Except PayloadFault Conditions :=
  match Conditions.ofList? (conditions.map StoredCondition.toCondition) with
  | some restored => .ok restored
  | none => .error (.conditionCount line conditions.length)

/-- A line number other than 0 and, if there is a line before, greater than its number. -/
def checkNumber (previous : Option UInt32) (number : UInt32) : Except PayloadFault Unit :=
  if number = 0 then .error .reservedNumber
  else
    match previous.filter fun before => number ≤ before with
    | some before => .error (.unorderedNumber number before)
    | none => .ok ()

/-- One rule line, given the number of the line before it. -/
def restoreLine (previous : Option UInt32) (stored : StoredLine) :
    Except PayloadFault RuleLine := do
  checkNumber previous stored.number
  let conditions ← restoreConditions stored.number stored.conditions
  let policies ← restorePolicies stored.number stored.policies
  return .scored stored.number conditions policies

/-- Rule lines in order, given the number of the line before the first. -/
def restoreLines (previous : Option UInt32) :
    List StoredLine → Except PayloadFault (List RuleLine)
  | [] => .ok []
  | stored :: rest => do
      let line ← restoreLine previous stored
      let lines ← restoreLines (some line.number) rest
      return line :: lines

/-- The ranking of a kind names positions of lines only, in the order in which they are tried. -/
def checkRanking (lines : List RuleLine) (kind : PolicyKind) (stored : List Nat) :
    Except PayloadFault Unit :=
  match stored.find? fun position => lines.length ≤ position with
  | some position => .error (.rankingOutOfRange kind position lines.length)
  | none =>
      if stored = ranking lines kind then .ok ()
      else .error (.rankingOutOfOrder kind)

def restoreRankings (lines : List RuleLine) (stored : List (List Nat)) :
    Except PayloadFault (PerKind (List Nat)) :=
  match PerKind.ofList? stored with
  | none => .error (.rankingCount stored.length)
  | some rankings => do
      checkRanking lines .loan rankings.loan
      checkRanking lines .request rankings.request
      checkRanking lines .notice rankings.notice
      return rankings

/-- The rule set whose stored form this is. -/
def toRuleSet (payload : Payload) : Except PayloadFault RuleSet := do
  if payload.lineCount ≠ payload.lines.length then
    .error (.lineCountMismatch payload.lineCount payload.lines.length)
  let defaults ← restorePolicies 0 payload.defaults
  let lines ← restoreLines none payload.lines
  (checkLines defaults lines).mapError .uncompilable
  let ranked ← restoreRankings lines payload.rankings
  return ⟨lines.toArray, defaults, ranked⟩

end Payload

end Circulation.Cache
