/-!
Contract: the answers of a resolution.

Owns:
- `Match`, a policy and the rule line that chose it;
- `MatchList`, the matches of a query in order, and its written form.

Does not own: how matches are found.
-/

namespace Circulation

/-! ## One match -/

/-- A policy and the number and specificity of the rule line that chose it.
Line 0 stands for the fallback policy. -/
structure Match where
  policyId : String
  line : UInt32
  specificity : UInt8
deriving DecidableEq, Repr

namespace Match

def fallback (policyId : String) : Match :=
  ⟨policyId, 0, 0⟩

def isFallback (found : Match) : Bool :=
  found.line == 0

def render (found : Match) : String :=
  if found.isFallback then s!"{found.policyId} (fallback)"
  else s!"{found.policyId} (line {found.line}, specificity {found.specificity})"

end Match

/-! ## Lists of matches -/

/-- The matches of a query, the best one first. -/
structure MatchList where
  entries : List Match
deriving DecidableEq, Repr

namespace MatchList

def best? (found : MatchList) : Option Match :=
  found.entries.head?

def policyIds (found : MatchList) : List String :=
  found.entries.map Match.policyId

def render (found : MatchList) : String :=
  "\n".intercalate (found.entries.zipIdx.map fun (entry, index) =>
    s!"{index + 1}. " ++ entry.render)

end MatchList

end Circulation
