import Circulation.Rule.Draft

/-!
Contract: checked rule sets.

Owns:
- the checks that fallbacks and lines pass together, their order and the wording of their errors;
- the order in which the lines of a kind are tried;
- `RuleSet`, its lookup by line number and its summary.

Does not own: matching queries, or the stored form of a rule set.
-/

namespace Circulation

/-! ## Checks -/

inductive CompileError where
  | missingDefault (kind : PolicyKind) (line : UInt32)
  | duplicateDefault (kind : PolicyKind) (line : UInt32)
  | noAssignments (line : UInt32)
deriving DecidableEq, Repr

namespace CompileError

def message : CompileError → String
  | missingDefault kind line =>
      s!"line {line}: {kind.keyword} policy assigned but no fallback-policy declared for it"
  | duplicateDefault kind line =>
      s!"line {line}: fallback-policy for {kind.keyword} already declared"
  | noAssignments line => s!"line {line}: rule line assigns no policy"

end CompileError

/-- The policy of each kind that some fallback declares; no kind may be declared twice. -/
def collectDefaults (fallbacks : List Fallback) : Except CompileError PolicyMap :=
  fallbacks.foldlM (fun defaults fallback =>
    if defaults.contains fallback.kind then
      .error (.duplicateDefault fallback.kind fallback.line)
    else .ok (defaults.insert fallback.kind fallback.policyId)) PolicyMap.empty

namespace RuleLine

/-- The line assigns something, and only kinds that have a default. -/
def check (defaults : PolicyMap) (line : RuleLine) : Except CompileError Unit :=
  if line.policies.isEmpty then .error (.noAssignments line.number)
  else
    match line.policies.kinds.find? fun kind => !defaults.contains kind with
    | some kind => .error (.missingDefault kind line.number)
    | none => .ok ()

end RuleLine

/-- Every line passes its check; the first that does not is reported. -/
def checkLines (defaults : PolicyMap) : List RuleLine → Except CompileError Unit
  | [] => .ok ()
  | line :: rest => do
      line.check defaults
      checkLines defaults rest

/-! ## Ranking -/

/-- The positions of the lines that assign `kind`, in the order in which they are tried. -/
def ranking (lines : List RuleLine) (kind : PolicyKind) : List Nat :=
  let assigning := lines.zipIdx.filter fun entry => entry.1.policies.contains kind
  (assigning.mergeSort fun entry other => entry.1.precedes other.1).map Prod.snd

/-! ## Rule sets -/

/-- Rule lines in the order they were written, the default policies, and for each kind the positions
of the lines that assign it in the order in which they are tried. -/
structure RuleSet where
  lines : Array RuleLine
  defaults : PolicyMap
  ranked : PerKind (List Nat)
deriving DecidableEq, Repr

namespace RuleSet

def ofLines (lines : List RuleLine) (defaults : PolicyMap) : RuleSet where
  lines := lines.toArray
  defaults := defaults
  ranked := .ofFn (ranking lines)

/-- The rule set that a draft describes. Repeated fallbacks are found before faulty lines. -/
def compile (draft : RuleDraft) : Except CompileError RuleSet := do
  let defaults ← collectDefaults draft.fallbacks
  checkLines defaults draft.lines
  return ofLines draft.lines defaults

def size (rules : RuleSet) : Nat :=
  rules.lines.size

def isEmpty (rules : RuleSet) : Bool :=
  rules.lines.isEmpty

/-- The lines that assign a kind, in the order in which they are tried. -/
def rankedLines (rules : RuleSet) (kind : PolicyKind) : List RuleLine :=
  (rules.ranked.get kind).filterMap fun position => rules.lines[position]?

/-- The line with a number among those at positions from `low` up to, and without, `high`,
found by halving. -/
def lineBetween? (rules : RuleSet) (number : UInt32) (low high : Nat)
    (inBounds : high ≤ rules.lines.size) : Option RuleLine :=
  if nonempty : low < high then
    let middle := low + (high - low) / 2
    have : middle < rules.lines.size := by omega
    let line := rules.lines[middle]
    if line.number = number then some line
    else if line.number < number then lineBetween? rules number (middle + 1) high inBounds
    else lineBetween? rules number low middle (by omega)
  else none
termination_by high - low

def line? (rules : RuleSet) (number : UInt32) : Option RuleLine :=
  rules.lineBetween? number 0 rules.lines.size (Nat.le_refl _)

def render (rules : RuleSet) : String :=
  s!"CompiledRuleSet({rules.size} lines, fallback: {rules.defaults.render})"

end RuleSet

end Circulation
