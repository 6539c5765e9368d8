import Circulation.Session.Error

/-!
Contract: what the library reports about its work while it does it.

Owns:
- `Event`, what can be reported, its severity and its wording;
- `Recorded`, work that may fail together with the events it reported;
- the operations of the library in that form, each with its event on success.

Does not own: what the operations compute.
-/

namespace Circulation

/-! ## Events -/

inductive Severity where
  | debug
  | trace
deriving DecidableEq, Repr

inductive Event where
  | compiled (lines : Nat) (fallback : String)
  | hierarchyBuilt (institutions campuses libraries locations : Nat)
  | resolvedOne (kind : PolicyKind) (line : UInt32) (policyId : String)
  | resolvedAll (kind : PolicyKind) (count : Nat)
  | encoded (lines bytes : Nat)
  | decoded (lines : Nat)
deriving DecidableEq, Repr

namespace Event

def severity : Event → Severity
  | resolvedOne .. => .trace
  | resolvedAll .. => .trace
  | _ => .debug

def message : Event → String
  | compiled .. => "compiled circulation rules"
  | hierarchyBuilt .. => "built location hierarchy"
  | resolvedOne .. => "resolved circulation rule"
  | resolvedAll .. => "resolved all circulation rules"
  | encoded .. => "encoded rule set cache"
  | decoded .. => "decoded rule set cache"

def ofRuleSet (rules : RuleSet) : Event :=
  compiled rules.size rules.defaults.render

def ofRecords (records : List LocationRecord) : Event :=
  let levels := LevelRecords.ofRecords records
  hierarchyBuilt levels.institutions.length levels.campuses.length levels.libraries.length
    levels.locations.length

end Event

/-! ## Recorded work -/

/-- How some work ended, and the events it reported, in order. -/
structure Recorded (α : Type) where
  result : Except Error α
  events : List Event

namespace Recorded

variable {α β : Type}

def silent (result : Except Error α) : Recorded α :=
  ⟨result, []⟩

/-- Work that reports an event if it succeeds. -/
def noting (result : Except Error α) (event : α → Event) : Recorded α :=
  match result with
  | .ok value => ⟨.ok value, [event value]⟩
  | .error error => ⟨.error error, []⟩

/-- Work that goes on with the value of other work if that succeeds. -/
protected def bind (first : Recorded α) (next : α → Recorded β) : Recorded β :=
  match first.result with
  | .ok value => ⟨(next value).result, first.events ++ (next value).events⟩
  | .error error => ⟨.error error, first.events⟩

instance : Monad Recorded where
  pure value := silent (.ok value)
  bind := Recorded.bind

@[simp] theorem result_silent (result : Except Error α) : (silent result).result = result :=
  rfl

@[simp] theorem result_noting (result : Except Error α) (event : α → Event) :
    (noting result event).result = result := by
  cases result <;> rfl

@[simp] theorem result_pure (value : α) : (pure value : Recorded α).result = .ok value :=
  rfl

@[simp] theorem result_bind (first : Recorded α) (next : α → Recorded β) :
    (first >>= next).result = first.result >>= fun value => (next value).result := by
  show (Recorded.bind first next).result = _
  unfold Recorded.bind
  cases first.result <;> rfl

/-! ## The operations of the library -/

def compile (draft : RuleDraft) : Recorded RuleSet :=
  noting ((RuleSet.compile draft).mapError .compile) Event.ofRuleSet

def compileText (text : String) : Recorded RuleSet :=
  noting (RuleSet.ofText text) Event.ofRuleSet

def buildHierarchy (records : List LocationRecord) : Recorded Hierarchy :=
  noting ((Hierarchy.build records).mapError .hierarchy) fun _ => Event.ofRecords records

def resolveOne (rules : RuleSet) (hierarchy : Hierarchy) (query : Query) : Recorded Match :=
  noting ((rules.resolveOne hierarchy query).mapError .resolution) fun found =>
    .resolvedOne query.kind found.line found.policyId

def resolveAll (rules : RuleSet) (hierarchy : Hierarchy) (query : Query) : Recorded MatchList :=
  noting ((rules.resolveAll hierarchy query).mapError .resolution) fun found =>
    .resolvedAll query.kind found.entries.length

def encode (rules : RuleSet) (source : Option String) : Recorded (List UInt8) :=
  noting (.ok (Cache.ofRuleSet rules source)) fun blob => .encoded rules.size blob.length

def decode (blob : List UInt8) : Recorded RuleSet :=
  noting ((Cache.toRuleSet blob).mapError .cache) fun rules => .decoded rules.size

/-- Read the digest that a cache holds, without decoding it any further. -/
def sourceDigest (blob : List UInt8) : Recorded (Option Cache.Digest) :=
  silent ((Cache.sourceDigest blob).mapError .cache)

end Recorded

end Circulation
