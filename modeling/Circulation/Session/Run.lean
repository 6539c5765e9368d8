import Circulation.Session.Resolver

/-!
Contract: resolvers kept under names, and runs of steps on them.

Owns:
- `Session`, the resolver of each bound name;
- the steps, what each answers, and that a failing step changes nothing.

Does not own: how a resolver answers.
-/

namespace Circulation

/-! ## Names -/

/-- Resolvers by name; no name is bound twice. -/
structure Session where
  bindings : List (String × Resolver)
  distinct : (bindings.map Prod.fst).Nodup
deriving DecidableEq, Repr

namespace Session

def empty : Session :=
  ⟨[], .nil⟩

/-- The resolver that a name is bound to. -/
def resolver? (session : Session) (name : String) : Option Resolver :=
  session.bindings.lookup name

private theorem sublist_names (bindings : List (String × Resolver)) (name : String) :
    ((bindings.filter fun binding => binding.1 != name).map Prod.fst).Sublist
      (bindings.map Prod.fst) :=
  List.filter_sublist.map Prod.fst

private theorem not_mem_names (bindings : List (String × Resolver)) (name : String) :
    name ∉ (bindings.filter fun binding => binding.1 != name).map Prod.fst := by
  simp

def drop (session : Session) (name : String) : Session where
  bindings := session.bindings.filter fun binding => binding.1 != name
  distinct := session.distinct.sublist (sublist_names session.bindings name)

/-- Bind a name, in place of any binding it had. -/
def bindName (session : Session) (name : String) (resolver : Resolver) : Session where
  bindings := (name, resolver) :: (session.drop name).bindings
  distinct := List.nodup_cons.mpr
    ⟨not_mem_names session.bindings name, (session.drop name).distinct⟩

def names (session : Session) : List String :=
  (session.bindings.map Prod.fst).mergeSort

private theorem lookup_filter_of_ne (bindings : List (String × Resolver)) {name other : String}
    (distinct : other ≠ name) :
    (bindings.filter fun binding => binding.1 != name).lookup other = bindings.lookup other := by
  induction bindings with
  | nil => rfl
  | cons binding rest ih =>
    obtain ⟨bound, resolver⟩ := binding
    by_cases same : bound = name
    · subst same
      have unequal : (other == bound) = false := by simpa using distinct
      simp [ih, List.lookup_cons, unequal]
    · simp [same, List.lookup_cons, ih]

private theorem lookup_filter_self (bindings : List (String × Resolver)) (name : String) :
    (bindings.filter fun binding => binding.1 != name).lookup name = none := by
  induction bindings with
  | nil => rfl
  | cons binding rest ih =>
    obtain ⟨bound, resolver⟩ := binding
    by_cases same : bound = name
    · simp [same, ih]
    · have unequal : (name == bound) = false := by simpa using Ne.symm same
      simp [same, List.lookup_cons, unequal, ih]

@[simp] theorem resolver?_empty (name : String) : empty.resolver? name = none :=
  rfl

@[simp] theorem resolver?_drop_self (session : Session) (name : String) :
    (session.drop name).resolver? name = none :=
  lookup_filter_self session.bindings name

theorem resolver?_drop_of_ne (session : Session) {name other : String} (distinct : other ≠ name) :
    (session.drop name).resolver? other = session.resolver? other :=
  lookup_filter_of_ne session.bindings distinct

@[simp] theorem resolver?_bindName_self (session : Session) (name : String)
    (resolver : Resolver) : (session.bindName name resolver).resolver? name = some resolver := by
  simp [bindName, resolver?]

theorem resolver?_bindName_of_ne (session : Session) {name other : String} (resolver : Resolver)
    (distinct : other ≠ name) :
    (session.bindName name resolver).resolver? other = session.resolver? other := by
  have unequal : (other == name) = false := by simpa using distinct
  rw [resolver?, bindName, List.lookup_cons, unequal]
  exact resolver?_drop_of_ne session distinct

end Session

/-! ## Steps -/

/-- One step of a run. A step that makes a resolver binds it to `target`, whether that name is bound
or not, and leaves the one under `source` as it is. -/
inductive SessionStep where
  | make (target : String) (text : String) (records : List LocationRecord)
  | withRules (source target : String) (text : String)
  | withLocations (source target : String) (records : List LocationRecord)
  | reload (source target : String)
  | drop (name : String)
  | describe (name : String)
  | line (name : String) (number : UInt32)
  | policy (name : String) (query : Query)
  | policies (name : String) (query : Query)
deriving DecidableEq, Repr

inductive Reply where
  | resolver (resolver : Resolver)
  | names (names : List String)
  | line (line : Option RuleLine)
  | policy (policyId : String)
  | policies (found : MatchList)
deriving DecidableEq, Repr

namespace Session

/-- The resolver that a step needs under a name. -/
def require (session : Session) (name : String) : Recorded Resolver :=
  match session.resolver? name with
  | some resolver => .silent (.ok resolver)
  | none => .silent (.error (.noSuchResolver name))

/-- The session with a new resolver under a name, which is also the answer. -/
def keep (session : Session) (target : String) (resolver : Resolver) : Session × Reply :=
  (session.bindName target resolver, .resolver resolver)

/-- What a step makes of a session and what it answers, if it succeeds. -/
def attempt (session : Session) : SessionStep → Recorded (Session × Reply)
  | .make target text records => do
      let resolver ← Resolver.make text records
      return session.keep target resolver
  | .withRules source target text => do
      let resolver ← session.require source
      let rules ← Recorded.compileText text
      return session.keep target (resolver.withRules rules)
  | .withLocations source target records => do
      let resolver ← session.require source
      let locations ← Recorded.buildHierarchy records
      return session.keep target (resolver.withLocations locations)
  | .reload source target => do
      let resolver ← session.require source
      let reloaded ← resolver.reload
      return session.keep target reloaded
  | .drop name => do
      let _ ← session.require name
      return (session.drop name, .names (session.drop name).names)
  | .describe name => do
      let resolver ← session.require name
      return (session, .resolver resolver)
  | .line name number => do
      let resolver ← session.require name
      return (session, .line (resolver.rules.line? number))
  | .policy name query => do
      let resolver ← session.require name
      let policyId ← resolver.policy query
      return (session, .policy policyId)
  | .policies name query => do
      let resolver ← session.require name
      let found ← resolver.policies query
      return (session, .policies found)

/-- Take a step. A step that fails leaves the session as it was. -/
def step (session : Session) (step : SessionStep) : Session × Recorded Reply :=
  let attempted := session.attempt step
  match attempted.result with
  | .ok (next, reply) => (next, ⟨.ok reply, attempted.events⟩)
  | .error error => (session, ⟨.error error, attempted.events⟩)

def run (session : Session) : List SessionStep → Session × List (Recorded Reply)
  | [] => (session, [])
  | step :: rest =>
      let (next, reply) := session.step step
      let (final, replies) := next.run rest
      (final, reply :: replies)

end Session

end Circulation
