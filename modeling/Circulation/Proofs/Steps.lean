import Circulation.Outcome
import Circulation.Session.Run

/-!
Contract: what one step does to a session.

Owns:
- the names that a step needs and changes, and the rule text and records that it supplies;
- the questions that can be put to the resolver under a name, and their answers;
- what a step that binds a name makes, where a step leads, and why one is refused;
- that every step leads there or is refused, and that a refused one changes nothing;
- that answers depend on nothing but the resolver under the name.

Does not own: what several steps do one after another.
-/

namespace Circulation

/-! ## Parts of steps -/

namespace SessionStep

/-- The name of the resolver that the step needs. -/
def source? : SessionStep → Option String
  | make .. => none
  | withRules source _ _ => some source
  | withLocations source _ _ => some source
  | reload source _ => some source
  | drop name => some name
  | describe name => some name
  | line name _ => some name
  | policy name _ => some name
  | policies name _ => some name

/-- The name to which the step binds what it makes. -/
def target? : SessionStep → Option String
  | make target _ _ => some target
  | withRules _ target _ => some target
  | withLocations _ target _ => some target
  | reload _ target => some target
  | _ => none

/-- The name that the step binds or drops. -/
def changed? : SessionStep → Option String
  | drop name => some name
  | step => step.target?

/-- The rule text that the step supplies. -/
def text? : SessionStep → Option String
  | make _ text _ => some text
  | withRules _ _ text => some text
  | _ => none

/-- The location records that the step supplies. -/
def records? : SessionStep → Option (List LocationRecord)
  | make _ _ records => some records
  | withLocations _ _ records => some records
  | _ => none

theorem changed?_of_target? {step : SessionStep} {target : String}
    (named : step.target? = some target) : step.changed? = some target := by
  cases step with
  | drop name => cases named
  | _ => exact named

end SessionStep

/-! ## Questions -/

/-- What can be asked of a resolver: what it is, one of its lines, one policy, or all of them. -/
inductive Question where
  | describe
  | line (number : UInt32)
  | policy (query : Query)
  | policies (query : Query)
deriving DecidableEq, Repr

namespace Question

/-- The step that puts the question to the resolver under a name. -/
def step (name : String) : Question → SessionStep
  | describe => .describe name
  | line number => .line name number
  | policy query => .policy name query
  | policies query => .policies name query

def answer (resolver : Resolver) : Question → Recorded Reply
  | describe => return .resolver resolver
  | line number => return .line (resolver.rules.line? number)
  | policy query => do
      let policyId ← resolver.policy query
      return .policy policyId
  | policies query => do
      let found ← resolver.policies query
      return .policies found

end Question

namespace Session

/-- The answers to all questions about a name. -/
def answers (session : Session) (name : String) (question : Question) : Recorded Reply :=
  (session.step (question.step name)).2

/-! ## What steps make, and why they are refused -/

/-- What a step makes that binds a name. -/
inductive Makes (session : Session) : SessionStep → Resolver → Prop where
  | make (target : String) {text : String} {records : List LocationRecord} {rules : RuleSet}
      {locations : Hierarchy} (read : RuleSet.ofText text = .ok rules)
      (built : Hierarchy.build records = .ok locations) :
      Makes session (.make target text records) ⟨rules, locations⟩
  | withRules {source : String} (target : String) {text : String} {resolver : Resolver}
      {rules : RuleSet} (bound : session.resolver? source = some resolver)
      (read : RuleSet.ofText text = .ok rules) :
      Makes session (.withRules source target text) (resolver.withRules rules)
  | withLocations {source : String} (target : String) {records : List LocationRecord}
      {resolver : Resolver} {locations : Hierarchy}
      (bound : session.resolver? source = some resolver)
      (built : Hierarchy.build records = .ok locations) :
      Makes session (.withLocations source target records) (resolver.withLocations locations)
  | reload {source : String} (target : String) {resolver : Resolver} {rules : RuleSet}
      (bound : session.resolver? source = some resolver)
      (restored : Cache.toRuleSet (Cache.ofRuleSet resolver.rules none) = .ok rules) :
      Makes session (.reload source target) (resolver.withRules rules)

/-- Why a step fails. A name without resolver is reported before a rule text, and that before
location records. -/
inductive Refuses (session : Session) : SessionStep → Error → Prop where
  | unbound {step : SessionStep} {name : String} (needed : step.source? = some name)
      (missing : session.resolver? name = none) : Refuses session step (.noSuchResolver name)
  | text {step : SessionStep} {text : String} {error : Error}
      (bound : ∀ name, step.source? = some name → session.resolver? name ≠ none)
      (supplied : step.text? = some text) (bad : RuleSet.ofText text = .error error) :
      Refuses session step error
  | records {step : SessionStep} {records : List LocationRecord} {error : HierarchyError}
      (bound : ∀ name, step.source? = some name → session.resolver? name ≠ none)
      (read : ∀ text, step.text? = some text → ∃ rules, RuleSet.ofText text = .ok rules)
      (supplied : step.records? = some records) (bad : Hierarchy.build records = .error error) :
      Refuses session step (.hierarchy error)
  | cache {source target : String} {resolver : Resolver} {error : Cache.CacheError}
      (bound : session.resolver? source = some resolver)
      (bad : Cache.toRuleSet (Cache.ofRuleSet resolver.rules none) = .error error) :
      Refuses session (.reload source target) (.cache error)
  | policy {name : String} {query : Query} {resolver : Resolver} {error : ResolutionError}
      (bound : session.resolver? name = some resolver)
      (bad : resolver.rules.resolveOne resolver.locations query = .error error) :
      Refuses session (.policy name query) (.resolution error)
  | policies {name : String} {query : Query} {resolver : Resolver} {error : ResolutionError}
      (bound : session.resolver? name = some resolver)
      (bad : resolver.rules.resolveAll resolver.locations query = .error error) :
      Refuses session (.policies name query) (.resolution error)

/-- Where a step leads that is not refused. -/
inductive Leads (session : Session) : SessionStep → Session → Prop where
  | binds {step : SessionStep} {target : String} {resolver : Resolver}
      (named : step.target? = some target) (makes : session.Makes step resolver) :
      Leads session step (session.bindName target resolver)
  | drops (name : String) : Leads session (.drop name) (session.drop name)
  | asks {step : SessionStep} (unchanging : step.changed? = none) : Leads session step session

end Session

/-! ## Results of the operations -/

namespace Recorded

@[simp] theorem result_compileText (text : String) :
    (compileText text).result = RuleSet.ofText text :=
  result_noting _ _

@[simp] theorem result_buildHierarchy (records : List LocationRecord) :
    (buildHierarchy records).result = (Hierarchy.build records).mapError .hierarchy :=
  result_noting _ _

@[simp] theorem result_resolveOne (rules : RuleSet) (hierarchy : Hierarchy) (query : Query) :
    (resolveOne rules hierarchy query).result =
      (rules.resolveOne hierarchy query).mapError .resolution :=
  result_noting _ _

@[simp] theorem result_resolveAll (rules : RuleSet) (hierarchy : Hierarchy) (query : Query) :
    (resolveAll rules hierarchy query).result =
      (rules.resolveAll hierarchy query).mapError .resolution :=
  result_noting _ _

@[simp] theorem result_encode (rules : RuleSet) (source : Option String) :
    (encode rules source).result = .ok (Cache.ofRuleSet rules source) :=
  result_noting _ _

@[simp] theorem result_decode (blob : List UInt8) :
    (decode blob).result = (Cache.toRuleSet blob).mapError .cache :=
  result_noting _ _

end Recorded

/-! ## What steps do -/

namespace Session

variable {session next : Session} {step : SessionStep} {reply : Reply} {error : Error}

@[simp] theorem require_eq_ok_iff {name : String} {resolver : Resolver} :
    (session.require name).result = .ok resolver ↔ session.resolver? name = some resolver := by
  unfold require
  cases session.resolver? name <;> simp

@[simp] theorem require_eq_error_iff {name : String} :
    (session.require name).result = .error error ↔
      session.resolver? name = none ∧ error = .noSuchResolver name := by
  unfold require
  cases session.resolver? name <;> simp [eq_comm]

/-- A step that can make something does, and binds it. -/
theorem attempt_of_makes {target : String} {resolver : Resolver}
    (named : step.target? = some target) (makes : session.Makes step resolver) :
    (session.attempt step).result = .ok (session.keep target resolver) := by
  cases makes with
  | make _ read built =>
    cases named
    simp only [attempt, Resolver.make, Recorded.result_bind, Recorded.result_compileText,
      Recorded.result_buildHierarchy, read, built]
    rfl
  | withRules _ bound read =>
    cases named
    simp only [attempt, Recorded.result_bind, require_eq_ok_iff.mpr bound,
      Recorded.result_compileText, read]
    rfl
  | withLocations _ bound built =>
    cases named
    simp only [attempt, Recorded.result_bind, require_eq_ok_iff.mpr bound,
      Recorded.result_buildHierarchy, built]
    rfl
  | reload _ bound restored =>
    cases named
    simp only [attempt, Resolver.reload, Recorded.result_bind, require_eq_ok_iff.mpr bound,
      Recorded.result_encode, Recorded.result_decode, ok_bind, restored]
    rfl

theorem exists_require {name : String} (bound : session.resolver? name ≠ none) :
    ∃ resolver, (session.require name).result = .ok resolver := by
  obtain ⟨resolver, found⟩ := Option.ne_none_iff_exists'.mp bound
  exact ⟨resolver, require_eq_ok_iff.mpr found⟩

/-- A step for whose refusal there is a reason fails with it. -/
theorem attempt_of_refuses (refuses : session.Refuses step error) :
    (session.attempt step).result = .error error := by
  cases refuses with
  | @unbound step name needed missing =>
    have required : (session.require name).result = .error (.noSuchResolver name) :=
      require_eq_error_iff.mpr ⟨missing, rfl⟩
    cases step <;> cases needed <;>
      simp only [attempt, Recorded.result_bind, required, error_bind]
  | @text step text error bound supplied bad =>
    cases step with
    | make =>
      cases supplied
      simp only [attempt, Resolver.make, Recorded.result_bind, Recorded.result_compileText, bad,
        error_bind]
    | withRules source =>
      cases supplied
      obtain ⟨resolver, required⟩ := exists_require (bound source rfl)
      simp only [attempt, Recorded.result_bind, required, ok_bind, Recorded.result_compileText,
        bad, error_bind]
    | _ => cases supplied
  | @records step records error bound read supplied bad =>
    have failed : (Recorded.buildHierarchy records).result = .error (.hierarchy error) := by
      rw [Recorded.result_buildHierarchy, bad]
      rfl
    cases step with
    | make target text =>
      cases supplied
      obtain ⟨rules, readHere⟩ := read text rfl
      simp only [attempt, Resolver.make, Recorded.result_bind, Recorded.result_compileText,
        readHere, ok_bind, failed, error_bind]
    | withLocations source =>
      cases supplied
      obtain ⟨resolver, required⟩ := exists_require (bound source rfl)
      simp only [attempt, Recorded.result_bind, required, ok_bind, failed, error_bind]
    | _ => cases supplied
  | cache bound bad =>
    simp only [attempt, Resolver.reload, Recorded.result_bind, require_eq_ok_iff.mpr bound,
      Recorded.result_encode, Recorded.result_decode, ok_bind, bad]
    rfl
  | policy bound bad =>
    simp only [attempt, Resolver.policy, Recorded.result_bind, require_eq_ok_iff.mpr bound,
      Recorded.result_resolveOne, ok_bind, bad]
    rfl
  | policies bound bad =>
    simp only [attempt, Resolver.policies, Recorded.result_bind, require_eq_ok_iff.mpr bound,
      Recorded.result_resolveAll, ok_bind, bad]
    rfl

/-! ## Taking a step -/

theorem step_of_attempt_eq_ok (attempted : (session.attempt step).result = .ok (next, reply)) :
    session.step step = (next, ⟨.ok reply, (session.attempt step).events⟩) := by
  simp only [Session.step, attempted]

theorem step_of_attempt_eq_error (failed : (session.attempt step).result = .error error) :
    session.step step = (session, ⟨.error error, (session.attempt step).events⟩) := by
  simp only [Session.step, failed]

theorem step_of_makes {target : String} {resolver : Resolver}
    (named : step.target? = some target) (makes : session.Makes step resolver) :
    (session.step step).1 = session.bindName target resolver ∧
      (session.step step).2.result = .ok (.resolver resolver) := by
  rw [step_of_attempt_eq_ok (attempt_of_makes named makes)]
  exact ⟨rfl, rfl⟩

theorem step_of_refuses (refuses : session.Refuses step error) :
    (session.step step).1 = session ∧ (session.step step).2.result = .error error := by
  rw [step_of_attempt_eq_error (attempt_of_refuses refuses)]
  exact ⟨rfl, rfl⟩

theorem step_drop {name : String} {resolver : Resolver}
    (bound : session.resolver? name = some resolver) :
    (session.step (.drop name)).1 = session.drop name ∧
      (session.step (.drop name)).2.result = .ok (.names (session.drop name).names) := by
  have attempted : (session.attempt (.drop name)).result =
      .ok (session.drop name, .names (session.drop name).names) := by
    simp only [attempt, Recorded.result_bind, require_eq_ok_iff.mpr bound, ok_bind]
    rfl
  rw [step_of_attempt_eq_ok attempted]
  exact ⟨rfl, rfl⟩

/-- Questions are answered by the resolver under the name, and change nothing. -/
theorem step_question (session : Session) (name : String) (question : Question) :
    session.step (question.step name) =
      (session, (session.resolver? name).elim (.silent (.error (.noSuchResolver name)))
        question.answer) := by
  cases bound : session.resolver? name with
  | none =>
    cases question <;> simp only [Session.step, Question.step, attempt, require, bound] <;> rfl
  | some resolver =>
    cases question with
    | describe | line number =>
      simp only [Session.step, Question.step, attempt, require, bound]
      rfl
    | policy query =>
      simp only [Session.step, Question.step, attempt, require, bound, Question.answer, bind,
        Recorded.bind, Recorded.silent, Option.elim]
      cases (resolver.policy query).result <;> rfl
    | policies query =>
      simp only [Session.step, Question.step, attempt, require, bound, Question.answer, bind,
        Recorded.bind, Recorded.silent, Option.elim]
      cases (resolver.policies query).result <;> rfl

/-- What comes of a step: it is refused, and then the session stays as it is, or it leads on. -/
inductive Taken (session : Session) (step : SessionStep) : Prop where
  | refused (error : Error) (refuses : session.Refuses step error)
      (failed : (session.step step).2.result = .error error)
      (same : (session.step step).1 = session)
  | led (reply : Reply) (replied : (session.step step).2.result = .ok reply)
      (leads : session.Leads step (session.step step).1)

theorem Taken.of_refuses (refuses : session.Refuses step error) : session.Taken step := by
  obtain ⟨same, failed⟩ := step_of_refuses refuses
  exact .refused error refuses failed same

theorem Taken.of_makes {target : String} {resolver : Resolver}
    (named : step.target? = some target) (makes : session.Makes step resolver) :
    session.Taken step := by
  obtain ⟨bound, replied⟩ := step_of_makes named makes
  refine .led _ replied ?_
  rw [bound]
  exact .binds named makes

theorem Taken.of_question {name : String} {resolver : Resolver} {question : Question}
    (bound : session.resolver? name = some resolver)
    (answered : (question.answer resolver).result = .ok reply) :
    session.Taken (question.step name) := by
  have asked := step_question session name question
  rw [bound] at asked
  refine .led reply (by rw [asked]; exact answered) ?_
  rw [asked]
  exact .asks (by cases question <;> rfl)

/-- A step is refused or leads on, whichever session it is taken in. -/
theorem taken (session : Session) (step : SessionStep) : session.Taken step := by
  cases step with
  | make target text records =>
    cases read : RuleSet.ofText text with
    | error error => exact .of_refuses (.text (by simp [SessionStep.source?]) rfl read)
    | ok rules =>
      cases built : Hierarchy.build records with
      | error error =>
        exact .of_refuses (.records (by simp [SessionStep.source?])
          (by simp [SessionStep.text?, read]) rfl built)
      | ok locations => exact .of_makes rfl (.make target read built)
  | withRules source target text =>
    cases bound : session.resolver? source with
    | none => exact .of_refuses (.unbound rfl bound)
    | some resolver =>
      cases read : RuleSet.ofText text with
      | error error => exact .of_refuses (.text (by simp [SessionStep.source?, bound]) rfl read)
      | ok rules => exact .of_makes rfl (.withRules target bound read)
  | withLocations source target records =>
    cases bound : session.resolver? source with
    | none => exact .of_refuses (.unbound rfl bound)
    | some resolver =>
      cases built : Hierarchy.build records with
      | error error =>
        exact .of_refuses (.records (by simp [SessionStep.source?, bound])
          (by simp [SessionStep.text?]) rfl built)
      | ok locations => exact .of_makes rfl (.withLocations target bound built)
  | reload source target =>
    cases bound : session.resolver? source with
    | none => exact .of_refuses (.unbound rfl bound)
    | some resolver =>
      cases restored : Cache.toRuleSet (Cache.ofRuleSet resolver.rules none) with
      | error error => exact .of_refuses (.cache bound restored)
      | ok rules => exact .of_makes rfl (.reload target bound restored)
  | drop name =>
    cases bound : session.resolver? name with
    | none => exact .of_refuses (.unbound rfl bound)
    | some resolver =>
      obtain ⟨dropped, replied⟩ := step_drop bound
      exact .led _ replied (dropped ▸ .drops name)
  | describe name =>
    cases bound : session.resolver? name with
    | none => exact .of_refuses (.unbound rfl bound)
    | some resolver => exact @Taken.of_question _ _ _ _ .describe bound rfl
  | line name number =>
    cases bound : session.resolver? name with
    | none => exact .of_refuses (.unbound rfl bound)
    | some resolver => exact @Taken.of_question _ _ _ _ (.line number) bound rfl
  | policy name query =>
    cases bound : session.resolver? name with
    | none => exact .of_refuses (.unbound rfl bound)
    | some resolver =>
      cases found : resolver.rules.resolveOne resolver.locations query with
      | error error => exact .of_refuses (.policy bound found)
      | ok best =>
        apply @Taken.of_question _ (.policy best.policyId) _ _ (.policy query) bound
        simp only [Question.answer, Resolver.policy, Recorded.result_bind,
          Recorded.result_resolveOne, found]
        rfl
  | policies name query =>
    cases bound : session.resolver? name with
    | none => exact .of_refuses (.unbound rfl bound)
    | some resolver =>
      cases found : resolver.rules.resolveAll resolver.locations query with
      | error error => exact .of_refuses (.policies bound found)
      | ok all =>
        apply @Taken.of_question _ (.policies all) _ _ (.policies query) bound
        simp only [Question.answer, Resolver.policies, Recorded.result_bind,
          Recorded.result_resolveAll, found]
        rfl

/-- A step fails exactly if it is refused. -/
theorem result_step_eq_error_iff :
    (session.step step).2.result = .error error ↔ session.Refuses step error := by
  constructor
  · intro failed
    cases session.taken step with
    | refused other refuses reported =>
      rw [reported] at failed
      rwa [← Except.error.inj failed]
    | led reply replied => simp [replied] at failed
  · intro refuses
    exact (step_of_refuses refuses).2

/-- A name keeps its resolver unless the step binds it, to what it makes, or drops it. -/
theorem Leads.resolver?_cases (leads : session.Leads step next) (name : String) :
    (step.changed? ≠ some name ∧ next.resolver? name = session.resolver? name) ∨
    (step.target? = some name ∧
      ∃ resolver, session.Makes step resolver ∧ next.resolver? name = some resolver) ∨
    (step = .drop name ∧ next.resolver? name = none) := by
  cases leads with
  | @binds step target resolver named makes =>
    by_cases same : name = target
    · subst same
      exact Or.inr (Or.inl ⟨named, resolver, makes, resolver?_bindName_self _ _ _⟩)
    · refine Or.inl ⟨?_, resolver?_bindName_of_ne _ _ same⟩
      rw [SessionStep.changed?_of_target? named, ne_eq, Option.some.injEq]
      exact Ne.symm same
  | drops dropped =>
    by_cases same : name = dropped
    · subst same
      exact Or.inr (Or.inr ⟨rfl, resolver?_drop_self _ _⟩)
    · refine Or.inl ⟨?_, resolver?_drop_of_ne _ same⟩
      rw [SessionStep.changed?, ne_eq, Option.some.injEq]
      exact Ne.symm same
  | asks unchanging => exact Or.inl ⟨by simp [unchanging], rfl⟩

theorem resolver?_step_of_ne {name : String} (other : step.changed? ≠ some name) :
    (session.step step).1.resolver? name = session.resolver? name := by
  cases session.taken step with
  | refused _ _ _ same => rw [same]
  | led _ _ leads =>
    rcases leads.resolver?_cases name with ⟨_, kept⟩ | ⟨named, _⟩ | ⟨rfl, _⟩
    · exact kept
    · exact absurd (SessionStep.changed?_of_target? named) other
    · exact absurd rfl other

/-! ## Answers -/

theorem answers_of_resolver? {name : String} {resolver : Resolver}
    (bound : session.resolver? name = some resolver) :
    session.answers name = fun question => question.answer resolver := by
  funext question
  rw [answers, step_question, bound]
  rfl

/-- The answers about a name depend on nothing but its resolver. -/
theorem answers_congr {name : String} (same : next.resolver? name = session.resolver? name) :
    next.answers name = session.answers name := by
  funext question
  rw [answers, answers, step_question, step_question, same]

end Session

end Circulation
