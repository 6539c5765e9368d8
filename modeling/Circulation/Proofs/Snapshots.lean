import Circulation.Proofs.RoundTrip
import Circulation.Proofs.Steps

/-!
Contract: resolvers as snapshots, over whole runs.

Owns:
- the steps of a run that succeed, and those among them that derived the resolver of a name;
- the rule set and the hierarchy that such steps supplied last;
- that every name has the resolver that these make, whatever the run did in between;
- that answers change by nothing but a step that binds or drops the name, and by no reload.

Does not own: what one step does, or which rule sets caches give back.
-/

namespace Circulation

namespace SessionStep

/-! ## Derivations -/

/-- The steps that derived the resolver of a name, out of those that succeeded. The latest step
comes first, in both lists. -/
def derivation : List SessionStep → String → List SessionStep
  | [], _ => []
  | step :: earlier, name =>
      if step.changed? = some name then
        match step.target?, step.source? with
        | some _, some source => step :: derivation earlier source
        | some _, none => [step]
        | none, _ => []
      else derivation earlier name

/-- The rules that the latest step supplied that supplies rules. A reload supplies those that the
cache of the rules before it gives back. -/
def suppliedRules? : List SessionStep → Option RuleSet
  | [] => none
  | make _ text _ :: _ => (RuleSet.ofText text).toOption
  | withRules _ _ text :: _ => (RuleSet.ofText text).toOption
  | reload _ _ :: earlier => do
      let rules ← suppliedRules? earlier
      (Cache.toRuleSet (Cache.ofRuleSet rules none)).toOption
  | _ :: earlier => suppliedRules? earlier

/-- The locations that the latest step supplied that supplies locations. -/
def suppliedLocations? : List SessionStep → Option Hierarchy
  | [] => none
  | make _ _ records :: _ => (Hierarchy.build records).toOption
  | withLocations _ _ records :: _ => (Hierarchy.build records).toOption
  | _ :: earlier => suppliedLocations? earlier

/-- The steps supplied the rules and the locations of a resolver last. -/
def SuppliedLast (steps : List SessionStep) (resolver : Resolver) : Prop :=
  suppliedRules? steps = some resolver.rules ∧ suppliedLocations? steps = some resolver.locations

theorem not_suppliedLast_nil (resolver : Resolver) : ¬SuppliedLast [] resolver := by
  simp [SuppliedLast, suppliedRules?]

theorem SuppliedLast.unique {steps : List SessionStep} {resolver other : Resolver}
    (supplied : SuppliedLast steps resolver) (suppliedOther : SuppliedLast steps other) :
    resolver = other := by
  have sameRules := Option.some.inj (supplied.1.symm.trans suppliedOther.1)
  have sameLocations := Option.some.inj (supplied.2.symm.trans suppliedOther.2)
  cases resolver
  cases other
  rw [Resolver.mk.injEq]
  exact ⟨sameRules, sameLocations⟩

/-- The rule text of a step, if it has one, is short enough for line numbers. -/
def Short (step : SessionStep) : Prop :=
  ∀ text, step.text? = some text → (Text.physicalLines text.toList).length < 2 ^ 32

end SessionStep

namespace Session

open SessionStep

/-- The steps of a run that succeed. -/
def succeeding (session : Session) (steps : List SessionStep) : List SessionStep :=
  ((steps.zip (session.run steps).2).filter fun taken => taken.2.result.isOk).map Prod.fst

variable {session next : Session} {step : SessionStep} {done : List SessionStep}

/-- Every name has the resolver that the steps supplied which derived it, or none. -/
def Derives (session : Session) (done : List SessionStep) : Prop :=
  ∀ name resolver,
    session.resolver? name = some resolver ↔ SuppliedLast (derivation done name) resolver

/-- A step that binds a name supplies its resolver, together with what derived its source. -/
theorem suppliedLast_of_makes (derives : session.Derives done) {target : String}
    {resolver : Resolver} (named : step.target? = some target)
    (makes : session.Makes step resolver) :
    SuppliedLast (derivation (step :: done) target) resolver := by
  rw [derivation, if_pos (changed?_of_target? named)]
  -- The part that the step does not supply is the one of its source.
  cases makes with
  | make _ read built =>
    constructor
    · simp [target?, source?, suppliedRules?, read, Except.toOption]
    · simp [target?, source?, suppliedLocations?, built, Except.toOption]
  | withRules _ bound read =>
    obtain ⟨rules, locations⟩ := (derives _ _).mp bound
    constructor
    · simp [target?, source?, suppliedRules?, read, Except.toOption, Resolver.withRules]
    · exact locations
  | withLocations _ bound built =>
    obtain ⟨rules, locations⟩ := (derives _ _).mp bound
    constructor
    · exact rules
    · simp [target?, source?, suppliedLocations?, built, Except.toOption, Resolver.withLocations]
  | reload _ bound restored =>
    obtain ⟨rules, locations⟩ := (derives _ _).mp bound
    constructor
    · simp [target?, source?, suppliedRules?, rules, restored, Except.toOption, Resolver.withRules]
    · exact locations

/-- What derived the resolvers of a session derives those of the next one, with its step. -/
theorem Derives.of_leads (derives : session.Derives done) (leads : session.Leads step next) :
    next.Derives (step :: done) := by
  intro name resolver
  rcases leads.resolver?_cases name with
    ⟨other, kept⟩ | ⟨named, made, makes, bound⟩ | ⟨rfl, dropped⟩
  · rw [kept, derivation, if_neg other]
    exact derives name resolver
  · have supplied := suppliedLast_of_makes derives named makes
    rw [bound, Option.some.injEq]
    constructor
    · rintro rfl
      exact supplied
    · exact supplied.unique
  · have none : derivation (.drop name :: done) name = [] := by
      simp [derivation, changed?, target?]
    rw [dropped, none]
    simp [not_suppliedLast_nil]

theorem derives_empty : empty.Derives [] := by
  intro name resolver
  simp [derivation, not_suppliedLast_nil]

/-! ## Runs -/

theorem succeeding_cons_of_ok {reply : Reply} (steps : List SessionStep)
    (replied : (session.step step).2.result = .ok reply) :
    session.succeeding (step :: steps) = step :: (session.step step).1.succeeding steps := by
  simp [succeeding, run, replied, Except.isOk, Except.toBool]

theorem succeeding_cons_of_error {error : Error} (steps : List SessionStep)
    (failed : (session.step step).2.result = .error error) :
    session.succeeding (step :: steps) = (session.step step).1.succeeding steps := by
  simp [succeeding, run, failed, Except.isOk, Except.toBool]

/-- What is kept by the steps of a run that are not refused, together with the steps before them, is
kept by the run. -/
theorem run_keeps {Holds : Session → List SessionStep → Prop} {steps : List SessionStep}
    (kept : ∀ step ∈ steps, ∀ session next done,
      session.Leads step next → Holds session done → Holds next (step :: done))
    {session : Session} {done : List SessionStep} (start : Holds session done) :
    Holds (session.run steps).1 ((session.succeeding steps).reverse ++ done) := by
  -- What holds after the first step also tells it of the steps done, so both are generalized.
  induction steps generalizing session done with
  | nil => exact start
  | cons step steps ih =>
    obtain ⟨keptHere, keptLater⟩ := List.forall_mem_cons.mp kept
    show Holds ((session.step step).1.run steps).1 _
    cases session.taken step with
    | refused error _ failed same =>
      rw [succeeding_cons_of_error steps failed, same]
      exact ih keptLater start
    | led reply replied leads =>
      rw [succeeding_cons_of_ok steps replied, List.reverse_cons, List.append_assoc]
      exact ih keptLater (keptHere _ _ _ leads start)

/-- The resolvers of an empty session's run are those that its steps derived. -/
theorem derives_run (steps : List SessionStep) :
    (empty.run steps).1.Derives (empty.succeeding steps).reverse := by
  have kept : ∀ step ∈ steps, ∀ (session next : Session) (done : List SessionStep),
      session.Leads step next → session.Derives done → next.Derives (step :: done) :=
    fun _ _ _ _ _ leads derives => derives.of_leads leads
  have derived := run_keeps kept derives_empty
  rwa [List.append_nil] at derived

/-! ## Rule sets of runs -/

/-- Every resolver has a rule set that comes from a text or from a cache. -/
def Keepable (session : Session) : Prop :=
  ∀ name resolver, session.resolver? name = some resolver → resolver.rules.Obtained

theorem obtained_of_makes (keepable : session.Keepable) (short : step.Short) {resolver : Resolver}
    (makes : session.Makes step resolver) : resolver.rules.Obtained := by
  cases makes with
  | make _ read built => exact .fromText _ (short _ rfl) read
  | withRules _ bound read => exact .fromText _ (short _ rfl) read
  | @withLocations source _ _ resolver _ bound built => exact keepable source resolver bound
  | reload _ bound restored => exact .fromBytes _ restored

theorem Keepable.of_leads (keepable : session.Keepable) (short : step.Short)
    (leads : session.Leads step next) : next.Keepable := by
  intro name resolver bound
  rcases leads.resolver?_cases name with ⟨_, kept⟩ | ⟨_, made, makes, madeBound⟩ | ⟨_, dropped⟩
  · exact keepable name resolver (kept ▸ bound)
  · rw [madeBound, Option.some.injEq] at bound
    exact bound ▸ obtained_of_makes keepable short makes
  · simp [dropped] at bound

theorem keepable_run {steps : List SessionStep} (short : ∀ step ∈ steps, step.Short) :
    (empty.run steps).1.Keepable := by
  have kept : ∀ step ∈ steps, ∀ (session next : Session) (_ : List SessionStep),
      session.Leads step next → session.Keepable → next.Keepable := by
    intro step member session next _ leads keepable
    exact keepable.of_leads (short step member) leads
  have start : empty.Keepable := by simp [Keepable]
  exact @run_keeps (fun session _ => session.Keepable) steps kept empty [] start

/-! ## Isolation -/

/-- A reload binds its target to the resolver of its source. -/
theorem step_reload (keepable : session.Keepable) {source target : String} {resolver : Resolver}
    (bound : session.resolver? source = some resolver)
    (short : (Cache.payloadBytes resolver.rules none).length < 2 ^ 32) :
    (session.step (.reload source target)).1 = session.bindName target resolver := by
  have restored := (Cache.kept_of_obtained (keepable source resolver bound) short).1
  exact (step_of_makes rfl (.reload target bound restored)).1

theorem bindName_bindName (session : Session) (name : String) (resolver other : Resolver) :
    (session.bindName name resolver).bindName name other = session.bindName name other := by
  simp [bindName, drop]

/-- What holds of a session that steps have led to, which are listed with the latest first, because
resolvers are snapshots. -/
structure Isolated (session : Session) (done : List SessionStep) : Prop where
  /-- A name has the rules and the locations that the steps supplied last that derived it. -/
  held : ∀ name resolver, session.resolver? name = some resolver ↔
    suppliedRules? (derivation done name) = some resolver.rules ∧
      suppliedLocations? (derivation done name) = some resolver.locations
  /-- A step changes no answer about other names than the one that it binds or drops. -/
  others : ∀ step name, step.changed? ≠ some name →
    (session.step step).1.answers name = session.answers name
  /-- A step fails if there is a reason to refuse it, and then it changes nothing. -/
  refused : ∀ step error,
    ((session.step step).2.result = .error error ↔ session.Refuses step error) ∧
      ((session.step step).2.result = .error error → (session.step step).1 = session)
  /-- A reload changes no answer. -/
  reloaded : ∀ source target resolver, session.resolver? source = some resolver →
    (Cache.payloadBytes resolver.rules none).length < 2 ^ 32 →
      (session.step (.reload source target)).1.resolver? target = some resolver ∧
        (session.step (.reload source target)).1.answers target = session.answers source
  /-- Both parts can be replaced in either order, and with them nothing is left of the source. -/
  replaced : ∀ source target text records rules locations, session.resolver? source ≠ none →
    RuleSet.ofText text = .ok rules → Hierarchy.build records = .ok locations →
      (session.step (.make target text records)).1.resolver? target = some ⟨rules, locations⟩ ∧
      (session.run [.withRules source target text, .withLocations target target records]).1 =
        (session.step (.make target text records)).1 ∧
      (session.run [.withLocations source target records, .withRules target target text]).1 =
        (session.step (.make target text records)).1

theorem isolated_of_derives (derives : session.Derives done) (keepable : session.Keepable) :
    session.Isolated done where
  held := derives
  others := fun _ _ other => answers_congr (resolver?_step_of_ne other)
  refused := by
    intro step error
    refine ⟨result_step_eq_error_iff, ?_⟩
    intro failed
    exact (step_of_refuses (result_step_eq_error_iff.mp failed)).1
  reloaded := by
    intro source target resolver bound short
    have boundTarget := resolver?_bindName_self session target resolver
    rw [step_reload keepable bound short, answers_of_resolver? boundTarget,
      answers_of_resolver? bound]
    exact ⟨boundTarget, rfl⟩
  replaced := by
    intro source target text records rules locations sourceBound read built
    obtain ⟨resolver, bound⟩ := Option.ne_none_iff_exists'.mp sourceBound
    have made := (step_of_makes rfl (.make target read built : session.Makes _ _)).1
    have first := (step_of_makes rfl (.withRules target bound read)).1
    have second := (step_of_makes rfl (.withLocations target bound built)).1
    have targetBound (resolver : Resolver) := resolver?_bindName_self session target resolver
    refine ⟨?_, ?_, ?_⟩
    · rw [made]
      exact targetBound _
    · show ((session.step _).1.step _).1 = _
      rw [first, made, (step_of_makes rfl (.withLocations target (targetBound _) built)).1]
      exact bindName_bindName _ _ _ _
    · show ((session.step _).1.step _).1 = _
      rw [second, made, (step_of_makes rfl (.withRules target (targetBound _) read)).1]
      exact bindName_bindName _ _ _ _

/-- Resolvers are snapshots: in whatever way a run has come about, and whichever step follows. -/
theorem isolated_run {steps : List SessionStep} (short : ∀ step ∈ steps, step.Short) :
    (empty.run steps).1.Isolated (empty.succeeding steps).reverse ∧
      ∀ (resolver : Resolver) rules locations,
        (resolver.withRules rules).withLocations locations = ⟨rules, locations⟩ ∧
          (resolver.withLocations locations).withRules rules = ⟨rules, locations⟩ :=
  ⟨isolated_of_derives (derives_run steps) (keepable_run short), fun _ _ _ => ⟨rfl, rfl⟩⟩

/-- A run with three steps that fail: of a rule text without colon, an unknown location and a name
without resolver. In between, a name is bound anew from its own resolver. -/
def sampleRun : List SessionStep :=
  [.make "a" "fallback-policy: l none\nm book: l day\n"
      [.institution "north", .campus "city" "north", .library "main" "city",
        .location "desk" "main"],
    .withRules "a" "b" "m book l day",
    .withRules "a" "a" "fallback-policy: l closed\n",
    .policy "a" ⟨.loan, "book", "short", "staff", "attic"⟩,
    .withLocations "a" "b" [.institution "south"],
    .reload "c" "a",
    .drop "a"]

theorem isolated_run_sampleRun :
    (∀ step ∈ sampleRun, step.Short) ∧
      derivation (empty.succeeding sampleRun).reverse "a" = [] ∧
      derivation (empty.succeeding sampleRun).reverse "b" =
        [.withLocations "a" "b" [.institution "south"],
          .withRules "a" "a" "fallback-policy: l closed\n",
          .make "a" "fallback-policy: l none\nm book: l day\n"
            [.institution "north", .campus "city" "north", .library "main" "city",
              .location "desk" "main"]] ∧
      (empty.run sampleRun).1.Isolated (empty.succeeding sampleRun).reverse ∧
      ∃ resolver, (empty.run sampleRun).1.resolver? "b" = some resolver ∧
        ((empty.run sampleRun).1.step (.reload "b" "a")).1.answers "a" =
          (empty.run sampleRun).1.answers "b" := by
  have counted : ∀ text ∈ sampleRun.filterMap SessionStep.text?,
      (Text.physicalLines text.toList).length < 2 ^ 32 := by decide
  have short : ∀ step ∈ sampleRun, step.Short := by
    intro step member text supplied
    exact counted text (List.mem_filterMap.mpr ⟨step, member, supplied⟩)
  have isolated := (isolated_run short).1
  have closed : (empty.run sampleRun).1.resolver? "b" =
      some ⟨.ofLines [] ⟨some "closed", none, none⟩, ⟨[]⟩⟩ := by
    decide +kernel
  refine ⟨short, by decide +kernel, by decide +kernel, isolated, _, closed, ?_⟩
  exact (isolated.reloaded "b" "a" _ closed (by decide +kernel)).2

end Session

end Circulation
