import Circulation.Proofs.Drafting
import Circulation.Proofs.Writing

/-!
Contract: rule texts that say what the steps of a draft do.

Owns:
- what counts of all that a step says about a line, and the statement that it amounts to;
- the texts that say it, one physical line for each step, and one such text;
- that such a text makes what the steps make, be it a rule set or an error.

Does not own: the written form of one statement.
-/

namespace Circulation

/-! ## What counts -/

namespace LineDetail

/-- What the detail says about a facet. -/
def condition? (facet : Facet) : LineDetail → Option Condition
  | condition named demanded => if named = facet then some demanded else none
  | policy _ _ => none

/-- What the detail says about a kind. -/
def policyId? (kind : PolicyKind) : LineDetail → Option String
  | condition _ _ => none
  | policy named policyId => if named = kind then some policyId else none

end LineDetail

/-- The last condition that is said of a facet; without any, nothing is demanded of it. -/
def countingCondition (details : List LineDetail) (facet : Facet) : Condition :=
  (details.filterMap (LineDetail.condition? facet)).getLast?.getD .any

/-- The last policy that is said of a kind. -/
def countingPolicy? (details : List LineDetail) (kind : PolicyKind) : Option String :=
  (details.filterMap (LineDetail.policyId? kind)).getLast?

/-- The facets of which something is demanded in the end, in facet order. -/
def countingConstraints (details : List LineDetail) : List (Facet × Condition) :=
  (Facet.all.map fun facet => (facet, countingCondition details facet)).filter fun constraint =>
    !constraint.2.isAny

/-- The kinds that are assigned in the end, in kind order. -/
def countingAssignments (details : List LineDetail) : List (PolicyKind × String) :=
  PolicyKind.all.filterMap fun kind => (countingPolicy? details kind).map fun id => (kind, id)

namespace DraftStep

/-- The statement that a step amounts to. -/
def statement : DraftStep → Statement
  | fallback kind policyId => .fallback [(kind, policyId)]
  | line details => .rule (countingConstraints details) (countingAssignments details)

/-- The step assigns something, and lists nothing but ids. -/
def Writable (step : DraftStep) : Prop :=
  step.statement.Writable

instance (step : DraftStep) : Decidable step.Writable :=
  inferInstanceAs (Decidable step.statement.Writable)

end DraftStep

/-- A value that each entry replaces or keeps is in the end what the last replacement left. -/
theorem foldl_eq_of_last {σ β α γ : Type} {step : σ → β → σ} {said? : β → Option α}
    (value : σ → γ) (replace : Option α → γ → γ)
    (stepped : ∀ state entry, value (step state entry) = replace (said? entry) (value state))
    (kept : ∀ old, replace none old = old)
    (replaced : ∀ new old older, replace (some new) old = replace (some new) older)
    (entries : List β) (start : σ) :
    value (entries.foldl step start) =
      replace (entries.filterMap said?).getLast? (value start) := by
  induction entries generalizing start with
  | nil => exact (kept _).symm
  | cons entry entries ih =>
    rw [List.foldl_cons, ih, stepped, List.filterMap_cons]
    cases said? entry with
    | none => rw [kept]
    | some first =>
      rw [List.getLast?_cons]
      cases (entries.filterMap said?).getLast? with
      | none => exact kept _
      | some last => exact replaced _ _ _

namespace LineParts

theorem get_conditions_withDetail (facet : Facet) (parts : LineParts) (detail : LineDetail) :
    (parts.withDetail detail).conditions.get facet =
      (detail.condition? facet).getD (parts.conditions.get facet) := by
  cases detail with
  | policy kind id => rfl
  | condition named demanded =>
    by_cases same : named = facet
    · subst same
      simp [withDetail, LineDetail.condition?]
    · simp [withDetail, LineDetail.condition?, same, Conditions.get_set_of_ne _ _ (Ne.symm same)]

theorem get_policies_withDetail (kind : PolicyKind) (parts : LineParts) (detail : LineDetail) :
    (parts.withDetail detail).policies.get kind =
      (detail.policyId? kind).or (parts.policies.get kind) := by
  cases detail with
  | condition facet demanded => rfl
  | policy named id =>
    by_cases same : named = kind
    · subst same
      simp [withDetail, LineDetail.policyId?]
    · simp [withDetail, LineDetail.policyId?, same, PolicyMap.get_insert_of_ne _ _ (Ne.symm same)]

/-- The conditions of a line are those that count of its details. -/
theorem constraints_foldl_withDetail (details : List LineDetail) :
    (details.foldl withDetail {}).conditions.constraints = countingConstraints details := by
  have counting : (details.foldl withDetail {}).conditions.get = countingCondition details := by
    funext facet
    rw [foldl_eq_of_last (fun parts : LineParts => parts.conditions.get facet) Option.getD
        (get_conditions_withDetail facet) (fun _ => rfl) (fun _ _ _ => rfl),
      Conditions.get_unconstrained, countingCondition]
  rw [Conditions.constraints, Conditions.constrained, counting, countingConstraints,
    List.filter_map]
  rfl

/-- The policies of a line are those that count of its details. -/
theorem entries_foldl_withDetail (details : List LineDetail) :
    (details.foldl withDetail {}).policies.entries = countingAssignments details := by
  have counting : (details.foldl withDetail {}).policies.get = countingPolicy? details := by
    funext kind
    rw [foldl_eq_of_last (fun parts : LineParts => parts.policies.get kind) Option.or
        (get_policies_withDetail kind) (fun _ => rfl) (fun _ _ _ => rfl),
      PolicyMap.get_empty, Option.or_none, countingPolicy?]
  rw [PolicyMap.entries, counting, countingAssignments]

end LineParts

/-! ## Texts that say what steps do -/

namespace Statement

/-- Two statements that differ in the order of their constraints and of their assignments. -/
inductive Reorders : Statement → Statement → Prop where
  | fallback {assignments others : List (PolicyKind × String)}
      (assigned : assignments.Perm others) :
      Reorders (.fallback assignments) (.fallback others)
  | rule {constraints otherConstraints : List (Facet × Condition)}
      {assignments others : List (PolicyKind × String)}
      (demanded : constraints.Perm otherConstraints) (assigned : assignments.Perm others) :
      Reorders (.rule constraints assignments) (.rule otherConstraints others)

theorem Reorders.refl (statement : Statement) : statement.Reorders statement := by
  cases statement with
  | fallback assignments => exact .fallback (.refl _)
  | rule constraints assignments => exact .rule (.refl _) (.refl _)

end Statement

namespace RuleText

/-- The physical line says what the step does: without its comment it derives the statement of the
step, in any spelling and order. -/
def Spells (step : DraftStep) (physicalLine : List Char) : Prop :=
  ∃ statement, Derives (Text.stripComment physicalLine) statement ∧
    statement.Reorders step.statement

/-- The text has a physical line for each step, which says what it does. -/
def SpellsAll (steps : List DraftStep) (text : String) : Prop :=
  List.Forall₂ Spells steps (Text.physicalLines text.toList)

/-- The text in which every step has a line, in the written form of its statement. -/
def writeSteps (steps : List DraftStep) : String :=
  String.join (steps.map fun step => step.statement.write ++ "\n")

/-! ## Drafts of such texts -/

theorem writes_ofStep {step : DraftStep} {statement : Statement}
    (reorders : statement.Reorders step.statement) (number : UInt32) :
    statement.Writes number (.ofStep number step) := by
  cases step with
  | fallback kind id =>
    cases reorders with
    | fallback assigned =>
      have single : (PolicyMap.empty.insert kind id).entries = [(kind, id)] := by
        cases kind <;> rfl
      have writes := @Statement.Writes.fallback number _ _ (single.symm ▸ assigned)
      rwa [single] at writes
  | line details =>
    cases reorders with
    | rule demanded assigned =>
      rw [← LineParts.constraints_foldl_withDetail] at demanded
      rw [← LineParts.entries_foldl_withDetail] at assigned
      exact .rule demanded assigned

theorem draftOfLine_of_spells {step : DraftStep} {physicalLine : List Char}
    (spells : Spells step physicalLine) (number : UInt32) :
    draftOfLine number physicalLine = .ok (.ofStep number step) := by
  obtain ⟨statement, derives, reorders⟩ := spells
  exact draftOfLine_of_writes derives (writes_ofStep reorders number)

theorem draftOfLines_of_spells {number : Nat} {steps : List DraftStep} {lines : List (List Char)}
    (spelled : List.Forall₂ Spells steps lines) :
    draftOfLines number lines = .ok (.ofStepsFrom number steps) := by
  induction spelled generalizing number with
  | nil => rfl
  | cons here others ih =>
    exact draftOfLines_cons_eq_ok_iff.mpr ⟨_, _, draftOfLine_of_spells here _, ih, rfl⟩

/-! ## The written text -/

theorem physicalLines_write {statement : Statement} (writable : statement.Writable)
    (rest : List Char) :
    Text.physicalLines ((statement.write ++ "\n").toList ++ rest) =
      statement.write.toList :: Text.physicalLines rest := by
  obtain ⟨tokens, lexes, _⟩ := derives_write writable
  rw [String.toList_append, List.append_assoc]
  obtain ⟨noLineFeed, noReturn⟩ := lexes.single_line
  have divided := Text.physicalLines_append_lineFeed rest noLineFeed
  rw [Text.withoutReturn_eq_self noReturn] at divided
  exact divided

theorem spells_write {step : DraftStep} (writable : step.Writable) :
    Spells step step.statement.write.toList := by
  have derives := derives_write writable
  have ⟨tokens, lexes, _⟩ := derives
  obtain ⟨noHash, noSlash⟩ := lexes.uncommented
  refine ⟨step.statement, ?_, .refl _⟩
  rwa [Text.stripComment_eq_self noHash noSlash]

theorem spellsAll_writeSteps {steps : List DraftStep}
    (writable : ∀ step ∈ steps, step.Writable) : SpellsAll steps (writeSteps steps) := by
  rw [SpellsAll, writeSteps]
  induction steps with
  | nil => exact .nil
  | cons step steps ih =>
    obtain ⟨here, others⟩ := List.forall_mem_cons.mp writable
    rw [List.map_cons, String.join_cons, String.toList_append, physicalLines_write here]
    exact .cons (spells_write here) (ih others)

end RuleText

/-! ## What such a text makes -/

namespace RuleSet

open RuleText

/-- Steps that can be written down have a text that says what they do, and every such text makes
what the steps make: the same rule set, or the same error. -/
theorem ofText_eq_compile_ofSteps (steps : List DraftStep)
    (writable : ∀ step ∈ steps, step.Writable) :
    SpellsAll steps (writeSteps steps) ∧
      ∀ text, SpellsAll steps text →
        ofText text = (compile (.ofSteps steps)).mapError .compile := by
  refine ⟨spellsAll_writeSteps writable, ?_⟩
  intro text spelled
  have parsed : parse text = .ok (.ofSteps steps) := draftOfLines_of_spells spelled
  rw [ofText, parsed]
  rfl

/-- Steps that say things again, and whose ids are keywords. -/
def sampleSteps : List DraftStep :=
  [.fallback .loan "all",
    .line [.condition .itemType (.isIn (.ofList ["book"])), .policy .loan "day",
      .condition (.place .library) (.isIn (.ofList ["not", "l"])), .policy .request "all",
      .condition .itemType (.notIn (.ofList ["not", "fallback-policy"])),
      .condition .patronGroup (.isIn (.ofList [""])), .condition .patronGroup .any,
      .policy .loan "item-type"],
    .fallback .request "r"]

theorem ofText_eq_compile_ofSteps_sampleSteps :
    writeSteps sampleSteps = "fallback-policy: l all\n" ++
        "m !fallback-policy, not + c l, not: l item-type r all\nfallback-policy: r r\n" ∧
      (∀ step ∈ sampleSteps, step.Writable) ∧
      ofText (writeSteps sampleSteps) =
        (compile (.ofSteps sampleSteps)).mapError .compile ∧
      ∃ rules, ofText (writeSteps sampleSteps) = .ok rules := by
  have writable : ∀ step ∈ sampleSteps, step.Writable := by decide +kernel
  obtain ⟨spelled, same⟩ := ofText_eq_compile_ofSteps sampleSteps writable
  have made : ∃ rules, compile (.ofSteps sampleSteps) = .ok rules := ⟨_, by cbv⟩
  obtain ⟨rules, compiled⟩ := made
  refine ⟨by decide +kernel, writable, same _ spelled, rules, ?_⟩
  rw [same _ spelled, compiled]
  rfl

end RuleSet

end Circulation
