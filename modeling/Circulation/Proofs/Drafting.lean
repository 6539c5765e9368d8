import Circulation.Outcome
import Circulation.Session.Error
import Mathlib.Algebra.Group.Nat.Defs

/-!
Contract: the lines of drafts, from rule text or from steps, and the checks they pass.

Owns:
- when a line, a list of lines and a draft pass their checks;
- that the lines of a draft bear the numbers of the places they were written at, in order, and are
  as specific as their conditions.

Does not own: rankings, or the lines of caches.
-/

namespace Circulation

/-! ## Checks -/

namespace PolicyMap

theorem isEmpty_eq_false_iff {policies : PolicyMap} :
    policies.isEmpty = false ↔ ∃ kind, policies.contains kind = true := by
  rw [isEmpty, List.isEmpty_eq_false_iff_exists_mem]
  constructor
  · rintro ⟨⟨kind, id⟩, member⟩
    exact ⟨kind, mem_kinds.mp (List.mem_map.mpr ⟨(kind, id), member, rfl⟩)⟩
  · rintro ⟨kind, assigned⟩
    obtain ⟨entry, member, _⟩ := List.mem_map.mp (mem_kinds.mpr assigned)
    exact ⟨entry, member⟩

end PolicyMap

/-- A line passes exactly if it assigns something and every kind it assigns has a default. -/
theorem RuleLine.check_eq_ok_iff {defaults : PolicyMap} {line : RuleLine} :
    line.check defaults = .ok () ↔
      (∃ kind, line.policies.contains kind = true) ∧
        ∀ kind, line.policies.contains kind = true → defaults.contains kind = true := by
  rw [← PolicyMap.isEmpty_eq_false_iff, RuleLine.check]
  have covered : (line.policies.kinds.find? fun kind => !defaults.contains kind) = none ↔
      ∀ kind, line.policies.contains kind = true → defaults.contains kind = true := by
    simp only [List.find?_eq_none, PolicyMap.mem_kinds, Bool.not_eq_true, Bool.not_eq_false']
  rw [← covered]
  cases line.policies.isEmpty with
  | true => simp
  | false =>
    cases line.policies.kinds.find? fun kind => !defaults.contains kind with
    | none => simp
    | some kind => simp

theorem checkLines_eq_ok_iff {defaults : PolicyMap} {lines : List RuleLine} :
    checkLines defaults lines = .ok () ↔ ∀ line ∈ lines, line.check defaults = .ok () := by
  induction lines with
  | nil => simp [checkLines]
  | cons line rest ih =>
    rw [checkLines, bind_eq_ok_iff, List.forall_mem_cons, ← ih]
    constructor
    · rintro ⟨_, passed, others⟩
      exact ⟨passed, others⟩
    · rintro ⟨passed, others⟩
      exact ⟨(), passed, others⟩

/-- A draft makes a rule set exactly if its fallbacks and its lines pass. -/
theorem RuleSet.compile_eq_ok_iff {draft : RuleDraft} {rules : RuleSet} :
    RuleSet.compile draft = .ok rules ↔
      ∃ defaults, collectDefaults draft.fallbacks = .ok defaults ∧
        checkLines defaults draft.lines = .ok () ∧ rules = .ofLines draft.lines defaults := by
  rw [RuleSet.compile, bind_eq_ok_iff]
  constructor
  · rintro ⟨defaults, collected, remaining⟩
    obtain ⟨_, checked, same⟩ := bind_eq_ok_iff.mp remaining
    exact ⟨defaults, collected, checked, (Except.ok.inj same).symm⟩
  · rintro ⟨defaults, collected, checked, rfl⟩
    exact ⟨defaults, collected, bind_eq_ok_iff.mpr ⟨(), checked, rfl⟩⟩

/-! ## Numbers -/

/-- Lines that stand in the order of their numbers, all of them from `first` up to, and without,
`after`, and each as specific as its conditions. -/
structure LinesBetween (first after : Nat) (lines : List RuleLine) : Prop where
  increasing : lines.Pairwise fun earlier later => earlier.number < later.number
  bounds : ∀ line ∈ lines, first ≤ line.number.toNat ∧ line.number.toNat < after
  scored : ∀ line ∈ lines, line.specificity = line.conditions.specificity

namespace LinesBetween

theorem nil (first after : Nat) : LinesBetween first after [] where
  increasing := .nil
  bounds := by simp
  scored := by simp

theorem singleton {first after : Nat} {number : UInt32} (conditions : Conditions)
    (policies : PolicyMap) (lower : first ≤ number.toNat) (upper : number.toNat < after) :
    LinesBetween first after [.scored number conditions policies] where
  increasing := List.pairwise_singleton _ _
  bounds := by
    intro line member
    rw [List.mem_singleton.mp member]
    exact ⟨lower, upper⟩
  scored := by
    intro line member
    rw [List.mem_singleton.mp member]
    rfl

theorem cons_iff {first after : Nat} {line : RuleLine} {others : List RuleLine} :
    LinesBetween first after (line :: others) ↔
      first ≤ line.number.toNat ∧ line.number.toNat < after ∧
        line.specificity = line.conditions.specificity ∧
          LinesBetween (line.number.toNat + 1) after others := by
  constructor
  · rintro ⟨increasing, bounds, scored⟩
    obtain ⟨above, othersIncreasing⟩ := List.pairwise_cons.mp increasing
    obtain ⟨bound, othersBounds⟩ := List.forall_mem_cons.mp bounds
    obtain ⟨scoredHere, othersScored⟩ := List.forall_mem_cons.mp scored
    refine ⟨bound.1, bound.2, scoredHere, othersIncreasing, ?_, othersScored⟩
    intro other member
    exact ⟨UInt32.lt_iff_toNat_lt.mp (above other member), (othersBounds other member).2⟩
  · rintro ⟨lower, upper, scoredHere, increasing, bounds, scored⟩
    refine ⟨List.pairwise_cons.mpr ⟨?_, increasing⟩, ?_, ?_⟩
    · intro other member
      exact UInt32.lt_iff_toNat_lt.mpr (bounds other member).1
    · refine List.forall_mem_cons.mpr ⟨⟨lower, upper⟩, ?_⟩
      intro other member
      have bound := bounds other member
      omega
    · exact List.forall_mem_cons.mpr ⟨scoredHere, scored⟩

theorem append {first middle after : Nat} {lines others : List RuleLine}
    (before : LinesBetween first middle lines) (behind : LinesBetween middle after others)
    (lower : first ≤ middle) (upper : middle ≤ after) :
    LinesBetween first after (lines ++ others) where
  increasing := by
    apply List.pairwise_append.mpr
    refine ⟨before.increasing, behind.increasing, ?_⟩
    intro earlier earlierMember later laterMember
    have below := before.bounds earlier earlierMember
    have above := behind.bounds later laterMember
    rw [UInt32.lt_iff_toNat_lt]
    omega
  bounds := by
    intro line member
    rcases List.mem_append.mp member with member | member
    · have bound := before.bounds line member
      omega
    · have bound := behind.bounds line member
      omega
  scored := by
    intro line member
    rcases List.mem_append.mp member with member | member
    · exact before.scored line member
    · exact behind.scored line member

theorem mono {first after further : Nat} {lines : List RuleLine}
    (written : LinesBetween first after lines) (upper : after ≤ further) :
    LinesBetween first further lines where
  increasing := written.increasing
  bounds := by
    intro line member
    have bound := written.bounds line member
    omega
  scored := written.scored

end LinesBetween

/-! ## Drafts of texts and steps -/

/-- A draft in which at most one line is written, and that under the given number. -/
def RuleDraft.WrittenAt (number : UInt32) (draft : RuleDraft) : Prop :=
  draft.lines = [] ∨ ∃ conditions policies, draft.lines = [.scored number conditions policies]

theorem RuleDraft.WrittenAt.linesBetween {number : Nat} {draft : RuleDraft}
    (written : draft.WrittenAt (UInt32.ofNat number)) (small : number < 2 ^ 32) :
    LinesBetween number (number + 1) draft.lines := by
  have value : (UInt32.ofNat number).toNat = number := UInt32.toNat_ofNat_of_lt' small
  rcases written with none | ⟨conditions, policies, one⟩
  · rw [none]
    exact .nil _ _
  · rw [one]
    exact .singleton conditions policies (by omega) (by omega)

namespace RuleText

theorem writtenAt_of_draftOfStatement {number : UInt32} {line : List Char}
    {statement : Statement} {draft : RuleDraft}
    (drafted : draftOfStatement number line statement = .ok draft) : draft.WrittenAt number := by
  cases statement with
  | fallback assignments =>
    obtain ⟨policies, _, same⟩ := bind_eq_ok_iff.mp drafted
    rw [← Except.ok.inj same]
    exact Or.inl rfl
  | rule constraints assignments =>
    obtain ⟨conditions, _, remaining⟩ := bind_eq_ok_iff.mp drafted
    obtain ⟨policies, _, same⟩ := bind_eq_ok_iff.mp remaining
    rw [← Except.ok.inj same]
    exact Or.inr ⟨conditions, policies, rfl⟩

theorem writtenAt_of_draftOfLine {number : UInt32} {physicalLine : List Char} {draft : RuleDraft}
    (drafted : draftOfLine number physicalLine = .ok draft) : draft.WrittenAt number := by
  rw [draftOfLine] at drafted
  split at drafted
  · rw [← Except.ok.inj drafted]
    exact Or.inl rfl
  · obtain ⟨statement, _, remaining⟩ := bind_eq_ok_iff.mp drafted
    exact writtenAt_of_draftOfStatement remaining

/-- The lines of a text stand in order under the numbers of the physical lines they were read
from. -/
theorem linesBetween_draftOfLines {number : Nat} {lines : List (List Char)} {draft : RuleDraft}
    (drafted : draftOfLines number lines = .ok draft) (small : number + lines.length ≤ 2 ^ 32) :
    LinesBetween number (number + lines.length) draft.lines := by
  induction lines generalizing number draft with
  | nil =>
    rw [← Except.ok.inj drafted]
    exact .nil _ _
  | cons line rest ih =>
    obtain ⟨first, firstDrafted, remaining⟩ := bind_eq_ok_iff.mp drafted
    obtain ⟨others, othersDrafted, same⟩ := bind_eq_ok_iff.mp remaining
    rw [List.length_cons] at small ⊢
    have here := (writtenAt_of_draftOfLine firstDrafted).linesBetween (by omega)
    have there := ih othersDrafted (by omega)
    rw [← Except.ok.inj same, RuleDraft.lines_append]
    exact (here.append there (by omega) (by omega)).mono (by omega)

end RuleText

namespace RuleDraft

theorem writtenAt_ofStep (number : UInt32) (step : DraftStep) :
    (ofStep number step).WrittenAt number := by
  cases step with
  | fallback kind policyId => exact Or.inl rfl
  | line details => exact Or.inr ⟨_, _, rfl⟩

/-- The lines of steps stand in order under the numbers of the steps that wrote them. -/
theorem linesBetween_ofStepsFrom {number : Nat} {steps : List DraftStep}
    (small : number + steps.length ≤ 2 ^ 32) :
    LinesBetween number (number + steps.length) (ofStepsFrom number steps).lines := by
  induction steps generalizing number with
  | nil => exact .nil _ _
  | cons step rest ih =>
    rw [List.length_cons] at small ⊢
    have here := (writtenAt_ofStep (UInt32.ofNat number) step).linesBetween (by omega)
    have there : LinesBetween (number + 1) (number + 1 + rest.length)
        (ofStepsFrom (number + 1) rest).lines := ih (by omega)
    rw [ofStepsFrom, lines_append]
    exact (here.append there (by omega) (by omega)).mono (by omega)

end RuleDraft

end Circulation
