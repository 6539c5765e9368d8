import Circulation.Proofs.Restoring
import Mathlib

/-!
Contract: what holds of every rule set, whichever way it came about.

Owns:
- the three ways in which rule sets come about;
- the invariant on which the matching of queries relies;
- that each of the ways establishes it.

Does not own: what the invariant is good for.
-/

namespace Circulation.RuleSet

/-! ## Where rule sets come from -/

/-- A rule set comes from a rule text, from steps, or from a byte string. Line numbers have 32 bits,
so texts and step sequences are shorter than that. -/
inductive Obtained (rules : RuleSet) : Prop where
  | fromText (text : String) (short : (Text.physicalLines text.toList).length < 2 ^ 32)
      (compiled : ofText text = .ok rules)
  | fromSteps (steps : List DraftStep) (short : steps.length < 2 ^ 32)
      (compiled : compile (.ofSteps steps) = .ok rules)
  | fromBytes (blob : List UInt8) (restored : Cache.toRuleSet blob = .ok rules)

/-- What the three ways have in common: numbered lines that passed their checks, ranked. -/
theorem Obtained.exists_ofLines {rules : RuleSet} (obtained : rules.Obtained) :
    ∃ lines defaults, LinesBetween 1 (2 ^ 32) lines ∧ checkLines defaults lines = .ok () ∧
      rules = .ofLines lines defaults := by
  cases obtained with
  | fromText text short compiled =>
    obtain ⟨draft, parsed, made⟩ := bind_eq_ok_iff.mp compiled
    obtain ⟨defaults, _, checked, same⟩ := compile_eq_ok_iff.mp (mapError_eq_ok_iff.mp made)
    have written := RuleText.linesBetween_draftOfLines (mapError_eq_ok_iff.mp parsed) (by omega)
    exact ⟨draft.lines, defaults, written.mono (by omega), checked, same⟩
  | fromSteps steps short compiled =>
    obtain ⟨defaults, _, checked, same⟩ := compile_eq_ok_iff.mp compiled
    have written : LinesBetween 1 (1 + steps.length) (RuleDraft.ofSteps steps).lines :=
      RuleDraft.linesBetween_ofStepsFrom (by omega)
    exact ⟨_, defaults, written.mono (by omega), checked, same⟩
  | fromBytes blob restored =>
    obtain ⟨payload, _, made⟩ := bind_eq_ok_iff.mp restored
    obtain ⟨lines, defaults, written, checked, same, _⟩ :=
      Cache.Payload.toRuleSet_eq_ok_iff.mp (mapError_eq_ok_iff.mp made)
    exact ⟨lines, defaults, written, checked, same⟩

/-! ## The invariant -/

/-- What the matching of queries relies on: lines stand in the order of their numbers, which begin
at 1; each assigns something, and only kinds with a default; each is as specific as its conditions;
and each kind has the positions of its lines ranked. -/
structure WellFormed (rules : RuleSet) : Prop where
  numbered : ∀ line ∈ rules.lines, 1 ≤ line.number
  increasing : rules.lines.toList.Pairwise fun earlier later => earlier.number < later.number
  assigning : ∀ line ∈ rules.lines, ∃ kind, line.policies.contains kind = true
  covered : ∀ line ∈ rules.lines, ∀ kind,
    line.policies.contains kind = true → rules.defaults.contains kind = true
  scored : ∀ line ∈ rules.lines, line.specificity = line.conditions.specificity
  ranked : ∀ kind, Ranks rules.lines kind (rules.ranked.get kind)

theorem wellFormed_ofLines {lines : List RuleLine} {defaults : PolicyMap}
    (written : LinesBetween 1 (2 ^ 32) lines) (checked : checkLines defaults lines = .ok ()) :
    (ofLines lines defaults).WellFormed where
  numbered := by
    intro line member
    rw [UInt32.le_iff_toNat_le]
    exact (written.bounds line (List.mem_toArray.mp member)).1
  increasing := written.increasing
  assigning := by
    intro line member
    have passed := checkLines_eq_ok_iff.mp checked line (List.mem_toArray.mp member)
    exact (RuleLine.check_eq_ok_iff.mp passed).1
  covered := by
    intro line member
    have passed := checkLines_eq_ok_iff.mp checked line (List.mem_toArray.mp member)
    exact (RuleLine.check_eq_ok_iff.mp passed).2
  scored := by
    intro line member
    exact written.scored line (List.mem_toArray.mp member)
  ranked := by
    intro kind
    have distinct : lines.Pairwise fun line other => line.number ≠ other.number :=
      written.increasing.imp Std.ne_of_lt
    change Ranks lines.toArray kind ((PerKind.ofFn (ranking lines)).get kind)
    rw [PerKind.get_ofFn]
    exact ranks_ranking distinct

/-- Well formed rule sets are those that numbered lines make, which pass their checks, with the
ranking that such lines are given. -/
theorem wellFormed_iff_exists_ofLines {rules : RuleSet} :
    rules.WellFormed ↔
      ∃ lines defaults, LinesBetween 1 (2 ^ 32) lines ∧ checkLines defaults lines = .ok () ∧
        rules = .ofLines lines defaults := by
  constructor
  · intro wellFormed
    refine ⟨rules.lines.toList, rules.defaults, ⟨wellFormed.increasing, ?_, ?_⟩, ?_, ?_⟩
    · intro line member
      have numbered := wellFormed.numbered line (Array.mem_def.mpr member)
      exact ⟨UInt32.le_iff_toNat_le.mp numbered, line.number.toNat_lt⟩
    · intro line member
      exact wellFormed.scored line (Array.mem_def.mpr member)
    · refine checkLines_eq_ok_iff.mpr fun line member => RuleLine.check_eq_ok_iff.mpr ?_
      exact ⟨wellFormed.assigning line (Array.mem_def.mpr member),
        wellFormed.covered line (Array.mem_def.mpr member)⟩
    · have ranked : rules.ranked = .ofFn (ranking rules.lines.toList) := by
        apply PerKind.ext_get
        intro kind
        have ranks : Ranks rules.lines kind (ranking rules.lines.toList kind) :=
          ranks_ranking (wellFormed.increasing.imp Std.ne_of_lt)
        rw [PerKind.get_ofFn]
        exact (wellFormed.ranked kind).unique ranks
      rw [ofLines, ← ranked]
  · rintro ⟨lines, defaults, written, checked, rfl⟩
    exact wellFormed_ofLines written checked

/-- Every rule set is well formed, whether it was read, made step by step or restored. -/
theorem wellFormed_of_obtained {rules : RuleSet} (obtained : rules.Obtained) :
    rules.WellFormed := by
  obtain ⟨lines, defaults, written, checked, rfl⟩ := obtained.exists_ofLines
  exact wellFormed_ofLines written checked

/-- A text with a blank line, comments, and a line that is tried before earlier ones. -/
def sampleText : String :=
  "# loans\nfallback-policy: l none r hold\n\nm book: l week\n" ++
    "all: l day r queue // late\nm !map + s desk: l hour"

theorem wellFormed_of_obtained_sampleText :
    ∃ rules, ofText sampleText = .ok rules ∧ rules.ranked.get .loan = [2, 0, 1] ∧
      rules.WellFormed := by
  have compiled : ∃ rules, ofText sampleText = .ok rules ∧
      rules.ranked.get .loan = [2, 0, 1] := ⟨_, by cbv, rfl⟩
  obtain ⟨rules, read, ranked⟩ := compiled
  exact ⟨rules, read, ranked,
    wellFormed_of_obtained (.fromText sampleText (by decide +kernel) read)⟩

end Circulation.RuleSet
