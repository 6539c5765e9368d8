import Circulation.Proofs.Restoring
import Circulation.Proofs.WellFormed

/-!
Contract: which payloads are accepted.

Owns:
- what holds of an accepted payload, apart from any rule set;
- that the accepted payloads are those that say the same as the stored form of a well formed rule
  set, and that they are restored to it.

Does not own: the faults of other payloads, or the bytes of payloads.
-/

namespace Circulation.Cache

/-- The stored line assigns a kind. -/
def StoredLine.Assigns (stored : StoredLine) (kind : PolicyKind) : Prop :=
  kind ∈ stored.policies.map Prod.fst

namespace Payload

/-- What holds of an accepted payload: it states its number of lines; these stand in the order of
their numbers, which are not 0, with a condition for each facet; each assigns something, no kind
twice, and only kinds with a default; no kind has two defaults; and each kind has the positions of
its lines, each once, for a ranking. -/
structure Sound (payload : Payload) : Prop where
  counted : payload.lineCount = payload.lines.length
  numbered : ∀ stored ∈ payload.lines, stored.number ≠ 0
  increasing : payload.lines.Pairwise fun earlier later => earlier.number < later.number
  conditions : ∀ stored ∈ payload.lines, stored.conditions.length = 7
  assigning : ∀ stored ∈ payload.lines, stored.policies ≠ []
  unrepeated : ∀ stored ∈ payload.lines, (stored.policies.map Prod.fst).Nodup
  declared : (payload.defaults.map Prod.fst).Nodup
  covered : ∀ stored ∈ payload.lines, ∀ kind, stored.Assigns kind →
    kind ∈ payload.defaults.map Prod.fst
  ranked : List.Forall₂ (fun kind positions => positions.Nodup ∧
      ∀ position, position ∈ positions ↔
        ∃ stored, payload.lines[position]? = some stored ∧ stored.Assigns kind)
    PolicyKind.all payload.rankings

/-! ## Lines of accepted payloads -/

section Lines

variable {stored : List StoredLine} {lines : List RuleLine}

/-- Lines and what is stored of them agree in what the stored form shows. -/
theorem map_eq_of_same {γ : Type} {shown : StoredLine → γ} {has : RuleLine → γ}
    (agree : ∀ {stored line}, stored.Same (ofLine line) → shown stored = has line)
    (same : List.Forall₂ StoredLine.Same stored (lines.map ofLine)) :
    stored.map shown = lines.map has := by
  rw [← List.forall₂_eq_eq_eq, List.forall₂_map_left_iff, List.forall₂_map_right_iff]
  exact (List.forall₂_map_right_iff.mp same).imp fun _ _ => agree

/-- Every stored line is the stored form of a line. -/
theorem exists_same_of_mem (same : List.Forall₂ StoredLine.Same stored (lines.map ofLine)) :
    ∀ entry ∈ stored, ∃ line ∈ lines, entry.Same (ofLine line) := by
  intro entry member
  obtain ⟨position, bound, rfl⟩ := List.mem_iff_getElem.mp member
  have lineBound : position < lines.length := by
    rwa [same.length_eq, List.length_map] at bound
  have here := (List.forall₂_map_right_iff.mp same).get bound lineBound
  exact ⟨lines[position], List.getElem_mem lineBound, here⟩

end Lines

theorem assigns_iff_of_same {stored : StoredLine} {line : RuleLine}
    (same : stored.Same (ofLine line)) (kind : PolicyKind) :
    stored.Assigns kind ↔ line.policies.contains kind = true := by
  rw [← PolicyMap.mem_kinds]
  exact (same.policies.map Prod.fst).mem_iff

/-- A position is that of a stored line of a kind exactly if it is ranked for the kind. -/
theorem mem_ranking_iff_of_same {stored : List StoredLine} {lines : List RuleLine}
    (same : List.Forall₂ StoredLine.Same stored (lines.map ofLine)) (kind : PolicyKind)
    (position : Nat) :
    position ∈ ranking lines kind ↔
      ∃ entry, stored[position]? = some entry ∧ entry.Assigns kind := by
  have kinds : stored.map (fun entry => entry.Assigns kind) =
      lines.map fun line => line.policies.contains kind = true :=
    map_eq_of_same (fun same => propext (assigns_iff_of_same same kind)) same
  have holdsAt {γ : Type} (list : List γ) (property : γ → Prop) :
      (∃ entry, list[position]? = some entry ∧ property entry) ↔
        (list.map property)[position]? = some True := by
    simp [Option.map_eq_some_iff]
  rw [mem_ranking, holdsAt, holdsAt, kinds]

/-! ## Accepted payloads -/

/-- What says the same as the stored form of a well formed rule set is sound. -/
theorem sound_of_same {payload : Payload} {lines : List RuleLine} {defaults : PolicyMap}
    (written : LinesBetween 1 (2 ^ 32) lines) (checked : checkLines defaults lines = .ok ())
    (same : payload.Same (ofRuleSet (.ofLines lines defaults) none)) : payload.Sound := by
  have linesSame : List.Forall₂ StoredLine.Same payload.lines (lines.map ofLine) := same.lines
  have passed : ∀ line ∈ lines, (∃ kind, line.policies.contains kind = true) ∧
      ∀ kind, line.policies.contains kind = true → defaults.contains kind = true :=
    fun line member => RuleLine.check_eq_ok_iff.mp (checkLines_eq_ok_iff.mp checked line member)
  constructor
  case counted =>
    rw [same.lineCount, linesSame.length_eq]
    exact (List.length_map _).symm
  case numbered =>
    intro stored member zero
    obtain ⟨line, lineMember, sameLine⟩ := exists_same_of_mem linesSame stored member
    have positive := (written.bounds line lineMember).1
    rw [← show stored.number = line.number from sameLine.number, zero] at positive
    exact absurd positive (by decide)
  case increasing =>
    have numbers : payload.lines.map StoredLine.number = lines.map RuleLine.number :=
      map_eq_of_same (fun same => same.number) linesSame
    rw [← List.pairwise_map (f := StoredLine.number), numbers, List.pairwise_map]
    exact written.increasing
  case conditions =>
    intro stored member
    obtain ⟨line, _, sameLine⟩ := exists_same_of_mem linesSame stored member
    rw [sameLine.conditions.length_eq]
    rfl
  case assigning =>
    intro stored member
    obtain ⟨line, lineMember, sameLine⟩ := exists_same_of_mem linesSame stored member
    obtain ⟨kind, assigns⟩ := (passed line lineMember).1
    intro empty
    have listed := (assigns_iff_of_same sameLine kind).mpr assigns
    simp [StoredLine.Assigns, empty] at listed
  case unrepeated =>
    intro stored member
    obtain ⟨line, _, sameLine⟩ := exists_same_of_mem linesSame stored member
    exact (sameLine.policies.map Prod.fst).nodup_iff.mpr line.policies.nodup_kinds
  case declared =>
    exact (same.defaults.map Prod.fst).nodup_iff.mpr defaults.nodup_kinds
  case covered =>
    intro stored member kind assigns
    obtain ⟨line, lineMember, sameLine⟩ := exists_same_of_mem linesSame stored member
    have has := (passed line lineMember).2 kind ((assigns_iff_of_same sameLine kind).mp assigns)
    exact (same.defaults.map Prod.fst).mem_iff.mpr (PolicyMap.mem_kinds.mpr has)
  case ranked =>
    have rankings : payload.rankings = PolicyKind.all.map (ranking lines) := same.rankings
    rw [rankings, List.forall₂_map_right_iff, List.forall₂_same]
    exact fun kind _ => ⟨nodup_ranking, mem_ranking_iff_of_same linesSame kind⟩

/-- With its other parts, a payload is accepted with one list of rankings at most. -/
theorem rankings_unique {payload : Payload} {rankings : List (List Nat)} {rules others : RuleSet}
    (restored : payload.toRuleSet = .ok rules)
    (restoredOthers : { payload with rankings := rankings }.toRuleSet = .ok others) :
    rankings = payload.rankings := by
  obtain ⟨_, _, lines, _, linesRestored, _, ranked, _⟩ := toRuleSet_eq_ok_iff_parts.mp restored
  obtain ⟨_, _, otherLines, _, othersRestored, _, othersRanked, _⟩ :=
    toRuleSet_eq_ok_iff_parts.mp restoredOthers
  have sameLines : lines = otherLines := Except.ok.inj (linesRestored.symm.trans othersRestored)
  rw [ranked, sameLines]
  exact othersRanked

/-- A payload is restored to a rule set exactly if that is well formed and the payload says the same
as its stored form; a payload that is so for no rule set is refused as invalid. The rankings of the
rule set are those of its lines. An accepted payload is sound, and with other rankings it would not
be accepted. -/
theorem toRuleSet_eq_ok_iff_same_ofRuleSet (payload : Payload) :
    (∀ rules, payload.toRuleSet = .ok rules ↔
      rules.WellFormed ∧ payload.Same (ofRuleSet rules none)) ∧
    ((∀ rules, ¬(rules.WellFormed ∧ payload.Same (ofRuleSet rules none))) →
      ∃ fault, payload.toRuleSet.mapError CacheError.invalid = .error (.invalid fault)) ∧
    ∀ rules, payload.toRuleSet = .ok rules →
      rules.ranked = .ofFn (ranking rules.lines.toList) ∧ payload.Sound ∧
        ∀ rankings, rankings ≠ payload.rankings →
          ∃ fault, { payload with rankings := rankings }.toRuleSet = .error fault := by
  have accepted : ∀ rules, payload.toRuleSet = .ok rules ↔
      rules.WellFormed ∧ payload.Same (ofRuleSet rules none) := by
    intro rules
    rw [toRuleSet_eq_ok_iff, RuleSet.wellFormed_iff_exists_ofLines]
    constructor
    · rintro ⟨lines, defaults, written, checked, rfl, same⟩
      exact ⟨⟨lines, defaults, written, checked, rfl⟩, same⟩
    · rintro ⟨⟨lines, defaults, written, checked, rfl⟩, same⟩
      exact ⟨lines, defaults, written, checked, rfl, same⟩
  refine ⟨accepted, ?_, ?_⟩
  · intro unlike
    cases restored : payload.toRuleSet with
    | ok rules => exact absurd ((accepted rules).mp restored) (unlike rules)
    | error fault => exact ⟨fault, rfl⟩
  · intro rules restored
    obtain ⟨lines, defaults, written, checked, rfl, same⟩ := toRuleSet_eq_ok_iff.mp restored
    refine ⟨rfl, sound_of_same written checked same, ?_⟩
    intro rankings distinct
    cases restoredOthers : { payload with rankings := rankings }.toRuleSet with
    | ok others => exact absurd (rankings_unique restored restoredOthers) distinct
    | error fault => exact ⟨fault, rfl⟩

/-- A payload that repeats ids and has its assignments out of order. -/
def samplePayload : Payload where
  lineCount := 2
  sourceDigest := none
  defaults := [(.request, "hold"), (.loan, "none")]
  lines :=
    [⟨2, [.isIn ["map", "", "map"], .any, .any, .any, .any, .notIn [], .any],
        [(.request, "queue"), (.loan, "week")]⟩,
      ⟨7, [.any, .any, .any, .any, .any, .any, .any], [(.loan, "day")]⟩]
  rankings := [[0, 1], [0], []]

theorem toRuleSet_eq_ok_iff_same_ofRuleSet_samplePayload :
    ∃ rules, samplePayload.toRuleSet = .ok rules ∧ rules.WellFormed ∧
      samplePayload.Same (ofRuleSet rules none) ∧ samplePayload ≠ ofRuleSet rules none ∧
      samplePayload.Sound ∧
      ∃ fault, { samplePayload with rankings := [[1, 0], [0], []] }.toRuleSet = .error fault := by
  have restored : ∃ rules, samplePayload.toRuleSet = .ok rules ∧
      (ofRuleSet rules none).defaults = [(.loan, "none"), (.request, "hold")] :=
    ⟨_, by cbv, by cbv⟩
  obtain ⟨rules, accepted, reordered⟩ := restored
  obtain ⟨exactly, _, sound⟩ := toRuleSet_eq_ok_iff_same_ofRuleSet samplePayload
  obtain ⟨wellFormed, same⟩ := (exactly rules).mp accepted
  obtain ⟨_, isSound, unranked⟩ := sound rules accepted
  refine ⟨rules, accepted, wellFormed, same, ?_, isSound, unranked _ (by decide)⟩
  intro equal
  rw [← equal] at reordered
  exact absurd reordered (by decide)

end Payload

end Circulation.Cache
