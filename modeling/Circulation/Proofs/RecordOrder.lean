import Circulation.Proofs.Records
import Mathlib.Data.List.Nodup

/-!
Contract: hierarchies of the same records in another order, or of more records.

Owns:
- that more records leave the chain of every known location as it is, and so all answers for it;
- that the order of records decides neither whether they make a hierarchy nor what it knows;
- that the outcome, with its error, depends on the order of the records of each level only.

Does not own: which records make a hierarchy.
-/

namespace Circulation

theorem Traced.mono {records others : List LocationRecord} {location : String}
    {ancestors : Ancestors} (more : records ⊆ others)
    (traced : Traced records location ancestors) : Traced others location ancestors :=
  ⟨more traced.1, more traced.2.1, more traced.2.2⟩

theorem LocationRecord.Complete.of_perm {records others : List LocationRecord}
    (reordered : records.Perm others) (complete : Complete records) : Complete others := by
  have places := reordered.map place
  refine ⟨places.nodup complete.unrepeated, ?_⟩
  intro record member parent named
  exact places.mem_iff.mp (complete.supplied record (reordered.mem_iff.mpr member) parent named)

namespace RuleSet

variable {rules : RuleSet} {hierarchy other : Hierarchy} {query : Query}

/-- Of a hierarchy a resolution uses only the chain of the location that the query names. -/
theorem resolve_congr
    (same : other.ancestorsOf query.location = hierarchy.ancestorsOf query.location) :
    rules.resolveOne other query = rules.resolveOne hierarchy query ∧
      rules.resolveAll other query = rules.resolveAll hierarchy query := by
  constructor
  · rw [resolveOne, resolveOne, same]
  · rw [resolveAll, resolveAll, same]

end RuleSet

namespace Hierarchy

open LocationRecord

variable {records others : List LocationRecord} {hierarchy other : Hierarchy}

theorem nodup_chains (built : build records = .ok hierarchy) : hierarchy.chains.Nodup := by
  obtain ⟨linked, rfl⟩ := build_eq_ok_iff.mp built
  exact .of_map Prod.fst (LevelRecords.nodup_keys_chains linked)

/-- The chain of a known location stays the same when there are more records. -/
theorem ancestorsOf_of_subset (more : records ⊆ others) (built : build records = .ok hierarchy)
    (otherBuilt : build others = .ok other) {location : String}
    (known : hierarchy.contains location = true) :
    other.ancestorsOf location = hierarchy.ancestorsOf location := by
  obtain ⟨ancestors, found⟩ := Option.isSome_iff_exists.mp known
  have traced := (ancestors?_eq_some_iff built).mp found
  rw [ancestorsOf, ancestorsOf, found, (ancestors?_eq_some_iff otherBuilt).mpr (traced.mono more)]

theorem ancestors?_of_perm (reordered : records.Perm others) (built : build records = .ok hierarchy)
    (otherBuilt : build others = .ok other) (location : String) :
    other.ancestors? location = hierarchy.ancestors? location := by
  refine Option.ext fun ancestors => ?_
  rw [ancestors?_eq_some_iff built, ancestors?_eq_some_iff otherBuilt]
  exact ⟨.mono reordered.symm.subset, .mono reordered.subset⟩

theorem chains_perm_of_perm (reordered : records.Perm others)
    (built : build records = .ok hierarchy) (otherBuilt : build others = .ok other) :
    hierarchy.chains.Perm other.chains := by
  rw [List.perm_ext_iff_of_nodup (nodup_chains built) (nodup_chains otherBuilt)]
  rintro ⟨location, ancestors⟩
  rw [mem_chains_iff built, mem_chains_iff otherBuilt]
  exact ⟨.mono reordered.subset, .mono reordered.symm.subset⟩

/-- Records are built from level by level. -/
theorem build_of_atLevel (same : ∀ level, atLevel others level = atLevel records level) :
    build others = build records := by
  rw [build, build]
  simp only [LevelRecords.ofRecords_eq, same]

/-- Two lists of records make hierarchies that agree as far as they should: more records change
nothing for the locations that are known, another order changes nothing at all, and an order that is
kept inside each level does not change the reported error either. -/
theorem build_of_subset_of_perm_of_atLevel (records others : List LocationRecord) :
    (records ⊆ others → ∀ hierarchy other, build records = .ok hierarchy →
      build others = .ok other → ∀ location, hierarchy.contains location = true →
        other.ancestorsOf location = hierarchy.ancestorsOf location ∧
        ∀ (rules : RuleSet) (query : Query), query.location = location →
          rules.resolveOne other query = rules.resolveOne hierarchy query ∧
          rules.resolveAll other query = rules.resolveAll hierarchy query) ∧
      (records.Perm others →
        ((∃ hierarchy, build records = .ok hierarchy) ↔ ∃ other, build others = .ok other) ∧
        ∀ hierarchy other, build records = .ok hierarchy → build others = .ok other →
          (∀ location, other.ancestors? location = hierarchy.ancestors? location) ∧
          hierarchy.chains.Perm other.chains) ∧
      ((∀ level, atLevel others level = atLevel records level) → build others = build records) := by
  refine ⟨?_, ?_, build_of_atLevel⟩
  · intro more hierarchy other built otherBuilt location known
    have same := ancestorsOf_of_subset more built otherBuilt known
    refine ⟨same, ?_⟩
    rintro rules query rfl
    exact RuleSet.resolve_congr same
  · intro reordered
    refine ⟨?_, ?_⟩
    · rw [builds_iff_complete, builds_iff_complete]
      exact ⟨.of_perm reordered, .of_perm reordered.symm⟩
    · intro hierarchy other built otherBuilt
      exact ⟨ancestors?_of_perm reordered built otherBuilt,
        chains_perm_of_perm reordered built otherBuilt⟩

theorem build_of_subset_of_perm_of_atLevel_sampleRecords :
    (∃ hierarchy other, build sampleRecords = .ok hierarchy ∧
      build (.location "desk" "main" :: sampleRecords) = .ok other ∧
      hierarchy.contains "hall" = true ∧ other.ancestorsOf "hall" = hierarchy.ancestorsOf "hall") ∧
      (∃ hierarchy other, build sampleRecords = .ok hierarchy ∧
        build sampleRecords.reverse = .ok other ∧ hierarchy ≠ other ∧
        hierarchy.chains.Perm other.chains) ∧
      build unfitRecords = .error (.unknownParent .library "main" "east") ∧
      build (Level.all.flatMap (atLevel unfitRecords)) =
        .error (.unknownParent .library "main" "east") := by
  have failed : build unfitRecords = .error (.unknownParent .library "main" "east") := by decide
  refine ⟨?_, ?_, failed, ?_⟩
  · have known :
        Hierarchy.contains ⟨(LevelRecords.ofRecords sampleRecords).chains⟩ "hall" = true := by
      decide
    have stays := (build_of_subset_of_perm_of_atLevel sampleRecords
      (.location "desk" "main" :: sampleRecords)).1 (List.subset_cons_self _ _)
    exact ⟨_, _, rfl, rfl, known, (stays _ _ rfl rfl "hall" known).1⟩
  · have agrees := (build_of_subset_of_perm_of_atLevel sampleRecords
      sampleRecords.reverse).2.1 sampleRecords.reverse_perm.symm
    exact ⟨_, _, rfl, rfl, by decide, (agrees.2 _ _ rfl rfl).2⟩
  · rw [← failed]
    apply (build_of_subset_of_perm_of_atLevel unfitRecords
      (Level.all.flatMap (atLevel unfitRecords))).2.2
    intro level
    cases level <;> decide

end Hierarchy

end Circulation
