import Circulation.Rule.RuleSet
import Mathlib.Data.List.Basic

/-!
Contract: the order in which the lines of a kind are tried.

Owns:
- the strict order of lines, by specificity and then by number;
- that a ranking has the position of every line of its kind exactly once, the strongest line first.

Does not own: where the numbers of lines come from, or which lines accept a query.
-/

namespace Circulation

/-! ## The order of lines -/

namespace RuleLine

/-- A line is tried strictly before another: it is more specific, or as specific and written
later. -/
def Outranks (line other : RuleLine) : Prop :=
  other.specificity < line.specificity ∨
    line.specificity = other.specificity ∧ other.number < line.number

theorem precedes_iff {line other : RuleLine} :
    line.precedes other = true ↔
      other.specificity < line.specificity ∨
        line.specificity = other.specificity ∧ other.number ≤ line.number := by
  simp [precedes]

theorem precedes_trans {first second third : RuleLine}
    (left : first.precedes second = true) (right : second.precedes third = true) :
    first.precedes third = true := by
  rw [precedes_iff] at left right ⊢
  simp only [UInt8.lt_iff_toNat_lt, UInt32.le_iff_toNat_le, ← UInt8.toNat_inj] at left right ⊢
  omega

theorem precedes_total (line other : RuleLine) :
    (line.precedes other || other.precedes line) = true := by
  rw [Bool.or_eq_true, precedes_iff, precedes_iff]
  simp only [UInt8.lt_iff_toNat_lt, UInt32.le_iff_toNat_le, ← UInt8.toNat_inj]
  omega

theorem outranks_of_precedes {line other : RuleLine}
    (before : line.precedes other = true) (distinct : line.number ≠ other.number) :
    line.Outranks other := by
  rcases precedes_iff.mp before with more | ⟨same, later⟩
  · exact Or.inl more
  · exact Or.inr ⟨same, Std.lt_of_le_of_ne later (Ne.symm distinct)⟩

theorem Outranks.asymm {line other : RuleLine}
    (before : line.Outranks other) : ¬other.Outranks line := by
  unfold Outranks at *
  simp only [UInt8.lt_iff_toNat_lt, UInt32.lt_iff_toNat_lt, ← UInt8.toNat_inj] at *
  omega

/-- Sorting lines by the order in which they are tried leaves no line before a stronger one. -/
theorem pairwise_mergeSort_precedes (lines : List RuleLine) :
    (lines.mergeSort precedes).Pairwise fun line other => line.precedes other = true := by
  apply List.pairwise_mergeSort
  · intro first second third
    exact precedes_trans
  · exact precedes_total

/-- Lines with distinct numbers leave the sort in strict order. -/
theorem pairwise_mergeSort_outranks {lines : List RuleLine}
    (distinct : lines.Pairwise fun line other => line.number ≠ other.number) :
    (lines.mergeSort precedes).Pairwise Outranks := by
  have apart : (lines.mergeSort precedes).Pairwise fun line other =>
      line.number ≠ other.number :=
    distinct.perm (List.mergeSort_perm lines precedes).symm Ne.symm
  exact ((pairwise_mergeSort_precedes lines).and apart).imp fun both =>
    outranks_of_precedes both.1 both.2

/-- Lines with distinct numbers may be left out before sorting as well as after. -/
theorem filter_mergeSort_precedes {lines : List RuleLine}
    (distinct : lines.Pairwise fun line other => line.number ≠ other.number)
    (keep : RuleLine → Bool) :
    (lines.mergeSort precedes).filter keep = (lines.filter keep).mergeSort precedes := by
  have perm : ((lines.mergeSort precedes).filter keep).Perm
      ((lines.filter keep).mergeSort precedes) :=
    ((List.mergeSort_perm lines precedes).filter keep).trans (List.mergeSort_perm _ _).symm
  have strict := (pairwise_mergeSort_outranks distinct).filter keep
  have otherStrict := pairwise_mergeSort_outranks (distinct.filter keep)
  exact perm.eq_of_pairwise (fun _ _ _ _ before after => absurd after before.asymm) strict
    otherStrict

end RuleLine

/-! ## Rankings -/

/-- The positions at which lines of a kind stand, each listed once, with the line that is tried
first in front. -/
structure Ranks (lines : Array RuleLine) (kind : PolicyKind) (positions : List Nat) : Prop where
  mem_iff : ∀ position, position ∈ positions ↔
    ∃ inRange : position < lines.size, lines[position].policies.contains kind = true
  nodup : positions.Nodup
  descending : positions.Pairwise fun earlier later =>
    ∃ (earlierInRange : earlier < lines.size) (laterInRange : later < lines.size),
      lines[earlier].Outranks lines[later]

/-- Lines have at most one such list of positions for each kind. -/
theorem Ranks.unique {lines : Array RuleLine} {kind : PolicyKind} {positions others : List Nat}
    (ranks : Ranks lines kind positions) (otherRanks : Ranks lines kind others) :
    positions = others := by
  have perm : positions.Perm others := by
    refine (List.perm_ext_iff_of_nodup ranks.nodup otherRanks.nodup).mpr ?_
    intro position
    rw [ranks.mem_iff, otherRanks.mem_iff]
  refine perm.eq_of_pairwise ?_ ranks.descending otherRanks.descending
  rintro position other _ _ ⟨_, _, before⟩ ⟨_, _, after⟩
  exact absurd after before.asymm

/-- The lines of a kind with their positions, in the order in which they are tried. -/
def rankedEntries (lines : List RuleLine) (kind : PolicyKind) : List (RuleLine × Nat) :=
  (lines.zipIdx.filter fun entry => entry.1.policies.contains kind).mergeSort
    fun entry other => entry.1.precedes other.1

section Entries

variable {lines : List RuleLine} {kind : PolicyKind}

theorem ranking_eq_map_rankedEntries :
    ranking lines kind = (rankedEntries lines kind).map Prod.snd :=
  rfl

theorem mem_rankedEntries {entry : RuleLine × Nat} :
    entry ∈ rankedEntries lines kind ↔
      lines[entry.2]? = some entry.1 ∧ entry.1.policies.contains kind = true := by
  rw [rankedEntries, List.mem_mergeSort, List.mem_filter, List.mem_zipIdx_iff_getElem?]

theorem mem_ranking {position : Nat} :
    position ∈ ranking lines kind ↔
      ∃ line, lines[position]? = some line ∧ line.policies.contains kind = true := by
  simp only [ranking_eq_map_rankedEntries, List.mem_map, mem_rankedEntries, Prod.exists]
  constructor
  · rintro ⟨line, _, found, rfl⟩
    exact ⟨line, found⟩
  · rintro ⟨line, found⟩
    exact ⟨line, position, found, rfl⟩

theorem nodup_ranking : (ranking lines kind).Nodup := by
  have perm : (ranking lines kind).Perm
      ((lines.zipIdx.filter fun entry => entry.1.policies.contains kind).map Prod.snd) :=
    (List.mergeSort_perm _ _).map Prod.snd
  rw [perm.nodup_iff]
  have positions : lines.zipIdx.map Prod.snd = List.range lines.length := by
    rw [List.zipIdx_map_snd, List.range_eq_range']
  have kept : ((lines.zipIdx.filter fun entry => entry.1.policies.contains kind).map
      Prod.snd).Sublist (List.range lines.length) := by
    rw [← positions]
    exact List.filter_sublist.map Prod.snd
  exact kept.nodup List.nodup_range

/-- Lines in the order they are tried are the lines of the kind, sorted. -/
theorem map_fst_rankedEntries :
    (rankedEntries lines kind).map Prod.fst =
      (lines.filter fun line => line.policies.contains kind).mergeSort RuleLine.precedes := by
  unfold rankedEntries
  rw [List.map_mergeSort fun entry _ other _ =>
    show entry.1.precedes other.1 = RuleLine.precedes entry.1 other.1 from rfl]
  congr 1
  have unzipped : lines.zipIdx.map Prod.fst = lines := List.zipIdx_map_fst 0 lines
  conv => rhs; rw [← unzipped]
  rw [List.filter_map]
  rfl

theorem pairwise_outranks_rankedEntries
    (distinct : lines.Pairwise fun line other => line.number ≠ other.number) :
    (rankedEntries lines kind).Pairwise fun entry other => entry.1.Outranks other.1 := by
  rw [← List.pairwise_map, map_fst_rankedEntries]
  exact RuleLine.pairwise_mergeSort_outranks (distinct.filter _)

/-- The lines that a ranking points to are all the lines of the kind, sorted. -/
theorem rankedLines_ofLines (defaults : PolicyMap) :
    (RuleSet.ofLines lines defaults).rankedLines kind =
      (lines.filter fun line => line.policies.contains kind).mergeSort RuleLine.precedes := by
  rw [RuleSet.rankedLines, RuleSet.ofLines, PerKind.get_ofFn, ranking_eq_map_rankedEntries,
    ← map_fst_rankedEntries, List.filterMap_map]
  apply List.filterMap_eq_map_iff_forall_eq_some.mpr
  intro entry member
  rw [Function.comp_apply, List.getElem?_toArray]
  exact (mem_rankedEntries.mp member).1

end Entries

/-! ## What a ranking holds -/

/-- The ranking of lines with distinct numbers lists the positions of a kind as demanded. -/
theorem ranks_ranking {lines : List RuleLine} {kind : PolicyKind}
    (distinct : lines.Pairwise fun line other => line.number ≠ other.number) :
    Ranks lines.toArray kind (ranking lines kind) where
  mem_iff position := by
    rw [mem_ranking]
    constructor
    · rintro ⟨line, found, assigns⟩
      obtain ⟨inRange, rfl⟩ := List.getElem?_eq_some_iff.mp found
      exact ⟨inRange, assigns⟩
    · rintro ⟨inRange, assigns⟩
      exact ⟨lines[position], List.getElem?_eq_getElem inRange, assigns⟩
  nodup := nodup_ranking
  descending := by
    rw [ranking_eq_map_rankedEntries, List.pairwise_map]
    have strict : (rankedEntries lines kind).Pairwise fun entry other =>
        entry.1.Outranks other.1 := pairwise_outranks_rankedEntries distinct
    refine strict.imp_of_mem fun {entry other} member otherMember before => ?_
    obtain ⟨inRange, same⟩ := List.getElem?_eq_some_iff.mp (mem_rankedEntries.mp member).1
    obtain ⟨otherInRange, otherSame⟩ :=
      List.getElem?_eq_some_iff.mp (mem_rankedEntries.mp otherMember).1
    refine ⟨inRange, otherInRange, ?_⟩
    rw [List.getElem_toArray, List.getElem_toArray, same, otherSame]
    exact before

end Circulation
