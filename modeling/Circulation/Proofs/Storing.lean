import Circulation.Proofs.LayoutLaws
import Circulation.Proofs.Restoring
import Mathlib.Data.List.Nodup

/-!
Contract: the payloads of rule sets.

Owns:
- that the payload of a rule set is restored to it;
- that no payload restored to a rule set takes fewer bytes than the payload of that rule set.

Does not own: what surrounds a payload in a cache.

The stored form of a set of ids has each id once, and that of a rule set has no digest unless there
is a rule text; a payload that is restored to the same rule set may repeat ids and have a digest.
-/

namespace Circulation.Cache

open Codec

/-! ## Stored forms -/

theorem StoredCondition.Same.refl (stored : StoredCondition) : stored.Same stored := by
  cases stored with
  | any => exact .any
  | isIn ids => exact .isIn fun _ => Iff.rfl
  | notIn ids => exact .notIn fun _ => Iff.rfl

theorem StoredLine.Same.refl (stored : StoredLine) : stored.Same stored :=
  ⟨rfl, List.forall₂_same.mpr fun condition _ => .refl condition, .refl _⟩

namespace Payload

/-- The digest is not kept in a rule set. -/
theorem same_ofRuleSet (rules : RuleSet) (digest other : Option Digest) :
    (ofRuleSet rules digest).Same (ofRuleSet rules other) :=
  ⟨rfl, .refl _, List.forall₂_same.mpr fun line _ => .refl line, rfl⟩

/-- The payload of checked lines with their rankings is restored to them, whatever its digest. -/
theorem toRuleSet_ofRuleSet {lines : List RuleLine} {defaults : PolicyMap}
    (written : LinesBetween 1 (2 ^ 32) lines) (checked : checkLines defaults lines = .ok ())
    (digest : Option Digest) :
    (ofRuleSet (.ofLines lines defaults) digest).toRuleSet = .ok (.ofLines lines defaults) :=
  toRuleSet_eq_ok_iff.mpr
    ⟨lines, defaults, written, checked, rfl, same_ofRuleSet _ digest none⟩

/-- The rankings of a rule set name positions of its lines only. -/
theorem rankings_inRange {lines : List RuleLine} {kindRanking : List Nat}
    (member : kindRanking ∈ (PerKind.ofFn (ranking lines)).toList) :
    ∀ position ∈ kindRanking, position < lines.length := by
  have named : ∃ kind, kindRanking = ranking lines kind := by
    simp only [PerKind.ofFn, PerKind.toList, List.mem_cons, List.not_mem_nil, or_false] at member
    rcases member with isLoan | isRequest | isNotice
    · exact ⟨_, isLoan⟩
    · exact ⟨_, isRequest⟩
    · exact ⟨_, isNotice⟩
  obtain ⟨kind, rfl⟩ := named
  intro position positionMember
  obtain ⟨entry, entryMember, rfl⟩ := List.mem_map.mp positionMember
  exact (List.getElem?_eq_some_iff.mp (mem_rankedEntries.mp entryMember).1).1

/-! ## Sizes -/

theorem length_write_ids_le {ids : List String} {set : IdSet}
    (members : ∀ id, id ∈ ids ↔ id ∈ set.ids) :
    ((Codec.list Codec.text).write set.ids).length ≤
      ((Codec.list Codec.text).write ids).length :=
  length_write_list_le_of_subset (set.ascending.imp Std.ne_of_lt) fun id => (members id).mpr

theorem length_write_ofCondition_le {stored : StoredCondition} {condition : Condition}
    (same : stored.Same (.ofCondition condition)) :
    (conditionCodec.write (.ofCondition condition)).length ≤
      (conditionCodec.write stored).length := by
  cases condition with
  | any =>
    cases same
    exact Nat.le_refl _
  | isIn set =>
    cases same with
    | isIn members => exact Nat.add_le_add_right (length_write_ids_le members) 1
  | notIn set =>
    cases same with
    | notIn members => exact Nat.add_le_add_right (length_write_ids_le members) 1

/-- The entries of policies take no more bytes than the assignments that they are restored from. -/
theorem length_write_entries_le {stored : List (PolicyKind × String)} {policies : PolicyMap}
    (same : stored.Perm policies.entries) :
    (assignmentsCodec.write policies.entries).length ≤ (assignmentsCodec.write stored).length :=
  length_write_list_le_of_subset (.of_map _ policies.nodup_kinds) same.symm.subset

theorem length_write_ofLine_le {stored : StoredLine} {line : RuleLine}
    (same : stored.Same (ofLine line)) :
    (lineCodec.write (ofLine line)).length ≤ (lineCodec.write stored).length := by
  have conditionsShort :
      ((Codec.list conditionCodec).write (ofLine line).conditions).length ≤
        ((Codec.list conditionCodec).write stored.conditions).length := by
    apply length_write_list_le_of_forall₂
    have pointwise := List.forall₂_map_right_iff.mp same.conditions
    exact List.forall₂_map_left_iff.mpr (pointwise.flip.imp fun _ _ => length_write_ofCondition_le)
  rw [length_write_lineCodec, length_write_lineCodec, same.number]
  exact Nat.add_le_add_left
    (Nat.add_le_add conditionsShort (length_write_entries_le same.policies)) _

/-- A rule set without rule text takes no more bytes than any payload that is restored to it. -/
theorem length_write_ofRuleSet_le {payload : Payload} {rules : RuleSet}
    (restored : payload.toRuleSet = .ok rules) :
    (payloadCodec.write (ofRuleSet rules none)).length ≤ (payloadCodec.write payload).length := by
  obtain ⟨_, _, _, _, _, same⟩ := toRuleSet_eq_ok_iff.mp restored
  have linesShort :
      ((Codec.list lineCodec).write (ofRuleSet rules none).lines).length ≤
        ((Codec.list lineCodec).write payload.lines).length := by
    apply length_write_list_le_of_forall₂
    have pointwise := List.forall₂_map_right_iff.mp same.lines
    exact List.forall₂_map_left_iff.mpr (pointwise.flip.imp fun _ _ => length_write_ofLine_le)
  have digestShort : ((Codec.optional (fixed 32)).write none).length ≤
      ((Codec.optional (fixed 32)).write payload.sourceDigest).length := by
    cases payload.sourceDigest with
    | none => exact Nat.le_refl _
    | some digest => exact Nat.le_add_left 1 _
  rw [length_write_payloadCodec, length_write_payloadCodec, same.lineCount, same.rankings]
  exact Nat.add_le_add_left (Nat.add_le_add digestShort
    (Nat.add_le_add (length_write_entries_le same.defaults)
      (Nat.add_le_add_right linesShort _))) _

end Payload

end Circulation.Cache
