import Circulation.Cache.Layout
import Circulation.Proofs.CodecLaws

/-!
Contract: what the codecs of stored values promise.

Owns:
- the laws of the codecs of kinds, conditions, assignments and rule lines;
- which payloads are read back, and that no payload grows when it is read and written again.

Does not own: the laws of numbers, texts, pairs and lists.
-/

namespace Circulation.Cache

open Codec

/-! ## Kinds and conditions -/

theorem faithful_kindCodec : kindCodec.Faithful where
  occupied kind := by cases kind <;> decide
  recovers kind _ := by
    intro rest
    cases kind <;> rfl

theorem compact_kindCodec : kindCodec.Compact := by
  intro bytes kind rest read
  obtain ⟨⟨variant, others⟩, variantRead, remaining⟩ := bind_eq_ok_iff.mp read
  simp only at remaining
  split at remaining
  · cases Except.ok.inj remaining
    have short := (readInteger_bounds (by decide) variantRead).2
    have counted := length_writeInteger_pos variant
    have single : (kindCodec.write kind).length = 1 := by cases kind <;> rfl
    omega
  · simp at remaining

theorem recovers_taggedIds {variant : Nat} {ids : List String}
    (short : (writeInteger variant ++ (Codec.list Codec.text).write ids).length < 256 ^ 8) :
    (Codec.list Codec.text).Recovers ids := by
  rw [List.length_append] at short
  exact faithful_text.list.recovers ids (by omega)

theorem faithful_conditionCodec : conditionCodec.Faithful where
  occupied condition := by cases condition <;> simp [conditionCodec, writeInteger]
  recovers condition short := by
    intro rest
    cases condition with
    | any => rfl
    | isIn ids =>
      have idsRead := recovers_taggedIds short rest
      show ((Codec.list Codec.text).read ((Codec.list Codec.text).write ids ++ rest) >>= _) = _
      rw [idsRead]
      rfl
    | notIn ids =>
      have idsRead := recovers_taggedIds short rest
      show ((Codec.list Codec.text).read ((Codec.list Codec.text).write ids ++ rest) >>= _) = _
      rw [idsRead]
      rfl

theorem compact_conditionCodec : conditionCodec.Compact := by
  intro bytes condition rest read
  obtain ⟨⟨variant, others⟩, variantRead, remaining⟩ := bind_eq_ok_iff.mp read
  have short := (readInteger_bounds (by decide) variantRead).2
  have counted := length_writeInteger_pos variant
  have idsShort : ∀ ids afterIds, (Codec.list Codec.text).read others = .ok (ids, afterIds) →
      ((Codec.list Codec.text).write ids).length + 1 + afterIds.length ≤ bytes.length := by
    intro ids afterIds idsRead
    have idsCompact := compact_text.list _ _ _ idsRead
    omega
  simp only at remaining
  split at remaining
  · cases Except.ok.inj remaining
    show 1 + rest.length ≤ bytes.length
    omega
  · obtain ⟨⟨ids, afterIds⟩, idsRead, same⟩ := bind_eq_ok_iff.mp remaining
    cases Except.ok.inj same
    exact idsShort ids afterIds idsRead
  · obtain ⟨⟨ids, afterIds⟩, idsRead, same⟩ := bind_eq_ok_iff.mp remaining
    cases Except.ok.inj same
    exact idsShort ids afterIds idsRead
  · simp at remaining

/-! ## Assignments and rule lines -/

theorem faithful_assignmentsCodec : assignmentsCodec.Faithful :=
  (faithful_kindCodec.pair faithful_text).list

theorem compact_assignmentsCodec : assignmentsCodec.Compact :=
  (compact_kindCodec.pair compact_text).list

theorem faithful_lineCodec : lineCodec.Faithful :=
  (faithful_word.pair (faithful_conditionCodec.list.pair faithful_assignmentsCodec)).via
    fun _ => rfl

theorem compact_lineCodec : lineCodec.Compact :=
  (compact_word.pair (compact_conditionCodec.list.pair compact_assignmentsCodec)).via
    fun _ => rfl

theorem length_write_lineCodec (line : StoredLine) :
    (lineCodec.write line).length =
      (word.write line.number).length +
        (((Codec.list conditionCodec).write line.conditions).length +
          (assignmentsCodec.write line.policies).length) := by
  change (word.write line.number ++ ((Codec.list conditionCodec).write line.conditions ++
    assignmentsCodec.write line.policies)).length = _
  simp only [List.length_append]

/-! ## Payloads -/

theorem compact_payloadCodec : payloadCodec.Compact :=
  (compact_natural.pair
    ((compact_fixed 32).optional.pair
      (compact_assignmentsCodec.pair
        (compact_lineCodec.list.pair compact_natural.list.list)))).via fun _ => rfl

theorem length_write_payloadCodec (payload : Payload) :
    (payloadCodec.write payload).length =
      (writeInteger payload.lineCount).length +
        (((Codec.optional (fixed 32)).write payload.sourceDigest).length +
          ((assignmentsCodec.write payload.defaults).length +
            (((Codec.list lineCodec).write payload.lines).length +
              ((Codec.list (Codec.list natural)).write payload.rankings).length))) := by
  change (writeInteger payload.lineCount ++
    ((Codec.optional (fixed 32)).write payload.sourceDigest ++
      (assignmentsCodec.write payload.defaults ++
        ((Codec.list lineCodec).write payload.lines ++
          (Codec.list (Codec.list natural)).write payload.rankings)))).length = _
  simp only [List.length_append]

/-- A payload that takes few bytes is read back, if its rankings name positions of lines only. -/
theorem recovers_payloadCodec {payload : Payload}
    (counted : payload.lineCount = payload.lines.length)
    (inRange : ∀ ranking ∈ payload.rankings, ∀ position ∈ ranking,
      position < payload.lines.length)
    (short : (payloadCodec.write payload).length < 256 ^ 8) :
    payloadCodec.Recovers payload := by
  rw [length_write_payloadCodec] at short
  have linesCounted : payload.lines.length < 256 ^ 8 := by
    have bound := length_le_length_flatMap faithful_lineCodec.occupied payload.lines
    rw [length_write_list] at short
    omega
  have rankingsRecovered : (Codec.list (Codec.list natural)).Recovers payload.rankings := by
    refine .list_of_short (length_write_list_pos natural) ?_ (by omega)
    intro ranking rankingMember rankingShort
    refine .list_of_short length_writeInteger_pos ?_ rankingShort
    intro position positionMember _
    have bound := inRange ranking rankingMember position positionMember
    exact recovers_natural (by omega)
  have linesRecovered := faithful_lineCodec.list.recovers payload.lines (by omega)
  have defaultsRecovered := faithful_assignmentsCodec.recovers payload.defaults (by omega)
  have digestRecovered : (Codec.optional (fixed 32)).Recovers payload.sourceDigest :=
    .optional fun digest _ => recovers_fixed digest
  have countRecovered : natural.Recovers payload.lineCount := recovers_natural (by omega)
  exact .via rfl
    (countRecovered.pair
      (digestRecovered.pair (defaultsRecovered.pair (linesRecovered.pair rankingsRecovered))))

end Circulation.Cache
