import Circulation.Cache.Layout
import Circulation.Proofs.CodecLaws

/-!
Contract: what more bytes at the end change of what is read.

Owns:
- stable readers, which more bytes affect only where bytes were missing;
- that chains of stable readers are stable, and that every codec of the cache format reads so;
- that of what is written for a value no proper part at the start is read.

Does not own: that what is written is read back.
-/

namespace Circulation.Cache

variable {α β : Type}

/-! ## Stable readers -/

/-- More bytes behind those that are read change nothing, unless bytes were missing: a value that
was read is read again with more bytes left over, and a fault shows again. -/
structure Stable (read : List UInt8 → Except DecodeFault (α × List UInt8)) : Prop where
  extended : ∀ {bytes rest : List UInt8} {value : α} (more : List UInt8),
    read bytes = .ok (value, rest) → read (bytes ++ more) = .ok (value, rest ++ more)
  refused : ∀ {bytes : List UInt8} {fault : DecodeFault} (more : List UInt8),
    read bytes = .error fault → fault ≠ .truncated → read (bytes ++ more) = .error fault

namespace Stable

theorem pure (value : α) : Stable fun bytes => .ok (value, bytes) where
  extended more read := by
    cases Except.ok.inj read
    rfl
  refused more failed _ := by simp at failed

theorem fail (fault : DecodeFault) :
    Stable fun _ => (.error fault : Except _ (α × List UInt8)) where
  extended more read := by simp at read
  refused more failed _ := failed

/-- A chain is stable if its first reader is, and the reader of the others is for every value that
the first may give. -/
theorem bind {read : List UInt8 → Except DecodeFault (α × List UInt8)}
    {next : α × List UInt8 → Except DecodeFault (β × List UInt8)} (first : Stable read)
    (others : ∀ value, Stable fun rest => next (value, rest)) :
    Stable fun bytes => read bytes >>= next where
  extended more whole := by
    obtain ⟨⟨value, rest⟩, firstRead, othersRead⟩ := bind_eq_ok_iff.mp whole
    exact bind_eq_ok_iff.mpr
      ⟨_, first.extended more firstRead, (others value).extended more othersRead⟩
  refused more failed enough := by
    rcases bind_eq_error_iff.mp failed with firstFailed | ⟨⟨value, rest⟩, firstRead, othersFailed⟩
    · exact bind_eq_error_iff.mpr (Or.inl (first.refused more firstFailed enough))
    · exact bind_eq_error_iff.mpr
        (Or.inr ⟨_, first.extended more firstRead, (others value).refused more othersFailed enough⟩)

/-- A reader that wants a byte is stable if it is with every first byte. -/
theorem of_head {read : List UInt8 → Except DecodeFault (α × List UInt8)}
    (empty : read [] = .error .truncated)
    (others : ∀ first, Stable fun rest => read (first :: rest)) : Stable read where
  extended {bytes rest value} more whole := by
    cases bytes with
    | nil => simp [empty] at whole
    | cons first bytes => exact (others first).extended more whole
  refused {bytes fault} more failed enough := by
    cases bytes with
    | nil =>
      rw [empty] at failed
      exact absurd (Except.error.inj failed).symm enough
    | cons first bytes => exact (others first).refused more failed enough

end Stable

namespace Codec

/-! ## Bytes and integers -/

theorem stable_take (count : Nat) : Stable (take count) := by
  induction count with
  | zero => exact .pure []
  | succ count ih =>
    refine .of_head rfl fun first => ?_
    exact ih.bind fun taken => .pure (first :: taken)

theorem fixed_read_eq_error_iff {count : Nat} {input : List UInt8} {fault : DecodeFault} :
    (fixed count).read input = .error fault ↔ take count input = .error fault := by
  unfold fixed
  simp only
  split
  · next failed => simp [failed]
  · next succeeded => simp [succeeded]

theorem stable_fixed (count : Nat) : Stable (fixed count).read where
  extended more read :=
    fixed_read_eq_ok_iff.mpr ((stable_take count).extended more (fixed_read_eq_ok_iff.mp read))
  refused more failed enough :=
    fixed_read_eq_error_iff.mpr
      ((stable_take count).refused more (fixed_read_eq_error_iff.mp failed) enough)

theorem stable_readInteger (widest : Nat) : Stable (readInteger widest) := by
  refine .of_head rfl fun first => ?_
  by_cases small : first ≤ 250
  · simp only [readInteger, small, if_true]
    exact .pure first.toNat
  · simp only [readInteger, small, if_false]
    cases (markerWidth? first).filter fun width => width ≤ widest with
    | none => exact .fail .wrongIntegerMarker
    | some width => exact (stable_take width).bind fun taken => .pure (ofLittleEndian taken)

theorem stable_natural : Stable natural.read :=
  stable_readInteger 8

theorem stable_word : Stable word.read :=
  (stable_readInteger 4).bind fun value => .pure (UInt32.ofNat value)

/-! ## Texts, options, pairs and lists -/

theorem stable_text : Stable text.read := by
  refine (stable_readInteger 8).bind fun count => (stable_take count).bind fun encoded => ?_
  dsimp only
  cases ofUtf8? encoded with
  | none => exact .fail .malformedText
  | some value => exact .pure value

variable {codec : Codec α}

theorem stable_optional (stable : Stable codec.read) : Stable (optional codec).read := by
  refine .of_head rfl fun marker => ?_
  by_cases absent : marker = 0
  · simp only [optional, absent, if_true]
    exact .pure none
  · by_cases present : marker = 1
    · subst present
      exact stable.bind fun value => .pure (some value)
    · simp only [optional, absent, present, if_false]
      exact .fail .wrongOptionMarker

theorem stable_via {restore : α → β} {store : β → α} (stable : Stable codec.read) :
    Stable (codec.via restore store).read :=
  stable.bind fun stored => .pure (restore stored)

theorem stable_pair {second : Codec β} (left : Stable codec.read) (right : Stable second.read) :
    Stable (codec.pair second).read :=
  left.bind fun leftValue => right.bind fun rightValue => .pure (leftValue, rightValue)

theorem stable_readMany (stable : Stable codec.read) (count : Nat) :
    Stable (readMany codec.read count) := by
  induction count with
  | zero => exact .pure []
  | succ count ih => exact stable.bind fun value => ih.bind fun values => .pure (value :: values)

theorem stable_list (stable : Stable codec.read) : Stable (list codec).read :=
  (stable_readInteger 8).bind (stable_readMany stable)

/-! ## Parts of what is written -/

/-- Of what is written for a value nothing is read before its last byte is there. -/
theorem Recovers.truncated {value : α} (recovers : codec.Recovers value)
    (stable : Stable codec.read) {part : List UInt8} (inside : part <+: codec.write value)
    (proper : part ≠ codec.write value) : codec.read part = .error .truncated := by
  obtain ⟨more, whole⟩ := inside
  have nonempty : more ≠ [] := by
    rintro rfl
    exact proper (by simpa using whole)
  have wholeRead : codec.read (part ++ more) = .ok (value, []) := by
    rw [whole]
    simpa using recovers []
  cases partRead : codec.read part with
  | ok result =>
    obtain ⟨other, rest⟩ := result
    rw [stable.extended more partRead] at wholeRead
    simp [nonempty] at wholeRead
  | error fault =>
    by_contra enough
    have again := stable.refused more partRead fun same => enough (by rw [same])
    simp [again] at wholeRead

end Codec

/-! ## Payloads -/

open Codec

theorem stable_kindCodec : Stable kindCodec.read := by
  refine (stable_readInteger 4).bind fun variant => ?_
  dsimp only
  cases PolicyKind.all[variant]? with
  | none => exact .fail .unknownVariant
  | some kind => exact .pure kind

theorem stable_conditionCodec : Stable conditionCodec.read := by
  have idsStable : Stable (Codec.list Codec.text).read := stable_list stable_text
  refine (stable_readInteger 4).bind fun variant => ?_
  rcases variant with _ | _ | _ | variant
  · exact .pure StoredCondition.any
  · exact idsStable.bind fun ids => .pure (StoredCondition.isIn ids)
  · exact idsStable.bind fun ids => .pure (StoredCondition.notIn ids)
  · exact .fail .unknownVariant

theorem stable_assignmentsCodec : Stable assignmentsCodec.read :=
  stable_list (stable_pair stable_kindCodec stable_text)

theorem stable_lineCodec : Stable lineCodec.read :=
  stable_via (stable_pair stable_word
    (stable_pair (stable_list stable_conditionCodec) stable_assignmentsCodec))

theorem stable_payloadCodec : Stable payloadCodec.read :=
  stable_via (stable_pair stable_natural
    (stable_pair (stable_optional (stable_fixed 32))
      (stable_pair stable_assignmentsCodec
        (stable_pair (stable_list stable_lineCodec) (stable_list (stable_list stable_natural))))))

end Circulation.Cache
