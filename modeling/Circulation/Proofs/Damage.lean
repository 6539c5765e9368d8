import Circulation.Proofs.RoundTrip
import Circulation.Proofs.Stability

/-!
Contract: what damaged caches are read as.

Owns:
- how the two readings of a byte string depend on the payload it is opened as;
- what a cache is read as when it is cut off, followed by more bytes, or given another header;
- that none of these is read as another rule set.

Does not own: caches whose payload is changed, which a checksum can miss.
-/

namespace Circulation.Cache

open Codec

/-! ## Readings -/

/-- A byte string is refused for the same cause whether its rule set is wanted or only the digest of
a rule text. -/
def Refused (blob : List UInt8) (cause : CacheError) : Prop :=
  toRuleSet blob = .error cause ∧ sourceDigest blob = .error cause

/-- A byte string is read as a rule set that was made from a rule text, if that is known. -/
def ReadAs (blob : List UInt8) (rules : RuleSet) (source : Option String) : Prop :=
  toRuleSet blob = .ok rules ∧
    sourceDigest blob = .ok (source.map fun text => Blake3.hash (utf8 text))

theorem refused_of_payloadOf {blob : List UInt8} {cause : CacheError}
    (failed : payloadOf blob = .error cause) : Refused blob cause := by
  constructor
  · rw [toRuleSet, failed, error_bind]
  · rw [sourceDigest, failed, error_bind]

theorem refused_of_unwrap {blob : List UInt8} {cause : CacheError}
    (failed : unwrap blob = .error cause) : Refused blob cause := by
  apply refused_of_payloadOf
  rw [payloadOf, failed, error_bind]

section Caches

variable {rules : RuleSet} {source : Option String} {blob : List UInt8}

/-- What is opened as the payload of a rule set is read as that rule set. -/
theorem readAs_of_unwrap (obtained : rules.Obtained)
    (short : (payloadBytes rules source).length < 2 ^ 32)
    (opened : unwrap blob = .ok (payloadBytes rules source)) : ReadAs blob rules source := by
  have same : payloadOf blob = payloadOf (ofRuleSet rules source) := by
    rw [payloadOf, payloadOf, opened, ofRuleSet, unwrap_wrap short]
  have kept := kept_of_obtained obtained short
  rwa [toRuleSet, sourceDigest, ← same] at kept

/-- What is opened as a part of the payload of a rule set holds no payload. -/
theorem refused_of_unwrap_part (obtained : rules.Obtained)
    (short : (payloadBytes rules source).length < 2 ^ 32) {count : Nat}
    (proper : count < (payloadBytes rules source).length)
    (opened : unwrap blob = .ok ((payloadBytes rules source).take count)) :
    Refused blob (.undecodable .truncated) := by
  obtain ⟨lines, defaults, _, _, rfl⟩ := obtained.exists_ofLines
  have shorter : (payloadBytes (.ofLines lines defaults) source).take count ≠
      payloadBytes (.ofLines lines defaults) source := by
    intro same
    have counted := congrArg List.length same
    rw [List.length_take] at counted
    omega
  have unread := (recovers_ofRuleSet short).truncated stable_payloadCodec
    (List.take_prefix count _) shorter
  apply refused_of_payloadOf
  rw [payloadOf, opened, ok_bind, payloadBytes, unread]
  rfl

/-! ## Cut off and followed by more -/

/-- A part from the start of a cache is refused for its length, that of its header before that of
its payload. -/
theorem refused_of_prefix (short : (payloadBytes rules source).length < 2 ^ 32)
    (inside : blob <+: ofRuleSet rules source) (proper : blob ≠ ofRuleSet rules source) :
    Refused blob
      (if blob.length < headerSize then .lengthMismatch headerSize blob.length
      else .lengthMismatch (payloadBytes rules source).length (blob.length - headerSize)) := by
  apply refused_of_unwrap
  split
  · next tooShort => rw [unwrap, if_pos tooShort]
  · next whole =>
    obtain ⟨rest, rfl⟩ : header (payloadBytes rules source) <+: blob :=
      List.prefix_of_prefix_length_le (List.prefix_append _ _) inside
        (by rw [length_header]; omega)
    have left : (header (payloadBytes rules source) ++ rest).length - headerSize =
        rest.length := by
      rw [List.length_append, length_header]
      omega
    have fewer : rest.length < (payloadBytes rules source).length := by
      have restInside := (List.prefix_append_right_inj _).mp inside
      apply Nat.lt_of_le_of_ne restInside.length_le
      intro sameLength
      exact proper (congrArg _ (restInside.eq_of_length sameLength))
    rw [unwrap_header_append short, if_pos fewer, left]

/-- What follows a cache is ignored. -/
theorem readAs_append (obtained : rules.Obtained)
    (short : (payloadBytes rules source).length < 2 ^ 32) (more : List UInt8) :
    ReadAs (ofRuleSet rules source ++ more) rules source := by
  apply readAs_of_unwrap obtained short
  have first : (payloadBytes rules source ++ more).take (payloadBytes rules source).length =
      payloadBytes rules source := List.take_left
  have enough : ¬ (payloadBytes rules source ++ more).length <
      (payloadBytes rules source).length := by
    rw [List.length_append]
    omega
  rw [ofRuleSet, wrap, List.append_assoc, unwrap_header_append short, if_neg enough, first]
  simp

end Caches

/-! ## Other headers -/

/-- A header says that a cache follows, in the one format there is. -/
def Recognised (head : List UInt8) : Prop :=
  field 0 4 head = magic ∧ field 4 2 head = littleEndian 2 formatVersion.toNat

/-- What the payload of a rule set is read as behind a header, whatever that states. Nothing depends
on the version of the writer or on the reserved bytes. -/
structure Reheaded (rules : RuleSet) (source : Option String) (payload head : List UInt8) :
    Prop where
  unmagical : field 0 4 head ≠ magic → Refused (head ++ payload) .badMagic
  outdated : field 0 4 head = magic → field 4 2 head ≠ littleEndian 2 formatVersion.toNat →
    Refused (head ++ payload) (.incompatibleVersion (statedVersion head))
  overlong : Recognised head → payload.length < statedSize head →
    Refused (head ++ payload) (.lengthMismatch (statedSize head) payload.length)
  mismatched : Recognised head → statedSize head = payload.length →
    statedSum head ≠ checksum payload → Refused (head ++ payload) .checksumMismatch
  intact : Recognised head → statedSize head = payload.length →
    statedSum head = checksum payload → ReadAs (head ++ payload) rules source
  shortened : Recognised head → statedSize head < payload.length →
    statedSum head ≠ checksum (payload.take (statedSize head)) →
      Refused (head ++ payload) .checksumMismatch
  /-- The first bytes of the payload have the checksum that belongs to all of it. -/
  collided : Recognised head → statedSize head < payload.length →
    statedSum head = checksum (payload.take (statedSize head)) →
      Refused (head ++ payload) (.undecodable .truncated)

theorem statedVersion_eq_iff {head : List UInt8} (whole : head.length = headerSize) :
    statedVersion head = formatVersion ↔
      field 4 2 head = littleEndian 2 formatVersion.toNat := by
  have size : (field 4 2 head).length = 2 := by
    rw [field, List.length_take, List.length_drop, whole]
    rfl
  have bound : ofLittleEndian (field 4 2 head) < UInt16.size := by
    have small := ofLittleEndian_lt (field 4 2 head)
    rwa [size] at small
  constructor
  · intro same
    have value : (statedVersion head).toNat = ofLittleEndian (field 4 2 head) :=
      UInt16.toNat_ofNat_of_lt' bound
    have restored := littleEndian_ofLittleEndian (field 4 2 head)
    rw [size] at restored
    calc field 4 2 head
      _ = littleEndian 2 (ofLittleEndian (field 4 2 head)) := restored.symm
      _ = littleEndian 2 formatVersion.toNat := by rw [← value, same]
  · intro same
    rw [statedVersion, same]
    rfl

section Headers

variable {rules : RuleSet} {source : Option String} {head : List UInt8}

theorem reheaded_of_length (obtained : rules.Obtained)
    (short : (payloadBytes rules source).length < 2 ^ 32) (whole : head.length = headerSize) :
    Reheaded rules source (payloadBytes rules source) head := by
  have opened := unwrap_append whole (payloadBytes rules source)
  have version := statedVersion_eq_iff whole
  constructor
  case unmagical =>
    intro differs
    rw [if_pos differs] at opened
    exact refused_of_unwrap opened
  case outdated =>
    intro magicSame differs
    rw [if_neg (not_not.mpr magicSame), if_pos (version.not.mpr differs)] at opened
    exact refused_of_unwrap opened
  case overlong =>
    rintro ⟨magicSame, versionSame⟩ longer
    rw [if_neg (not_not.mpr magicSame), if_neg (not_not.mpr (version.mpr versionSame)),
      if_pos longer] at opened
    exact refused_of_unwrap opened
  all_goals
    rintro ⟨magicSame, versionSame⟩ size sum
    rw [if_neg (not_not.mpr magicSame), if_neg (not_not.mpr (version.mpr versionSame)),
      if_neg (by omega)] at opened
  case mismatched =>
    rw [size, List.take_length, if_pos sum.symm] at opened
    exact refused_of_unwrap opened
  case intact =>
    rw [size, List.take_length, if_neg (not_not.mpr sum.symm)] at opened
    exact readAs_of_unwrap obtained short opened
  case shortened =>
    rw [if_pos sum.symm] at opened
    exact refused_of_unwrap opened
  case collided =>
    rw [if_neg (not_not.mpr sum.symm)] at opened
    exact refused_of_unwrap_part obtained short size opened

/-- Every header leads to a reading or to a refusal. -/
theorem Reheaded.readAs_or_refused {payload : List UInt8}
    (reheaded : Reheaded rules source payload head) :
    ReadAs (head ++ payload) rules source ∨ ∃ cause, Refused (head ++ payload) cause := by
  by_cases magicSame : field 0 4 head = magic
  · by_cases versionSame : field 4 2 head = littleEndian 2 formatVersion.toNat
    · have recognised : Recognised head := ⟨magicSame, versionSame⟩
      rcases Nat.lt_trichotomy payload.length (statedSize head) with longer | same | shorter
      · exact Or.inr ⟨_, reheaded.overlong recognised longer⟩
      · by_cases sum : statedSum head = checksum payload
        · exact Or.inl (reheaded.intact recognised same.symm sum)
        · exact Or.inr ⟨_, reheaded.mismatched recognised same.symm sum⟩
      · by_cases sum : statedSum head = checksum (payload.take (statedSize head))
        · exact Or.inr ⟨_, reheaded.collided recognised shorter sum⟩
        · exact Or.inr ⟨_, reheaded.shortened recognised shorter sum⟩
    · exact Or.inr ⟨_, reheaded.outdated magicSame versionSame⟩
  · exact Or.inr ⟨_, reheaded.unmagical magicSame⟩

end Headers

/-! ## Damaged caches -/

/-- What can become of a cache: it is cut off, more bytes follow it, or its payload stands behind
another header. -/
inductive Damaged (rules : RuleSet) (source : Option String) : List UInt8 → Prop where
  | cut {part : List UInt8} (inside : part <+: ofRuleSet rules source)
      (proper : part ≠ ofRuleSet rules source) : Damaged rules source part
  | followed (more : List UInt8) : Damaged rules source (ofRuleSet rules source ++ more)
  | reheaded {head : List UInt8} (whole : head.length = headerSize) :
      Damaged rules source (head ++ payloadBytes rules source)

/-- A cache that is cut off is refused for its length, and what follows a cache is ignored. Behind
another header its payload is refused for the first thing that is wrong with the header, or else
read as before. So a damaged cache is never read as another rule set. -/
theorem readAs_or_refused_of_damaged {rules : RuleSet} (obtained : rules.Obtained)
    {source : Option String} (short : (payloadBytes rules source).length < 2 ^ 32) :
    (∀ part, part <+: ofRuleSet rules source → part ≠ ofRuleSet rules source →
      Refused part
        (if part.length < headerSize then .lengthMismatch headerSize part.length
        else .lengthMismatch (payloadBytes rules source).length (part.length - headerSize))) ∧
    (∀ more, ReadAs (ofRuleSet rules source ++ more) rules source) ∧
    (∀ head, head.length = headerSize →
      Reheaded rules source (payloadBytes rules source) head) ∧
    ∀ blob, Damaged rules source blob → ReadAs blob rules source ∨ ∃ cause, Refused blob cause := by
  refine ⟨fun _ => refused_of_prefix short, readAs_append obtained short,
    fun _ => reheaded_of_length obtained short, ?_⟩
  intro blob damaged
  cases damaged with
  | cut inside proper => exact Or.inr ⟨_, refused_of_prefix short inside proper⟩
  | followed more => exact Or.inl (readAs_append obtained short more)
  | reheaded whole => exact (reheaded_of_length obtained short whole).readAs_or_refused

/-- A cache that is cut off in its header and in its payload, that is followed by a byte, and that
has no magic, another version, a greater length, or other bytes that are free. -/
theorem readAs_or_refused_of_damaged_sampleText :
    ∃ rules, RuleSet.ofText RuleSet.sampleText = .ok rules ∧
      Refused ((ofRuleSet rules none).take 5) (.lengthMismatch 32 5) ∧
      Refused ((ofRuleSet rules none).take 40) (.lengthMismatch 95 8) ∧
      ReadAs (ofRuleSet rules none ++ [0]) rules none ∧
      Refused (List.replicate 32 0 ++ payloadBytes rules none) .badMagic ∧
      Refused (magic ++ [2, 1] ++ List.replicate 26 0 ++ payloadBytes rules none)
        (.incompatibleVersion 258) ∧
      Refused (magic ++ [1, 0] ++ List.replicate 6 0 ++ [96, 0, 0, 0] ++ List.replicate 16 0 ++
        payloadBytes rules none) (.lengthMismatch 96 95) ∧
      ReadAs (magic ++ [1, 0] ++ List.replicate 6 255 ++ [95, 0, 0, 0] ++
        checksum (payloadBytes rules none) ++ payloadBytes rules none) rules none := by
  have compiled : ∃ rules, RuleSet.ofText RuleSet.sampleText = .ok rules ∧
      (payloadBytes rules none).length = 95 := ⟨_, by cbv, by cbv⟩
  obtain ⟨rules, read, size⟩ := compiled
  have obtained : rules.Obtained := .fromText RuleSet.sampleText (by decide +kernel) read
  have short : (payloadBytes rules none).length < 2 ^ 32 := by omega
  obtain ⟨cut, followed, reheaded, _⟩ := readAs_or_refused_of_damaged obtained short
  have whole : (ofRuleSet rules none).length = 127 := by
    rw [ofRuleSet, wrap, List.length_append, length_header, size]
    rfl
  have cutAt (count : Nat) (less : count < 127) :=
    cut ((ofRuleSet rules none).take count) (List.take_prefix count _) (by
      intro same
      have counted := congrArg List.length same
      rw [List.length_take, whole] at counted
      omega)
  have five := cutAt 5 (by decide)
  have forty := cutAt 40 (by decide)
  rw [List.length_take, whole, size] at five forty
  have sumLength := length_checksum (payloadBytes rules none)
  have sumBehind : (magic ++ [1, 0] ++ List.replicate 6 255 ++ [95, 0, 0, 0] ++
      checksum (payloadBytes rules none)).drop 16 = checksum (payloadBytes rules none) :=
    List.drop_left' rfl
  refine ⟨rules, read, five, forty, followed [0], ?_, ?_, ?_, ?_⟩
  · exact (reheaded (List.replicate 32 0) rfl).unmagical (by decide)
  · exact (reheaded (magic ++ [2, 1] ++ List.replicate 26 0) rfl).outdated rfl (by decide)
  · have longer := (reheaded (magic ++ [1, 0] ++ List.replicate 6 0 ++ [96, 0, 0, 0] ++
      List.replicate 16 0) rfl).overlong ⟨rfl, rfl⟩
    rw [size] at longer
    exact longer (by decide)
  · apply (reheaded (magic ++ [1, 0] ++ List.replicate 6 255 ++ [95, 0, 0, 0] ++
      checksum (payloadBytes rules none)) _).intact ⟨rfl, rfl⟩
    · rw [size]
      rfl
    · rw [statedSum, field, sumBehind]
      exact List.take_of_length_le (Nat.le_of_eq sumLength)
    · rw [List.length_append, sumLength]
      rfl

end Circulation.Cache
