import Circulation.Proofs.Headers
import Circulation.Proofs.Storing
import Circulation.Proofs.WellFormed

/-!
Contract: rule sets kept as byte strings and taken back.

Owns:
- that the payload of a rule set is read back from its bytes;
- that the cache of a rule set holds that rule set and the digest of its rule text;
- that a rule set taken from any byte string can be kept again.

Does not own: the laws of codecs, headers, or which payloads are restored.
-/

namespace Circulation.Cache

open Codec

/-! ## Caches -/

/-- The payload of a rule set is read back from its bytes, whatever follows them. -/
theorem recovers_ofRuleSet {lines : List RuleLine} {defaults : PolicyMap}
    {digest : Option Digest}
    (short : (payloadCodec.write
      (Payload.ofRuleSet (.ofLines lines defaults) digest)).length < 2 ^ 32) :
    payloadCodec.Recovers (Payload.ofRuleSet (.ofLines lines defaults) digest) := by
  let payload := Payload.ofRuleSet (.ofLines lines defaults) digest
  have counted : payload.lineCount = payload.lines.length := (List.length_map _).symm
  have inRange : ∀ kindRanking ∈ payload.rankings, ∀ position ∈ kindRanking,
      position < payload.lines.length := by
    intro kindRanking member position positionMember
    have bound := Payload.rankings_inRange member position positionMember
    rwa [← List.length_map Payload.ofLine] at bound
  exact recovers_payloadCodec counted inRange (Nat.lt_trans short (by decide))

theorem payloadOf_ofRuleSet {lines : List RuleLine} {defaults : PolicyMap}
    {source : Option String}
    (short : (payloadBytes (.ofLines lines defaults) source).length < 2 ^ 32) :
    payloadOf (ofRuleSet (.ofLines lines defaults) source) =
      .ok (Payload.ofRuleSet (.ofLines lines defaults)
        (source.map fun text => Blake3.hash (utf8 text))) := by
  have payloadRead := recovers_ofRuleSet short []
  rw [List.append_nil] at payloadRead
  rw [payloadOf, ofRuleSet, unwrap_wrap short, ok_bind, payloadBytes, payloadRead]
  rfl

theorem kept_of_obtained {rules : RuleSet} (obtained : rules.Obtained) {source : Option String}
    (short : (payloadBytes rules source).length < 2 ^ 32) :
    toRuleSet (ofRuleSet rules source) = .ok rules ∧
      sourceDigest (ofRuleSet rules source) =
        .ok (source.map fun text => Blake3.hash (utf8 text)) := by
  obtain ⟨lines, defaults, written, checked, rfl⟩ := obtained.exists_ofLines
  have held := payloadOf_ofRuleSet short
  constructor
  · rw [toRuleSet, held, ok_bind, mapError_eq_ok_iff]
    apply Payload.toRuleSet_ofRuleSet written checked
  · rw [sourceDigest, held]
    rfl

/-! ## Sizes -/

/-- The digest of a rule text takes 32 bytes more than its absence. -/
theorem length_payloadBytes_some (rules : RuleSet) (source : String) :
    (payloadBytes rules (some source)).length = (payloadBytes rules none).length + 32 := by
  have presentLength : ((Codec.optional (fixed 32)).write
      (some (Blake3.hash (utf8 source)))).length = 33 := by
    simp [Codec.optional, fixed]
  have absentLength : ((Codec.optional (fixed 32)).write none).length = 1 := rfl
  simp only [payloadBytes, length_write_payloadCodec, Payload.ofRuleSet, Option.map_some,
    Option.map_none, presentLength, absentLength]
  omega

theorem length_payloadBytes_lt_of_toRuleSet {blob : List UInt8} {rules : RuleSet}
    (restored : toRuleSet blob = .ok rules) : (payloadBytes rules none).length < 2 ^ 32 := by
  obtain ⟨payload, held, remaining⟩ := bind_eq_ok_iff.mp restored
  obtain ⟨bytes, unwrapped, remainingRead⟩ := bind_eq_ok_iff.mp held
  obtain ⟨⟨value, rest⟩, read, same⟩ := bind_eq_ok_iff.mp remainingRead
  cases Except.ok.inj same
  have bytesShort := length_lt_of_unwrap unwrapped
  have payloadShort := compact_payloadCodec _ _ _ (mapError_eq_ok_iff.mp read)
  have rulesShort : (payloadBytes rules none).length ≤ (payloadCodec.write payload).length :=
    Payload.length_write_ofRuleSet_le (mapError_eq_ok_iff.mp remaining)
  omega

/-! ## The round trip -/

/-- A rule set that fits into a cache is taken back from it as it was, along with the digest of its
rule text. In particular, a rule set taken from any byte string can be kept and taken back, and
keeping it once more gives the same bytes; without rule text it always fits. -/
theorem roundTrip :
    (∀ (rules : RuleSet) (source : Option String), rules.Obtained →
      (payloadBytes rules source).length < 2 ^ 32 →
        toRuleSet (ofRuleSet rules source) = .ok rules ∧
          sourceDigest (ofRuleSet rules source) =
            .ok (source.map fun text => Blake3.hash (utf8 text))) ∧
      ∀ (blob : List UInt8) (rules : RuleSet) (source : Option String),
        toRuleSet blob = .ok rules →
        source = none ∨ (payloadBytes rules source).length < 2 ^ 32 →
          ∃ again, toRuleSet (ofRuleSet rules source) = .ok again ∧ again = rules ∧
            ofRuleSet again source = ofRuleSet rules source := by
  constructor
  · intro rules source obtained short
    exact kept_of_obtained obtained short
  · intro blob rules source restored fits
    have short : (payloadBytes rules source).length < 2 ^ 32 := by
      rcases fits with rfl | short
      · exact length_payloadBytes_lt_of_toRuleSet restored
      · exact short
    have kept := kept_of_obtained (.fromBytes blob restored) short
    exact ⟨rules, kept.1, rfl, rfl⟩

theorem roundTrip_sampleText :
    ∃ rules, RuleSet.ofText RuleSet.sampleText = .ok rules ∧
      (payloadBytes rules (some RuleSet.sampleText)).length = 127 ∧
      toRuleSet (ofRuleSet rules (some RuleSet.sampleText)) = .ok rules ∧
      sourceDigest (ofRuleSet rules (some RuleSet.sampleText)) =
        .ok (some (Blake3.hash (utf8 RuleSet.sampleText))) ∧
      ∃ again, toRuleSet (ofRuleSet rules none) = .ok again ∧ again = rules ∧
        ofRuleSet again none = ofRuleSet rules none := by
  have compiled : ∃ rules, RuleSet.ofText RuleSet.sampleText = .ok rules ∧
      (payloadBytes rules none).length = 95 := ⟨_, by cbv, by cbv⟩
  obtain ⟨rules, read, absentSize⟩ := compiled
  have size : (payloadBytes rules (some RuleSet.sampleText)).length = 127 := by
    rw [length_payloadBytes_some, absentSize]
  have obtained : rules.Obtained := .fromText RuleSet.sampleText (by decide +kernel) read
  have kept := roundTrip.1 rules (some RuleSet.sampleText) obtained (by omega)
  exact ⟨rules, read, size, kept.1, kept.2, roundTrip.2 _ rules none kept.1 (Or.inl rfl)⟩

end Circulation.Cache
