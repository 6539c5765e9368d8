import Circulation.Cache.Blob
import Circulation.Proofs.CodecLaws

/-!
Contract: payloads behind headers.

Owns:
- what a header states, and what the header of a payload states;
- how bytes behind a header are opened, whatever the header and the bytes;
- that a payload is found again behind its header, and that no longer one is found than a header
  can state.

Does not own: what a payload holds.
-/

namespace Circulation.Cache

/-! ## Fields -/

theorem littleEndian_ofLittleEndian (bytes : List UInt8) :
    littleEndian bytes.length (ofLittleEndian bytes) = bytes := by
  induction bytes with
  | nil => rfl
  | cons byte rest ih =>
    have small := byte.toNat_lt
    have first : UInt8.ofNat (byte.toNat + 256 * ofLittleEndian rest) = byte := by
      apply UInt8.toNat_inj.mp
      rw [UInt8.toNat_ofNat']
      omega
    have others : (byte.toNat + 256 * ofLittleEndian rest) / 256 = ofLittleEndian rest := by
      omega
    rw [List.length_cons, ofLittleEndian, littleEndian, first, others, ih]

/-- A field inside the header is not affected by what stands behind the header. -/
theorem field_append_of_le {offset size : Nat} {head : List UInt8}
    (inside : offset + size ≤ head.length) (rest : List UInt8) :
    field offset size (head ++ rest) = field offset size head := by
  have room : size ≤ (head.drop offset).length := by
    rw [List.length_drop]
    omega
  rw [field, field, List.drop_append_of_le_length (by omega), List.take_append_of_le_length room]

/-- The format version that a header states. -/
def statedVersion (head : List UInt8) : UInt16 :=
  UInt16.ofNat (ofLittleEndian (field 4 2 head))

/-- The length of a payload that a header states. -/
def statedSize (head : List UInt8) : Nat :=
  ofLittleEndian (field 12 4 head)

/-- The checksum of a payload that a header states. -/
def statedSum (head : List UInt8) : List UInt8 :=
  field 16 16 head

theorem statedSize_lt (head : List UInt8) : statedSize head < 2 ^ 32 := by
  have bound := ofLittleEndian_lt (field 12 4 head)
  have counted : (field 12 4 head).length ≤ 4 := List.length_take_le 4 _
  have widened : 256 ^ (field 12 4 head).length ≤ 256 ^ 4 :=
    Nat.pow_le_pow_right (by decide) counted
  rw [statedSize]
  omega

/-! ## Opening -/

/-- Bytes behind a header are checked against it, in this order: what the header is, its version,
the length that it states, and the checksum of so many bytes. -/
theorem unwrap_append {head : List UInt8} (whole : head.length = headerSize)
    (rest : List UInt8) :
    unwrap (head ++ rest) =
      if field 0 4 head ≠ magic then .error .badMagic
      else if statedVersion head ≠ formatVersion then
        .error (.incompatibleVersion (statedVersion head))
      else if rest.length < statedSize head then
        .error (.lengthMismatch (statedSize head) rest.length)
      else if checksum (rest.take (statedSize head)) ≠ statedSum head then
        .error .checksumMismatch
      else .ok (rest.take (statedSize head)) := by
  have inside {offset size : Nat} (inHeader : offset + size ≤ 32) :
      field offset size (head ++ rest) = field offset size head :=
    field_append_of_le (by rw [whole]; exact inHeader) rest
  have behind (size : Nat) : field headerSize size (head ++ rest) = rest.take size := by
    rw [field, ← whole, List.drop_left]
  have long : ¬ (head ++ rest).length < headerSize := by
    rw [List.length_append]
    omega
  have left : (head ++ rest).length - headerSize = rest.length := by
    rw [List.length_append]
    omega
  simp only [unwrap, inside (by decide : 0 + 4 ≤ 32), inside (by decide : 4 + 2 ≤ 32),
    inside (by decide : 12 + 4 ≤ 32), inside (by decide : 16 + 16 ≤ 32), behind, long, left,
    if_false]
  rfl

/-! ## The header of a payload -/

theorem length_checksum (payload : List UInt8) : (checksum payload).length = 16 := by
  rw [checksum, List.length_take, Vector.length_toList]
  rfl

theorem length_header (payload : List UInt8) : (header payload).length = headerSize := by
  simp only [header, List.length_append, length_littleEndian, length_checksum]
  rfl

theorem magic_header (payload : List UInt8) : field 0 4 (header payload) = magic :=
  rfl

theorem statedVersion_header (payload : List UInt8) :
    statedVersion (header payload) = formatVersion := by
  have version : field 4 2 (header payload) = littleEndian 2 formatVersion.toNat := rfl
  rw [statedVersion, version]
  rfl

theorem statedSize_header {payload : List UInt8} (short : payload.length < 2 ^ 32) :
    statedSize (header payload) = payload.length := by
  have size : field 12 4 (header payload) = littleEndian 4 payload.length :=
    List.take_left' (length_littleEndian 4 payload.length)
  rw [statedSize, size]
  exact ofLittleEndian_littleEndian short

theorem statedSum_header (payload : List UInt8) :
    statedSum (header payload) = checksum payload := by
  have behind : (header payload).drop 16 = checksum payload := List.drop_left' rfl
  rw [statedSum, field, behind]
  exact List.take_of_length_le (Nat.le_of_eq (length_checksum payload))

/-- Bytes behind the header of a payload are opened as that payload if their first are those of the
payload, and are found too few if they are fewer. -/
theorem unwrap_header_append {payload : List UInt8} (short : payload.length < 2 ^ 32)
    (rest : List UInt8) :
    unwrap (header payload ++ rest) =
      if rest.length < payload.length then .error (.lengthMismatch payload.length rest.length)
      else if checksum (rest.take payload.length) ≠ checksum payload then .error .checksumMismatch
      else .ok (rest.take payload.length) := by
  rw [unwrap_append (length_header payload), magic_header, statedVersion_header,
    statedSize_header short, statedSum_header]
  simp only [ne_eq, not_true_eq_false, if_false]

theorem unwrap_wrap {payload : List UInt8} (short : payload.length < 2 ^ 32) :
    unwrap (wrap payload) = .ok payload := by
  rw [wrap, unwrap_header_append short, List.take_length]
  simp

/-- A payload is as short as the four bytes of its length in the header say. -/
theorem length_lt_of_unwrap {blob payload : List UInt8} (found : unwrap blob = .ok payload) :
    payload.length < 2 ^ 32 := by
  have isField : field headerSize (statedSize blob) blob = payload := by
    simp only [unwrap] at found
    unfold statedSize
    grind
  rw [← isField]
  exact Nat.lt_of_le_of_lt (List.length_take_le _ _) (statedSize_lt blob)

end Circulation.Cache
