import Circulation.Cache.Layout
import Circulation.Cache.Restoring

/-!
Contract: rule sets kept as byte strings.

Owns:
- the header in front of a payload: what it is, its version, its length and its checksum;
- the order in which a byte string is checked, and the wording of its errors;
- the cache of a rule set, the rule set of a cache, and the digest kept in a cache.

Does not own: where byte strings are kept.

The header takes 32 bytes: four that say what it is, two each for the version of the format and of
the writer, four reserved ones, four for the length of the payload, and the first 16 bytes of the
payload's hash. Numbers have their least significant byte first.
-/

namespace Circulation.Cache

/-! ## Errors -/

/-- Why a byte string is not the cache of a rule set. -/
inductive CacheError where
  | badMagic
  | incompatibleVersion (blob : UInt16)
  | checksumMismatch
  | lengthMismatch (expected actual : Nat)
  | undecodable (fault : DecodeFault)
  /-- Its payload is the stored form of no rule set. -/
  | invalid (fault : PayloadFault)
deriving DecidableEq, Repr

def formatVersion : UInt16 := 1

namespace CacheError

/-- The wording of the errors. For a payload that cannot be decoded it ends where the decoder goes on
in words of its own. -/
def message : CacheError → String
  | badMagic => "not a circulation rule cache: invalid magic bytes"
  | incompatibleVersion blob =>
      s!"incompatible format version: blob is v{blob}, engine supports v{formatVersion}"
  | checksumMismatch => "integrity check failed: BLAKE3 checksum mismatch"
  | lengthMismatch expected actual =>
      s!"payload length mismatch: expected {expected} bytes, got {actual}"
  | undecodable _ => "failed to decode payload: "
  | invalid fault => "validation failed: " ++ fault.message

end CacheError

/-! ## Headers -/

def magic : List UInt8 :=
  [0x43, 0x49, 0x52, 0x43]

def headerSize : Nat :=
  32

/-- The first 16 bytes of the hash of a payload. -/
def checksum (payload : List UInt8) : List UInt8 :=
  (Blake3.hash payload).toList.take 16

/-- The header of a payload. The version of the writer is 1. -/
def header (payload : List UInt8) : List UInt8 :=
  magic ++ littleEndian 2 formatVersion.toNat ++ littleEndian 2 1 ++ littleEndian 4 0 ++
    littleEndian 4 payload.length ++ checksum payload

def wrap (payload : List UInt8) : List UInt8 :=
  header payload ++ payload

def field (offset size : Nat) (blob : List UInt8) : List UInt8 :=
  (blob.drop offset).take size

/-- The payload of a byte string whose header is in order. What follows the payload is ignored, and
so are the version of the writer and the reserved bytes. -/
def unwrap (blob : List UInt8) : Except CacheError (List UInt8) :=
  let version := UInt16.ofNat (ofLittleEndian (field 4 2 blob))
  let size := ofLittleEndian (field 12 4 blob)
  let payload := field headerSize size blob
  if blob.length < headerSize then .error (.lengthMismatch headerSize blob.length)
  else if field 0 4 blob ≠ magic then .error .badMagic
  else if version ≠ formatVersion then .error (.incompatibleVersion version)
  else if blob.length - headerSize < size then
    .error (.lengthMismatch size (blob.length - headerSize))
  else if checksum payload ≠ field 16 16 blob then .error .checksumMismatch
  else .ok payload

/-! ## Caches -/

/-- The payload that a cache holds, which may be the stored form of no rule set. Bytes after the
last field of a payload are ignored. -/
def payloadOf (blob : List UInt8) : Except CacheError Payload := do
  let bytes ← unwrap blob
  let (payload, _) ← (payloadCodec.read bytes).mapError .undecodable
  return payload

/-- The digest of the rule text that a cache was made from, if it was known then. -/
def sourceDigest (blob : List UInt8) : Except CacheError (Option Digest) := do
  let payload ← payloadOf blob
  return payload.sourceDigest

/-- The payload of the cache of a rule set, with the digest of the rule text `source` if there is
one. -/
def payloadBytes (rules : RuleSet) (source : Option String) : List UInt8 :=
  let digest := source.map fun text => Blake3.hash (Codec.utf8 text)
  payloadCodec.write (Payload.ofRuleSet rules digest)

/-- The cache of a rule set, with the digest of the rule text `source` if there is one. -/
def ofRuleSet (rules : RuleSet) (source : Option String) : List UInt8 :=
  wrap (payloadBytes rules source)

def toRuleSet (blob : List UInt8) : Except CacheError RuleSet := do
  let payload ← payloadOf blob
  payload.toRuleSet.mapError .invalid

end Circulation.Cache
