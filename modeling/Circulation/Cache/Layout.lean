import Circulation.Cache.Codec
import Circulation.Cache.Payload

/-!
Contract: payloads as bytes.

Owns:
- the codecs of kinds, conditions, assignments and rule lines;
- the codec of payloads, field by field.

Does not own: the codecs of numbers, texts and lists.
-/

namespace Circulation.Cache

def kindCodec : Codec PolicyKind where
  write
    | .loan => Codec.writeInteger 0
    | .request => Codec.writeInteger 1
    | .notice => Codec.writeInteger 2
  read input := do
    let (variant, rest) ← Codec.readInteger 4 input
    match PolicyKind.all[variant]? with
    | some kind => return (kind, rest)
    | none => .error .unknownVariant

/-- Conditions, each beginning with the number of its variant. -/
def conditionCodec : Codec StoredCondition where
  write
    | .any => Codec.writeInteger 0
    | .isIn ids => Codec.writeInteger 1 ++ (Codec.list Codec.text).write ids
    | .notIn ids => Codec.writeInteger 2 ++ (Codec.list Codec.text).write ids
  read input := do
    let (variant, rest) ← Codec.readInteger 4 input
    match variant with
    | 0 => return (.any, rest)
    | 1 => do
        let (ids, rest) ← (Codec.list Codec.text).read rest
        return (.isIn ids, rest)
    | 2 => do
        let (ids, rest) ← (Codec.list Codec.text).read rest
        return (.notIn ids, rest)
    | _ => .error .unknownVariant

def assignmentsCodec : Codec (List (PolicyKind × String)) :=
  Codec.list (kindCodec.pair Codec.text)

def lineCodec : Codec StoredLine :=
  (Codec.word.pair ((Codec.list conditionCodec).pair assignmentsCodec)).via
    (fun (number, conditions, policies) => ⟨number, conditions, policies⟩)
    (fun line => (line.number, line.conditions, line.policies))

def payloadCodec : Codec Payload :=
  (Codec.natural.pair
    ((Codec.optional (Codec.fixed 32)).pair
      (assignmentsCodec.pair
        ((Codec.list lineCodec).pair (Codec.list (Codec.list Codec.natural)))))).via
    (fun (lineCount, sourceDigest, defaults, lines, rankings) =>
      ⟨lineCount, sourceDigest, defaults, lines, rankings⟩)
    (fun payload =>
      (payload.lineCount, payload.sourceDigest, payload.defaults, payload.lines,
        payload.rankings))

end Circulation.Cache
