import Circulation.Cache.LittleEndian
import Circulation.Outcome

/-!
Contract: values as bytes, written one after another and read back in the same order.

Owns:
- `Codec`, a writer and a reader for the values of a type;
- codecs of bytes, integers, texts, options and lists, and of pairs of such values;
- the faults of reading.

Does not own: the values of any particular format.

Integers take as few bytes as their size allows: one byte up to 250, or else a marker byte and two,
four or eight bytes. A reader accepts the longer forms of small integers as well.
-/

namespace Circulation.Cache

/-! ## Readers and writers -/

/-- Why bytes are no value. -/
inductive DecodeFault where
  | truncated
  /-- An integer begins with a marker that its type does not have. -/
  | wrongIntegerMarker
  /-- An optional value begins with neither of the two bytes it may begin with. -/
  | wrongOptionMarker
  /-- A choice is made by a number that stands for no variant. -/
  | unknownVariant
  | malformedText
deriving DecidableEq, Repr

/-- A way to write the values of a type as bytes and to read one from the start of a byte string. -/
structure Codec (α : Type) where
  write : α → List UInt8
  read : List UInt8 → Except DecodeFault (α × List UInt8)

namespace Codec

variable {α β : Type}

/-- The values of one type written as those of another. -/
def via (codec : Codec α) (restore : α → β) (store : β → α) : Codec β where
  write value := codec.write (store value)
  read bytes := do
    let (stored, rest) ← codec.read bytes
    return (restore stored, rest)

def pair (first : Codec α) (second : Codec β) : Codec (α × β) where
  write value := first.write value.1 ++ second.write value.2
  read bytes := do
    let (left, rest) ← first.read bytes
    let (right, rest) ← second.read rest
    return ((left, right), rest)

/-! ## Bytes -/

/-- The first `count` bytes, and the bytes after them. -/
def take : Nat → List UInt8 → Except DecodeFault (List UInt8 × List UInt8)
  | 0, bytes => .ok ([], bytes)
  | _ + 1, [] => .error .truncated
  | count + 1, byte :: bytes => do
      let (taken, rest) ← take count bytes
      return (byte :: taken, rest)

theorem length_of_take {count : Nat} {bytes taken rest : List UInt8}
    (read : take count bytes = .ok (taken, rest)) : taken.length = count := by
  induction count generalizing bytes taken rest with
  | zero =>
    simp only [take, Except.ok.injEq, Prod.mk.injEq] at read
    rw [← read.1]
    rfl
  | succ count ih =>
    cases bytes with
    | nil => simp [take] at read
    | cons byte bytes =>
      obtain ⟨⟨others, afterOthers⟩, more, same⟩ := bind_eq_ok_iff.mp read
      simp only [pure, Except.pure, Except.ok.injEq, Prod.mk.injEq] at same
      rw [← same.1, List.length_cons, ih more]

/-- So many bytes as they are. -/
def fixed (count : Nat) : Codec (Vector UInt8 count) where
  write value := value.toList
  read input :=
    match read : take count input with
    | .error fault => .error fault
    | .ok (taken, rest) =>
        .ok (⟨taken.toArray, by rw [List.size_toArray, length_of_take read]⟩, rest)

/-! ## Integers -/

/-- The bytes of an integer: one, or a marker and as few of two, four or eight as hold it. -/
def writeInteger (value : Nat) : List UInt8 :=
  if value ≤ 250 then [UInt8.ofNat value]
  else if value < UInt16.size then 251 :: littleEndian 2 value
  else if value < UInt32.size then 252 :: littleEndian 4 value
  else 253 :: littleEndian 8 value

def markerWidth? (marker : UInt8) : Option Nat :=
  if marker = 251 then some 2
  else if marker = 252 then some 4
  else if marker = 253 then some 8
  else none

/-- An integer with a marker for at most `widest` bytes. -/
def readInteger (widest : Nat) : List UInt8 → Except DecodeFault (Nat × List UInt8)
  | [] => .error .truncated
  | first :: rest =>
      if first ≤ 250 then .ok (first.toNat, rest)
      else
        match (markerWidth? first).filter fun width => width ≤ widest with
        | none => .error .wrongIntegerMarker
        | some width => do
            let (taken, rest) ← take width rest
            return (ofLittleEndian taken, rest)

def natural : Codec Nat where
  write := writeInteger
  read := readInteger 8

def word : Codec UInt32 where
  write value := writeInteger value.toNat
  read input := do
    let (value, rest) ← readInteger 4 input
    return (UInt32.ofNat value, rest)

/-! ## Texts, options and lists -/

def utf8 (text : String) : List UInt8 :=
  text.toUTF8.data.toList

def ofUtf8? (encoded : List UInt8) : Option String :=
  String.fromUTF8? ⟨encoded.toArray⟩

/-- The number of bytes of a text, and then its UTF-8 form. -/
def text : Codec String where
  write value := writeInteger (utf8 value).length ++ utf8 value
  read input := do
    let (count, rest) ← readInteger 8 input
    let (encoded, rest) ← take count rest
    match ofUtf8? encoded with
    | some value => return (value, rest)
    | none => .error .malformedText

/-- The byte 0, or the byte 1 and a value. -/
def optional (codec : Codec α) : Codec (Option α) where
  write
    | none => [0]
    | some value => 1 :: codec.write value
  read
    | [] => .error .truncated
    | marker :: rest =>
        if marker = 0 then .ok (none, rest)
        else if marker = 1 then do
          let (value, rest) ← codec.read rest
          return (some value, rest)
        else .error .wrongOptionMarker

def readMany (read : List UInt8 → Except DecodeFault (α × List UInt8)) :
    Nat → List UInt8 → Except DecodeFault (List α × List UInt8)
  | 0, input => .ok ([], input)
  | count + 1, input => do
      let (value, rest) ← read input
      let (values, rest) ← readMany read count rest
      return (value :: values, rest)

def list (codec : Codec α) : Codec (List α) where
  write values := writeInteger values.length ++ values.flatMap codec.write
  read input := do
    let (count, rest) ← readInteger 8 input
    readMany codec.read count rest

/-! ## Interface -/

theorem ofUtf8?_utf8 (text : String) : ofUtf8? (utf8 text) = some text := by
  have bytes : (⟨(utf8 text).toArray⟩ : ByteArray) = text.toByteArray := by
    simp [utf8]
  rw [ofUtf8?, bytes, String.fromUTF8?, dif_pos text.isValidUTF8]
  rfl

end Codec

end Circulation.Cache
