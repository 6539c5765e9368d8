/-!
Contract: numbers as bytes, the least significant byte first.

Owns:
- the bytes of a number at a given width;
- the number of given bytes.

Does not own: how many bytes a number takes in a format.
-/

namespace Circulation.Cache

/-- The bytes of a number, at the given width; what does not fit is dropped. -/
def littleEndian : Nat → Nat → List UInt8
  | 0, _ => []
  | width + 1, value => UInt8.ofNat value :: littleEndian width (value / 256)

/-- The number that bytes stand for. -/
def ofLittleEndian : List UInt8 → Nat
  | [] => 0
  | byte :: rest => byte.toNat + 256 * ofLittleEndian rest

@[simp] theorem length_littleEndian (width value : Nat) :
    (littleEndian width value).length = width := by
  induction width generalizing value with
  | zero => rfl
  | succ width ih => simp [littleEndian, ih]

end Circulation.Cache
