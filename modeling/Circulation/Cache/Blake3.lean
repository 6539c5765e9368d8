import Circulation.Cache.LittleEndian

/-!
Contract: the BLAKE3 hash of a byte string, with its default length of 32 bytes.

Owns:
- the compression function;
- the nodes of the hash tree, from the blocks of a chunk to the root.

Does not own: what is hashed, or which part of a hash is kept.
-/

namespace Circulation.Cache

abbrev Digest := Vector UInt8 32

namespace Blake3

/-! ## Compression -/

def initialWords : Vector UInt32 8 :=
  #v[0x6A09E667, 0xBB67AE85, 0x3C6EF372, 0xA54FF53A, 0x510E527F, 0x9B05688C, 0x1F83D9AB, 0x5BE0CD19]

/-- For each word of a message, the place it is taken from for the next round. -/
def permutation : Vector (Fin 16) 16 :=
  #v[2, 6, 3, 10, 7, 0, 4, 13, 1, 11, 12, 5, 9, 14, 15, 8]

/-- A word turned to the right by `count` bits, `0 < count < 32`. -/
def rotateRight (word count : UInt32) : UInt32 :=
  (word >>> count) ||| (word <<< (32 - count))

/-- Mix two message words into the words of the state at four places. -/
def mix (state : Vector UInt32 16) (a b c d : Fin 16) (x y : UInt32) : Vector UInt32 16 :=
  let a₁ := state[a] + state[b] + x
  let d₁ := rotateRight (state[d] ^^^ a₁) 16
  let c₁ := state[c] + d₁
  let b₁ := rotateRight (state[b] ^^^ c₁) 12
  let a₂ := a₁ + b₁ + y
  let d₂ := rotateRight (d₁ ^^^ a₂) 8
  let c₂ := c₁ + d₂
  let b₂ := rotateRight (b₁ ^^^ c₂) 7
  (((state.set a a₂).set b b₂).set c c₂).set d d₂

/-- Mix a message into the columns of the state and then into its diagonals. -/
def round (message state : Vector UInt32 16) : Vector UInt32 16 :=
  let state := mix state 0 4 8 12 message[0] message[1]
  let state := mix state 1 5 9 13 message[2] message[3]
  let state := mix state 2 6 10 14 message[4] message[5]
  let state := mix state 3 7 11 15 message[6] message[7]
  let state := mix state 0 5 10 15 message[8] message[9]
  let state := mix state 1 6 11 12 message[10] message[11]
  let state := mix state 2 7 8 13 message[12] message[13]
  mix state 3 4 9 14 message[14] message[15]

/-- So many rounds, the message permuted after each. -/
def rounds : Nat → Vector UInt32 16 → Vector UInt32 16 → Vector UInt32 16
  | 0, _, state => state
  | count + 1, message, state =>
      rounds count (Vector.ofFn fun place => message[permutation[place]]) (round message state)

/-! ## Nodes -/

def chunkStart : UInt32 := 1
def chunkEnd : UInt32 := 2
def parentNode : UInt32 := 4
/-- The node whose words are the hash. -/
def rootNode : UInt32 := 8

structure Node where
  chaining : Vector UInt32 8
  block : Vector UInt32 16
  counter : UInt64
  blockLength : UInt32
  flags : UInt32

namespace Node

def chainingWords (node : Node) : Vector UInt32 8 :=
  let state : Vector UInt32 16 :=
    node.chaining ++
      #v[initialWords[0], initialWords[1], initialWords[2], initialWords[3],
        node.counter.toUInt32, (node.counter >>> 32).toUInt32, node.blockLength, node.flags]
  let final := rounds 7 node.block state
  Vector.ofFn fun place : Fin 8 => final[place.val] ^^^ final[place.val + 8]

def parent (left right : Node) : Node where
  chaining := initialWords
  block := left.chainingWords ++ right.chainingWords
  counter := 0
  blockLength := 64
  flags := parentNode

end Node

/-! ## Chunks -/

/-- The sixteen words of a block of at most 64 bytes, filled up with zeros. -/
def blockWords (bytes : List UInt8) : Vector UInt32 16 :=
  let block := bytes.toArray
  Vector.ofFn fun place : Fin 16 =>
    UInt32.ofNat (ofLittleEndian
      ((List.range 4).map fun offset => block.getD (4 * place.val + offset) 0))

/-- The node of the last block of a chunk; the blocks before it are chained into it. -/
def chunkNode (counter : UInt64) (chaining : Vector UInt32 8) (start : UInt32)
    (bytes : List UInt8) : Node :=
  if _ : bytes.length ≤ 64 then
    ⟨chaining, blockWords bytes, counter, UInt32.ofNat bytes.length, start ||| chunkEnd⟩
  else
    let first : Node := ⟨chaining, blockWords (bytes.take 64), counter, 64, start⟩
    chunkNode counter first.chainingWords 0 (bytes.drop 64)
termination_by bytes.length
decreasing_by
  rw [List.length_drop]
  omega

/-- The nodes of the chunks of a byte string, of which there is at least one. -/
def leaves (counter : UInt64) (bytes : List UInt8) : Node × List Node :=
  if _ : bytes.length ≤ 1024 then (chunkNode counter initialWords chunkStart bytes, [])
  else
    let (next, others) := leaves (counter + 1) (bytes.drop 1024)
    (chunkNode counter initialWords chunkStart (bytes.take 1024), next :: others)
termination_by bytes.length
decreasing_by
  rw [List.length_drop]
  omega

/-! ## Tree -/

/-- The nodes above neighbours; a last node without a neighbour stays as it is. -/
def pairUp : List Node → List Node
  | left :: right :: rest => left.parent right :: pairUp rest
  | rest => rest

theorem length_pairUp_le (nodes : List Node) : (pairUp nodes).length ≤ nodes.length := by
  fun_induction pairUp nodes with
  | case1 left right rest ih =>
    simp only [List.length_cons]
    omega
  | case2 => exact Nat.le_refl _

def top (first : Node) : List Node → Node
  | [] => first
  | second :: rest => top (first.parent second) (pairUp rest)
termination_by rest => rest.length
decreasing_by
  have shorter := length_pairUp_le rest
  simp only [List.length_cons]
  omega

def hash (bytes : List UInt8) : Digest :=
  let (first, others) := leaves 0 bytes
  let node := top first others
  let words := { node with flags := node.flags ||| rootNode }.chainingWords
  Vector.ofFn fun place : Fin 32 =>
    (words[place.val / 4] >>> UInt32.ofNat (8 * (place.val % 4))).toUInt8

end Blake3

end Circulation.Cache
