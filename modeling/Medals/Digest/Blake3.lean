/-!
# BLAKE3

The unkeyed BLAKE3 hash with 32 bytes of output. Data are cut into chunks of 1024 bytes; the chaining
values of the chunks are the leaves of a binary tree whose left subtrees are complete, and the root
node yields the digest.
-/

namespace Medals

/-- A digest of 32 bytes. -/
structure Digest where
  bytes : List UInt8
deriving DecidableEq, Repr, Inhabited

namespace Blake3

abbrev ChainingValue := Vector UInt32 8

abbrev Block := Vector UInt32 16

def initialValue : ChainingValue :=
  #v[0x6a09e667, 0xbb67ae85, 0x3c6ef372, 0xa54ff53a, 0x510e527f, 0x9b05688c, 0x1f83d9ab, 0x5be0cd19]

def chunkStart : UInt32 := 1
def chunkEnd : UInt32 := 2
def parent : UInt32 := 4
def root : UInt32 := 8

def rotateRight (word count : UInt32) : UInt32 :=
  (word >>> count) ||| (word <<< (32 - count))

/-- Mix two message words into a column or a diagonal. -/
def mix (state : Block) (a b c d : Fin 16) (x y : UInt32) : Block :=
  let a1 := state[a] + state[b] + x
  let d1 := rotateRight (state[d] ^^^ a1) 16
  let c1 := state[c] + d1
  let b1 := rotateRight (state[b] ^^^ c1) 12
  let a2 := a1 + b1 + y
  let d2 := rotateRight (d1 ^^^ a2) 8
  let c2 := c1 + d2
  let b2 := rotateRight (b1 ^^^ c2) 7
  (((state.set a a2).set b b2).set c c2).set d d2

/-- Columns, then diagonals. -/
def mixAll (state message : Block) : Block :=
  let state := mix state 0 4 8 12 message[0] message[1]
  let state := mix state 1 5 9 13 message[2] message[3]
  let state := mix state 2 6 10 14 message[4] message[5]
  let state := mix state 3 7 11 15 message[6] message[7]
  let state := mix state 0 5 10 15 message[8] message[9]
  let state := mix state 1 6 11 12 message[10] message[11]
  let state := mix state 2 7 8 13 message[12] message[13]
  mix state 3 4 9 14 message[14] message[15]

/-- The order in which a round takes the words of the message of the round before. -/
def permutation : Vector (Fin 16) 16 :=
  #v[2, 6, 3, 10, 7, 0, 4, 13, 1, 11, 12, 5, 9, 14, 15, 8]

def permute (message : Block) : Block :=
  permutation.map fun index => message[index]

/-- Some rounds, each with the message permuted once more. -/
def mixRounds (state message : Block) : Nat → Block
  | 0 => state
  | rounds + 1 => mixRounds (mixAll state message) (permute message) rounds

/-- One node before it is known whether it is the root. -/
structure Node where
  chaining : ChainingValue
  block : Block
  counter : UInt64
  length : UInt32
  flags : UInt32

/-- The chaining value of a node, given flags of its own. -/
def Node.compress (node : Node) (flags : UInt32) : ChainingValue :=
  let start : Block := #v[node.chaining[0], node.chaining[1], node.chaining[2], node.chaining[3],
    node.chaining[4], node.chaining[5], node.chaining[6], node.chaining[7],
    initialValue[0], initialValue[1], initialValue[2], initialValue[3],
    node.counter.toUInt32, (node.counter >>> 32).toUInt32, node.length, flags]
  let mixed := mixRounds start node.block 7
  #v[mixed[0] ^^^ mixed[8], mixed[1] ^^^ mixed[9], mixed[2] ^^^ mixed[10], mixed[3] ^^^ mixed[11],
    mixed[4] ^^^ mixed[12], mixed[5] ^^^ mixed[13], mixed[6] ^^^ mixed[14], mixed[7] ^^^ mixed[15]]

def Node.chainingValue (node : Node) : ChainingValue :=
  node.compress node.flags

/-- Four bytes, least significant first; bytes beyond the end are zero. -/
def wordOf (bytes : List UInt8) : UInt32 :=
  (bytes.getD 0 0).toUInt32 ||| ((bytes.getD 1 0).toUInt32 <<< 8) |||
    ((bytes.getD 2 0).toUInt32 <<< 16) ||| ((bytes.getD 3 0).toUInt32 <<< 24)

/-- The words of up to 64 bytes. -/
def blockOf (bytes : List UInt8) : Block :=
  Vector.ofFn fun index : Fin 16 => wordOf (bytes.drop (4 * index.val))

/-- The last node of a chunk; the blocks before it are chained. The fuel is the number of blocks a
chunk can have. -/
def chunkNode (counter : UInt64) (chaining : ChainingValue) (flags : UInt32) (bytes : List UInt8) :
    Nat → Node
  | 0 => ⟨chaining, blockOf bytes, counter, bytes.length.toUInt32, flags ||| chunkEnd⟩
  | fuel + 1 =>
    if bytes.length ≤ 64 then
      ⟨chaining, blockOf bytes, counter, bytes.length.toUInt32, flags ||| chunkEnd⟩
    else
      let node : Node := ⟨chaining, blockOf (bytes.take 64), counter, 64, flags⟩
      chunkNode counter node.chainingValue 0 (bytes.drop 64) fuel

/-- The node of a whole chunk. -/
def nodeOfChunk (index : Nat) (bytes : List UInt8) : Node :=
  chunkNode index.toUInt64 initialValue chunkStart bytes 16

/-- The node above two subtrees. -/
def parentNode (left right : ChainingValue) : Node :=
  ⟨initialValue, #v[left[0], left[1], left[2], left[3], left[4], left[5], left[6], left[7],
    right[0], right[1], right[2], right[3], right[4], right[5], right[6], right[7]], 0, 64, parent⟩

/-- Join the newest subtree with complete ones of its size, as often as the number of chunks is
even. -/
def mergeComplete (newest : ChainingValue) (chunks : Nat) :
    List ChainingValue → List ChainingValue
  | [] => [newest]
  | left :: rest =>
    if chunks % 2 = 0 then mergeComplete (parentNode left newest).chainingValue (chunks / 2) rest
    else newest :: left :: rest

/-- The node over all subtrees, smallest first, given the last chunk's node. -/
def mergeAll (node : Node) : List ChainingValue → Node
  | [] => node
  | left :: rest => mergeAll (parentNode left node.chainingValue) rest

/-- The root node of data from the chunk of some index on, given the complete subtrees before it. -/
def rootNode (subtrees : List ChainingValue) (index : Nat) (bytes : List UInt8) : Nat → Node
  | 0 => mergeAll (nodeOfChunk index bytes) subtrees
  | fuel + 1 =>
    if bytes.length ≤ 1024 then mergeAll (nodeOfChunk index bytes) subtrees
    else
      let newest := (nodeOfChunk index (bytes.take 1024)).chainingValue
      rootNode (mergeComplete newest (index + 1) subtrees) (index + 1) (bytes.drop 1024) fuel

/-- The bytes of a word, least significant first. -/
def wordBytes (word : UInt32) : List UInt8 :=
  [word.toUInt8, (word >>> 8).toUInt8, (word >>> 16).toUInt8, (word >>> 24).toUInt8]

/-- The digest of data. -/
def hash (bytes : List UInt8) : Digest :=
  let node := rootNode [] 0 bytes bytes.length
  ⟨(node.compress (node.flags ||| root)).toList.flatMap wordBytes⟩

end Blake3

namespace Digest

/-- The digest of the concatenation of parts. -/
def ofParts (parts : List (List UInt8)) : Digest :=
  Blake3.hash parts.flatten

/-- Two lower-case hexadecimal digits for every byte. -/
def hex (digest : Digest) : String :=
  String.ofList (digest.bytes.flatMap fun byte =>
    [Nat.digitChar (byte.toNat / 16), Nat.digitChar (byte.toNat % 16)])

end Digest

/-- The `count` bytes of a number, least significant first. -/
def littleEndian : (count : Nat) → Nat → List UInt8
  | 0, _ => []
  | count + 1, value => UInt8.ofNat value :: littleEndian count (value / 256)

end Medals
