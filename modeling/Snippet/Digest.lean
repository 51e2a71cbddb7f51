/-!
# Digests

A snippet is named in logs by its BLAKE3 digest. The bytes are cut into chunks and these into
blocks, all but the last ones of full size. The blocks of a chunk are chained; the chunks are the
leaves of a binary tree, in which neighbours are joined level by level and one without a neighbour
moves up. Only the root is compressed with the mark of a root, so every node is kept uncompressed
until it is known where it stands.

All arithmetic is on words of 32 bits.
-/

namespace Snippet.Digest

/-- The words that one compression hands to the next. -/
abbrev Chain :=
  Vector UInt32 8

/-- The words of a block, and the state of a compression. -/
abbrev Block :=
  Vector UInt32 16

/-- The bytes of a chunk. -/
def chunkSize : Nat := 1024

/-- The bytes of a block. -/
def blockSize : Nat := 64

/-- The words that every chain starts with. -/
def initial : Chain :=
  #v[0x6a09e667, 0xbb67ae85, 0x3c6ef372, 0xa54ff53a, 0x510e527f, 0x9b05688c, 0x1f83d9ab, 0x5be0cd19]

/-- The order in which each round takes the words of the round before. -/
def order : Vector (Fin 16) 16 :=
  #v[2, 6, 3, 10, 7, 0, 4, 13, 1, 11, 12, 5, 9, 14, 15, 8]

/-- The mark of the first block of a chunk. -/
def chunkStart : UInt32 := 1

/-- The mark of the last block of a chunk. -/
def chunkEnd : UInt32 := 2

/-- The mark of two joined nodes. -/
def parent : UInt32 := 4

/-- The mark of the node that stands for all. -/
def root : UInt32 := 8

/-- The word with its bits moved down, those at the low end to the high one. -/
def rotate (w : UInt32) (n : UInt32) : UInt32 :=
  w >>> n ||| w <<< (32 - n)

/-- Mixes two words into four of the state. -/
def mix (s : Block) (a b c d : Fin 16) (x y : UInt32) : Block :=
  let va := s[a] + s[b] + x
  let vd := rotate (s[d] ^^^ va) 16
  let vc := s[c] + vd
  let vb := rotate (s[b] ^^^ vc) 12
  let va := va + vb + y
  let vd := rotate (vd ^^^ va) 8
  let vc := vc + vd
  let vb := rotate (vb ^^^ vc) 7
  (((s.set a va).set b vb).set c vc).set d vd

/-- Mixes a block into the state, first by columns and then by diagonals. -/
def mixBlock (s m : Block) : Block :=
  let s := mix s 0 4 8 12 m[0] m[1]
  let s := mix s 1 5 9 13 m[2] m[3]
  let s := mix s 2 6 10 14 m[4] m[5]
  let s := mix s 3 7 11 15 m[6] m[7]
  let s := mix s 0 5 10 15 m[8] m[9]
  let s := mix s 1 6 11 12 m[10] m[11]
  let s := mix s 2 7 8 13 m[12] m[13]
  mix s 3 4 9 14 m[14] m[15]

/-- Some rounds, each with the words of the block in a new order. -/
def rounds : Nat → Block → Block → Block
  | 0, s, _ => s
  | n + 1, s, m => rounds n (mixBlock s m) (order.map fun i ↦ m[i])

/-- A block with what it is compressed under. -/
structure Node where
  chain : Chain
  block : Block
  /-- The number of the chunk. -/
  counter : Nat
  /-- The bytes of the block. -/
  length : Nat
  flags : UInt32

namespace Node

/-- The words that stand for a node. -/
def compress (n : Node) : Chain :=
  let counter := UInt64.ofNat n.counter
  -- the second half of the state: four fixed words and what tells this node from others
  let tail : Vector UInt32 8 := #v[initial[0], initial[1], initial[2], initial[3], counter.toUInt32,
    (counter >>> 32).toUInt32, UInt32.ofNat n.length, n.flags]
  let state := rounds 7 (n.chain ++ tail) n.block
  Vector.ofFn fun i : Fin 8 ↦ state[i.val] ^^^ state[i.val + 8]

/-- Two neighbours as one node. -/
def join (a b : Node) : Node :=
  ⟨initial, a.compress ++ b.compress, 0, blockSize, parent⟩

end Node

/-- The word of four bytes, the lowest one first. -/
def wordOf (bytes : List UInt8) : UInt32 :=
  bytes.foldr (fun b w ↦ w <<< 8 ||| b.toUInt32) 0

/-- The words of a block. One that is not full is filled with zeros. -/
def blockOf (bytes : List UInt8) : Block :=
  Vector.ofFn fun i : Fin 16 ↦ wordOf ((bytes.drop (4 * i.val)).take 4)

/-- The node of a chunk, whose blocks are yet to come but for those in the chain. -/
def chunkFrom (counter : Nat) (chain : Chain) (flags : UInt32) (bytes : List UInt8) : Node :=
  if blockSize < bytes.length then
    let node : Node := ⟨chain, blockOf bytes, counter, blockSize, flags⟩
    -- only the first block of a chunk has the mark of its start
    chunkFrom counter node.compress 0 (bytes.drop blockSize)
  else ⟨chain, blockOf bytes, counter, bytes.length, flags ||| chunkEnd⟩
termination_by bytes.length
decreasing_by
  simp only [List.length_drop]
  simp only [blockSize] at *
  omega

/-- The nodes of the chunks, of which there is at least one. -/
def chunksFrom (counter : Nat) (bytes : List UInt8) : Node × List Node :=
  if chunkSize < bytes.length then
    let (next, rest) := chunksFrom (counter + 1) (bytes.drop chunkSize)
    (chunkFrom counter initial chunkStart (bytes.take chunkSize), next :: rest)
  else (chunkFrom counter initial chunkStart bytes, [])
termination_by bytes.length
decreasing_by
  simp only [List.length_drop]
  simp only [chunkSize] at *
  omega

/-- Joins neighbours. -/
def joinPairs : List Node → List Node
  | a :: b :: rest => a.join b :: joinPairs rest
  | nodes => nodes

/-- Joining neighbours gives no more nodes than there were. -/
theorem length_joinPairs_le (nodes : List Node) : (joinPairs nodes).length ≤ nodes.length := by
  fun_induction joinPairs nodes <;> simp_all
  omega

/-- The root of the tree over some nodes. -/
def rootOf (first : Node) (rest : List Node) : Node :=
  match rest with
  | [] => first
  | second :: rest => rootOf (first.join second) (joinPairs rest)
termination_by rest.length
decreasing_by
  have := length_joinPairs_le rest
  simp
  omega

/-- The bytes of a word, the lowest one first. -/
def bytesOf (w : UInt32) : List UInt8 :=
  [w.toUInt8, (w >>> 8).toUInt8, (w >>> 16).toUInt8, (w >>> 24).toUInt8]

/-- The digest of some bytes: 32 bytes. -/
def ofBytes (bytes : List UInt8) : List UInt8 :=
  let (first, rest) := chunksFrom 0 bytes
  let node := rootOf first rest
  { node with flags := node.flags ||| root }.compress.toList.flatMap bytesOf

/-- Two hexadecimal digits. -/
def hexByte (b : UInt8) : List Char :=
  [Nat.digitChar (b.toNat / 16), Nat.digitChar (b.toNat % 16)]

/-- The name of a text by its digest. -/
def ofText (text : String) : String :=
  "blake3:" ++ String.ofList ((ofBytes text.toUTF8.data.toList).flatMap hexByte)

/-- A digest has 32 bytes. -/
@[simp]
theorem length_ofBytes (bytes : List UInt8) : (ofBytes bytes).length = 32 := by
  simp only [ofBytes, List.length_flatMap, bytesOf]
  simp [List.map_const']

end Snippet.Digest
