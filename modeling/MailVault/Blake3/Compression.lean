import MailVault.Bytes

/-!
# The compression function of BLAKE3

A node of the hash tree is kept as the *input* of its last compression and not
as the result.  The same node can then be chained, as the child of a parent, or
finished, as the root of the tree; only the flags and the counter of that last
compression tell the two apart.
-/

namespace MailVault
namespace Blake3

/-- Eight words that stand for everything compressed so far. -/
abbrev ChainingValue := Vector UInt32 8

/-- Sixteen words: a message block, or the state of a compression. -/
abbrev Block := Vector UInt32 16

/-- The chaining value from which every leaf and every parent starts. -/
def initialValue : ChainingValue :=
  #v[0x6A09E667, 0xBB67AE85, 0x3C6EF372, 0xA54FF53A,
     0x510E527F, 0x9B05688C, 0x1F83D9AB, 0x5BE0CD19]

/-- The bits that separate the domains of the compression function. -/
structure Flags where
  bits : UInt32
deriving DecidableEq, Repr

namespace Flags

/-- A block inside a leaf. -/
def none : Flags := ⟨0⟩

def leafStart : Flags := ⟨1⟩

def leafEnd : Flags := ⟨2⟩

/-- A node above two others. -/
def parent : Flags := ⟨4⟩

/-- The node at the top of the tree. -/
def root : Flags := ⟨8⟩

def union (left right : Flags) : Flags :=
  ⟨left.bits ||| right.bits⟩

end Flags

/-- The word with its bits moved to the right and back in at the left. -/
def rotateRight (word amount : UInt32) : UInt32 :=
  (word >>> amount) ||| (word <<< (32 - amount))

/-- The quarter round: four words of the state are mixed with two message words. -/
def mix (state : Block) (a b c d : Fin 16) (x y : UInt32) : Block :=
  let first := state[a] + state[b] + x
  let fourth := rotateRight (state[d] ^^^ first) 16
  let third := state[c] + fourth
  let second := rotateRight (state[b] ^^^ third) 12
  let first := first + second + y
  let fourth := rotateRight (fourth ^^^ first) 8
  let third := third + fourth
  let second := rotateRight (second ^^^ third) 7
  (((state.set a first).set b second).set c third).set d fourth

/-- One round: the four columns of the state, then its four diagonals. -/
def mixRound (state message : Block) : Block :=
  let state := mix state 0 4 8 12 message[0] message[1]
  let state := mix state 1 5 9 13 message[2] message[3]
  let state := mix state 2 6 10 14 message[4] message[5]
  let state := mix state 3 7 11 15 message[6] message[7]
  let state := mix state 0 5 10 15 message[8] message[9]
  let state := mix state 1 6 11 12 message[10] message[11]
  let state := mix state 2 7 8 13 message[12] message[13]
  mix state 3 4 9 14 message[14] message[15]

/-- The order in which a round hands the message words to the next one. -/
def permute (message : Block) : Block :=
  #v[message[2], message[6], message[3], message[10],
     message[7], message[0], message[4], message[13],
     message[1], message[11], message[12], message[5],
     message[9], message[14], message[15], message[8]]

/-- The given number of rounds, with the message permuted between them. -/
def rounds : Nat → Block → Block → Block
  | 0, state, _ => state
  | count + 1, state, message => rounds count (mixRound state message) (permute message)

/-- The input of one compression. -/
structure Node where
  chain : ChainingValue
  block : Block
  /-- The number of message bytes in the block. -/
  length : Nat
  /-- The index of the leaf, and zero in a parent. -/
  counter : Nat
  flags : Flags

namespace Node

/-- The words before the first round. -/
def start (node : Node) : Block :=
  #v[node.chain[0], node.chain[1], node.chain[2], node.chain[3],
     node.chain[4], node.chain[5], node.chain[6], node.chain[7],
     initialValue[0], initialValue[1], initialValue[2], initialValue[3],
     node.counter.toUInt32, (node.counter / 4294967296).toUInt32,
     node.length.toUInt32, node.flags.bits]

/-- The chaining value of a node: seven rounds, and the two halves of the state joined. -/
def compress (node : Node) : ChainingValue :=
  let state := rounds 7 node.start node.block
  #v[state[0] ^^^ state[8], state[1] ^^^ state[9],
     state[2] ^^^ state[10], state[3] ^^^ state[11],
     state[4] ^^^ state[12], state[5] ^^^ state[13],
     state[6] ^^^ state[14], state[7] ^^^ state[15]]

/-- The chaining value of a node that is the root of the tree. -/
def finish (node : Node) : ChainingValue :=
  let root : Node := ⟨node.chain, node.block, node.length, 0, node.flags.union Flags.root⟩
  root.compress

end Node

/-- The bytes of a word, least significant first. -/
def wordBytes (word : UInt32) : Bytes :=
  [word.toUInt8, (word >>> 8).toUInt8, (word >>> 16).toUInt8, (word >>> 24).toUInt8]

/-- The bytes of a chaining value, which are the digest when the node is the root. -/
def ChainingValue.toBytes (value : ChainingValue) : Bytes :=
  value.toList.flatMap wordBytes

theorem ChainingValue.length_toBytes (value : ChainingValue) :
    (ChainingValue.toBytes value).length = 32 := by
  have each : ∀ words : List UInt32, (words.flatMap wordBytes).length = 4 * words.length := by
    intro words
    induction words with
    | nil => rfl
    | cons word rest ih =>
      simp only [List.flatMap_cons, List.length_append, ih, List.length_cons]
      simp only [wordBytes, List.length_cons, List.length_nil]
      omega
  simp [ChainingValue.toBytes, each]

/-- Up to sixty-four bytes as words, least significant byte first, padded with zeros. -/
def Block.ofBytes (bytes : Bytes) : Block :=
  let held := bytes.toArray
  let byte := fun (position : Nat) => (held.getD position 0).toUInt32
  Vector.ofFn fun word : Fin 16 =>
    byte (4 * word) ||| (byte (4 * word + 1) <<< 8) |||
      (byte (4 * word + 2) <<< 16) ||| (byte (4 * word + 3) <<< 24)

end Blake3
end MailVault
