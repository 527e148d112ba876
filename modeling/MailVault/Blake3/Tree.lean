import MailVault.Blake3.Compression

/-!
# The hash tree of BLAKE3

A leaf covers at most 1024 bytes and is compressed block by block.  Longer
input is split so that the left part is the largest power of two of whole
leaves that leaves something for the right part.  `digest` is the definition of
the hash by this recursion on the whole input; how the same value is found from
input that arrives in pieces is a matter of the module on hashers.
-/

namespace MailVault
namespace Blake3

def blockSize : Nat := 64

def leafSize : Nat := 1024

/-- The last node of a leaf whose earlier blocks are held in `chain`. -/
def leafFrom (counter : Nat) (chain : ChainingValue) (flags : Flags) (input : Bytes) : Node :=
  if input.length ≤ blockSize then
    ⟨chain, Block.ofBytes input, input.length, counter, flags.union Flags.leafEnd⟩
  else
    let block : Node := ⟨chain, Block.ofBytes (input.take blockSize), blockSize, counter, flags⟩
    leafFrom counter block.compress Flags.none (input.drop blockSize)
termination_by input.length
decreasing_by simp [blockSize] at *; omega

def leaf (counter : Nat) (input : Bytes) : Node :=
  leafFrom counter initialValue Flags.leafStart input

/-- The node above two finished subtrees. -/
def parent (left right : ChainingValue) : Node :=
  ⟨initialValue, left ++ right, blockSize, 0, Flags.parent⟩

/-- The number of bytes below the left child of a tree over `length` bytes. -/
def leftSize (length : Nat) : Nat :=
  leafSize <<< Nat.log2 ((length - 1) / leafSize)

theorem leftSize_pos (length : Nat) : 0 < leftSize length := by
  rw [leftSize, Nat.shiftLeft_eq]
  exact Nat.mul_pos (by decide) (Nat.pow_pos (by decide))

/-- Something is left for the right child of a tree that is larger than a leaf. -/
theorem leftSize_lt {length : Nat} (large : leafSize < length) :
    leftSize length < length := by
  have more : (length - 1) / leafSize ≠ 0 := by
    have : leafSize ≤ length - 1 := by omega
    exact Nat.ne_of_gt (Nat.div_pos this (by decide))
  have power : 2 ^ Nat.log2 ((length - 1) / leafSize) ≤ (length - 1) / leafSize :=
    Nat.log2_self_le more
  have whole : leafSize * ((length - 1) / leafSize) ≤ length - 1 := Nat.mul_div_le _ _
  have : leftSize length ≤ length - 1 := by
    rw [leftSize, Nat.shiftLeft_eq]
    exact Nat.le_trans (Nat.mul_le_mul_left leafSize power) whole
  omega

theorem children_smaller {input : Bytes} (large : ¬ input.length ≤ leafSize) :
    (input.take (leftSize input.length)).length < input.length ∧
      (input.drop (leftSize input.length)).length < input.length := by
  have less := leftSize_lt (Nat.lt_of_not_le large)
  have some := leftSize_pos input.length
  rw [List.length_take, List.length_drop]
  omega

/-- The node over all of the input, whose first leaf has the given index. -/
def subtree (counter : Nat) (input : Bytes) : Node :=
  if input.length ≤ leafSize then leaf counter input
  else
    parent (subtree counter (input.take (leftSize input.length))).compress
      (subtree (counter + leftSize input.length / leafSize)
        (input.drop (leftSize input.length))).compress
termination_by input.length
decreasing_by
  · exact (children_smaller ‹_›).1
  · exact (children_smaller ‹_›).2

/-- The digest of a byte string. -/
def digest (input : Bytes) : Bytes :=
  ChainingValue.toBytes (subtree 0 input).finish

theorem length_digest (input : Bytes) : (digest input).length = 32 :=
  ChainingValue.length_toBytes _

end Blake3
end MailVault
