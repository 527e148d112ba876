import MailVault.Blake3.Tree

/-!
# Hashing input that arrives in pieces

A hasher keeps the bytes of the leaf that is being filled and one chaining value
for each maximal full subtree to the left of it.  Those subtrees are the binary
digits of the number of finished leaves, so a finished leaf joins the subtrees
on top of the stack exactly as a carry runs through a counter.

The leaf that is being filled is not finished before more input arrives: it may
be the last one, and the last leaf is a node of its own when the hash ends.
-/

namespace MailVault
namespace Blake3

/-- The state of a hash in progress. -/
structure Hasher where
  /-- The maximal full subtrees, the latest first. -/
  stack : List ChainingValue := []
  /-- The number of leaves below the stack. -/
  leaves : Nat := 0
  /-- The bytes of the leaf that is being filled, at most `leafSize` of them. -/
  pending : Bytes := []

namespace Hasher

def empty : Hasher where

instance : Inhabited Hasher := ⟨empty⟩

/-- Add a finished subtree; `count` is the number of subtrees of its size, itself included. -/
def carry : List ChainingValue → ChainingValue → Nat → List ChainingValue
  | [], value, _ => [value]
  | top :: rest, value, count =>
    if count % 2 = 0 then carry rest (parent top value).compress (count / 2)
    else value :: top :: rest

/-- Finish the leaf that consists of the given bytes. -/
def pushLeaf (hasher : Hasher) (full : Bytes) : Hasher where
  stack := carry hasher.stack (leaf hasher.leaves full).compress (hasher.leaves + 1)
  leaves := hasher.leaves + 1
  pending := []

/-- Take in the bytes of the current leaf and all that follows them. -/
def absorb (hasher : Hasher) (input : Bytes) : Hasher :=
  if input.length ≤ leafSize then { hasher with pending := input }
  else (hasher.pushLeaf (input.take leafSize)).absorb (input.drop leafSize)
termination_by input.length
decreasing_by simp [leafSize] at *; omega

def update (hasher : Hasher) (input : Bytes) : Hasher :=
  hasher.absorb (hasher.pending ++ input)

/-- The node over all input so far: the last leaf joined with the stack from its top down. -/
def node (hasher : Hasher) : Node :=
  hasher.stack.foldl (fun right left => parent left right.compress)
    (leaf hasher.leaves hasher.pending)

/-- The digest of all input so far; the hasher itself is not changed by reading it. -/
def finalize (hasher : Hasher) : Bytes :=
  ChainingValue.toBytes hasher.node.finish

theorem length_finalize (hasher : Hasher) : hasher.finalize.length = 32 :=
  ChainingValue.length_toBytes _

end Hasher
end Blake3
end MailVault
