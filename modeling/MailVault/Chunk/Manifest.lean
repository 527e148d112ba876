import MailVault.Chunk.Digest

/-!
# Manifests

A message is stored as chunks, and each chunk is stored once however many
messages hold it.  The manifest of a message lists its chunks in order, each with
the part of the message in which it was cut.
-/

namespace MailVault

/-- One chunk of a message. -/
structure Descriptor where
  digest : Digest
  size : Nat
  /-- The node of the part in which the chunk was cut. -/
  part : String
  contentType : Option String := none
deriving DecidableEq

/-- The chunks of a message in order. -/
structure Manifest where
  entries : List Descriptor := []
deriving DecidableEq

namespace Manifest

def empty : Manifest where

instance : Inhabited Manifest := ⟨empty⟩

def push (manifest : Manifest) (descriptor : Descriptor) : Manifest where
  entries := manifest.entries ++ [descriptor]

def size (manifest : Manifest) : Nat :=
  manifest.entries.length

/-- The number of bytes in the listed chunks together. -/
def sizeOf : List Descriptor → Nat
  | [] => 0
  | descriptor :: rest => descriptor.size + sizeOf rest

def totalSize (manifest : Manifest) : Nat :=
  sizeOf manifest.entries

def isEmpty (manifest : Manifest) : Bool :=
  manifest.entries.isEmpty

theorem sizeOf_append (left right : List Descriptor) :
    sizeOf (left ++ right) = sizeOf left + sizeOf right := by
  induction left with
  | nil => simp [sizeOf]
  | cons first rest inductionStep =>
    rw [List.cons_append, sizeOf, sizeOf, inductionStep, Nat.add_assoc]

@[simp] theorem totalSize_push (manifest : Manifest) (descriptor : Descriptor) :
    (manifest.push descriptor).totalSize = manifest.totalSize + descriptor.size := by
  simp [totalSize, push, sizeOf_append, sizeOf]

end Manifest

/-- A chunk as a storage engine gives it back. -/
structure StoredChunk where
  digest : Digest
  data : Bytes
  /-- How often the chunk was added. -/
  references : Nat
deriving DecidableEq

namespace StoredChunk

def size (chunk : StoredChunk) : Nat :=
  chunk.data.length

/-- A line that tells size, references and digest. -/
def describe (chunk : StoredChunk) : String :=
  "Chunk(" ++ toString chunk.size ++ " bytes, refs=" ++ toString chunk.references ++
    ", hash=" ++ chunk.digest.toHex ++ ")"

end StoredChunk
end MailVault
