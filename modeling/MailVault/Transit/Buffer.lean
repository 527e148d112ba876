import MailVault.Blake3.Hasher
import MailVault.Mime.Part
import MailVault.Store.Call
import MailVault.Text.Quoted

/-!
# The chunk that is being built

A buffer takes in bytes, hashes them as they come, and stores them as one chunk
when it is flushed or when its cap is reached.  Each chunk carries the label that
is current when it is stored.

A flush that fails changes nothing: the bytes stay pending and a later flush
stores the same chunk.  Input that is cut off by a failed flush is lost behind
the cut, and the caller learns how much was taken from the buffer itself.
-/

namespace MailVault
namespace Transit

open Store (Fault Host)

/-- What chunks are labelled with. -/
structure Label where
  node : String := ""
  contentType : Option String := none
deriving DecidableEq

namespace Label

/-- No part yet. -/
def none : Label where

def ofPart (part : Mime.Part) : Label :=
  ⟨part.node, part.contentType?⟩

end Label

def defaultCap : Nat := 16384

/-- A size that was asked for; zero asks for the default. -/
def capOf (asked : Nat) : Nat :=
  if asked = 0 then defaultCap else asked

theorem capOf_pos (asked : Nat) : 0 < capOf asked := by
  rw [capOf]
  split
  · decide
  · omega

/-- A chunk in progress, with the chunks already stored. -/
structure Buffer (κ : Type) where
  pending : Bytes
  cap : Nat
  cap_pos : 0 < cap
  /-- The hash of the pending bytes. -/
  hasher : Blake3.Hasher
  label : Label
  manifest : Manifest
  /-- Where chunks are stored. -/
  store : Option κ

namespace Buffer

variable {κ σ : Type}

def new : Buffer κ where
  pending := []
  cap := defaultCap
  cap_pos := by decide
  hasher := .empty
  label := Label.none
  manifest := Manifest.empty
  store := none

/-- Change the cap; bytes that are pending stay. -/
def capTo (buffer : Buffer κ) (asked : Nat) : Buffer κ :=
  { buffer with cap := capOf asked, cap_pos := capOf_pos asked }

def setStore (buffer : Buffer κ) (store : κ) : Buffer κ :=
  { buffer with store := some store }

/-- Choose the part that the following chunks are labelled with. -/
def relabel (buffer : Buffer κ) (part : Mime.Part) : Buffer κ :=
  { buffer with label := Label.ofPart part }

/-- The number of bytes in stored chunks and in the pending one. -/
def taken (buffer : Buffer κ) : Nat :=
  buffer.manifest.totalSize + buffer.pending.length

/-- How many bytes fit before the cap is reached. -/
def room (buffer : Buffer κ) : Nat :=
  buffer.cap - buffer.pending.length

def append (buffer : Buffer κ) (data : Bytes) : Buffer κ :=
  { buffer with
    pending := buffer.pending ++ data
    hasher := buffer.hasher.update data }

def descriptor (buffer : Buffer κ) : Descriptor where
  digest := Digest.ofHasher buffer.hasher
  size := buffer.pending.length
  part := buffer.label.node
  contentType := buffer.label.contentType

/-- The buffer after its pending chunk is stored. -/
def flushed (buffer : Buffer κ) : Buffer κ :=
  { buffer with
    pending := []
    hasher := .empty
    manifest := buffer.manifest.push buffer.descriptor }

@[simp] theorem taken_append (buffer : Buffer κ) (data : Bytes) :
    (buffer.append data).taken = buffer.taken + data.length := by
  simp [taken, append, Nat.add_assoc]

@[simp] theorem taken_flushed (buffer : Buffer κ) : buffer.flushed.taken = buffer.taken := by
  simp [taken, flushed, descriptor]

/-- Hand the pending chunk to the store. -/
def deposit (buffer : Buffer κ) (host : Host κ σ) (state : σ) : Except Fault Unit × σ :=
  match buffer.store with
  | none => (.error .notInitialized, state)
  | some store =>
    match host.call store (.addChunk (Digest.ofHasher buffer.hasher) buffer.pending) state with
    | (.error fault, state) => (.error fault, state)
    | (.ok _, state) => (.ok (), state)

def flush (buffer : Buffer κ) (host : Host κ σ) (state : σ) :
    Except Fault Unit × Buffer κ × σ :=
  if buffer.pending = [] then (.ok (), buffer, state)
  else
    match buffer.deposit host state with
    | (.error fault, state) => (.error fault, buffer, state)
    | (.ok (), state) => (.ok (), buffer.flushed, state)

/-- Take in bytes, and store a chunk each time that the cap is reached. -/
def feed (buffer : Buffer κ) (host : Host κ σ) (data : Bytes) (state : σ) :
    Except Fault Unit × Buffer κ × σ :=
  if data = [] then (.ok (), buffer, state)
  else if (data.take buffer.room).length < buffer.room then (.ok (), buffer.append data, state)
  else
    let full := buffer.append (data.take buffer.room)
    match full.deposit host state with
    | (.error fault, state) => (.error fault, full, state)
    | (.ok (), state) => full.flushed.feed host (data.drop buffer.room) state
termination_by 2 * data.length + min buffer.pending.length 1
decreasing_by
  have some : 0 < data.length := List.length_pos_iff.mpr ‹_›
  have positive := buffer.cap_pos
  simp only [flushed, room, List.length_drop, List.length_nil]
  omega

/-- Take in bytes; the answer is how many there were. -/
def write (buffer : Buffer κ) (host : Host κ σ) (data : Bytes) (state : σ) :
    Except Fault Nat × Buffer κ × σ :=
  match buffer.feed host data state with
  | (.error fault, buffer, state) => (.error fault, buffer, state)
  | (.ok (), buffer, state) => (.ok data.length, buffer, state)

/-- Forget pending bytes, stored chunks and the label; cap and store stay. -/
def reset (buffer : Buffer κ) : Buffer κ :=
  { buffer with
    pending := []
    hasher := .empty
    label := Label.none
    manifest := Manifest.empty }

/-- Hand over the manifest and start anew. -/
def takeManifest (buffer : Buffer κ) : Manifest × Buffer κ :=
  (buffer.manifest, buffer.reset)

def describe (buffer : Buffer κ) : String :=
  "ChunkBuffer \x7b buffered: " ++ toString buffer.pending.length ++
    ", cap: " ++ toString buffer.cap ++
    ", part: " ++ Text.quote buffer.label.node ++
    ", chunks: " ++ toString buffer.manifest.size ++
    ", storage: " ++ toString buffer.store.isSome ++ " \x7d"

end Buffer
end Transit
end MailVault
