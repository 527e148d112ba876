import MailVault.Store.Call
import MailVault.Store.Deflate
import MailVault.Table

/-!
# The volatile engine

All state is in memory and is gone with the engine.  Chunks are kept as deflated
payloads.  Every call is one step on the state, except that opening a message
takes a number first and publishes the record under it afterwards; the two are
separate functions, so that steps of several callers can be interleaved.
-/

namespace MailVault
namespace Store

/-- A chunk as the volatile engine keeps it. -/
structure Packed where
  payload : Bytes
  /-- The number of bytes before they were deflated. -/
  size : Nat
  references : Nat
deriving DecidableEq

structure Volatile where
  level : Nat
  /-- The number that the next message gets. -/
  next : Nat
  messages : Table MessageId MessageRecord
  chunks : Table Digest Packed

namespace Volatile

def maxLevel : Nat := 9

/-- A new engine; a level above the strongest one counts as that. -/
def new (level : Nat) : Volatile where
  level := min level maxLevel
  next := 1
  messages := Table.empty
  chunks := Table.empty

/-- Take a number for a message that is to be published. -/
def reserve (engine : Volatile) : MessageId × Volatile :=
  (⟨engine.next⟩, { engine with next := engine.next + 1 })

/-- Publish the record of a message under its number. -/
def publish (engine : Volatile) (id : MessageId) (opening : Opening) : Volatile :=
  { engine with messages := engine.messages.insert id (.opened id opening) }

/-- Open a message: take a number, then publish the record under it. -/
def openMessage (engine : Volatile) (opening : Opening) : Outcome Volatile MessageId :=
  let (id, engine) := engine.reserve
  (.ok id, engine.publish id opening)

def closeMessage (engine : Volatile) (id : MessageId) (total : Nat) (manifest : Manifest)
    (summary : Summary) : Outcome Volatile Unit :=
  match checkTotal total manifest with
  | .error fault => (.error fault, engine)
  | .ok () =>
    match engine.messages.find? id with
    | none => (.error (.unknownMessage id), engine)
    | some record =>
      (.ok (),
        { engine with
          messages := engine.messages.insert id (record.close total manifest summary) })

/-- Add a chunk: a known digest is counted, a new one is deflated. -/
def addChunk (engine : Volatile) (digest : Digest) (data : Bytes) : Outcome Volatile Bool :=
  match engine.chunks.find? digest with
  | some packed =>
    (.ok true,
      { engine with
        chunks := engine.chunks.insert digest
          { packed with references := packed.references + 1 } })
  | none =>
    (.ok false,
      { engine with
        chunks := engine.chunks.insert digest
          ⟨Deflate.deflate engine.level data, data.length, 1⟩ })

def getMessage (engine : Volatile) (id : MessageId) : Except Fault MessageRecord :=
  match engine.messages.find? id with
  | some record => .ok record
  | none => .error (.unknownMessage id)

/-- The chunk that a payload holds. -/
def unpack (digest : Digest) (packed : Packed) : Except Fault StoredChunk :=
  match Deflate.inflate packed.payload with
  | some data => .ok ⟨digest, data, packed.references⟩
  | none => .error (.compression "corrupt deflate stream")

/-- The chunk of a digest: its payload is looked up and then inflated. -/
def getChunk (engine : Volatile) (digest : Digest) : Except Fault StoredChunk :=
  match engine.chunks.find? digest with
  | some packed => unpack digest packed
  | none => .error (.unknownChunk digest)

/-- The answer to any call; there is nothing to start or stop. -/
def call {α : Type} (engine : Volatile) (request : Call α) : Outcome Volatile α :=
  match request with
  | .start => (.ok (), engine)
  | .stop => (.ok (), engine)
  | .openMessage opening => engine.openMessage opening
  | .closeMessage id total manifest summary => engine.closeMessage id total manifest summary
  | .addChunk digest data => engine.addChunk digest data
  | .getMessage id => (engine.getMessage id, engine)
  | .getChunk digest => (engine.getChunk digest, engine)

def chunkCount (engine : Volatile) : Nat :=
  engine.chunks.size

def messageCount (engine : Volatile) : Nat :=
  engine.messages.size

end Volatile
end Store
end MailVault
