import MailVault.Message.Record
import MailVault.Store.FilePath

/-!
# The calls of a storage engine

What can be asked of an engine is a type, indexed by the type of the answer.  An
engine is then one function on calls, and a wrapper around an engine, such as one
that lets calls fail, is one function too.
-/

namespace MailVault
namespace Store

/-- Why the durable engine cannot open its file. -/
inductive DatabaseFault where
  /-- The file is held by an engine that is open. -/
  | alreadyOpen
  /-- The path of the engine leads to no file. -/
  | path (fault : PathFault)
deriving DecidableEq

inductive Fault where
  | notInitialized
  | unknownMessage (id : MessageId)
  | unknownChunk (digest : Digest)
  /-- The total of a message differs from the sizes in its manifest, or the length of a chunk
  from the size in its descriptor. -/
  | sizeMismatch (recorded manifest : Nat)
  | compression (cause : String)
  /-- A stored record cannot be read. -/
  | unreadable (cause : String)
  | database (cause : DatabaseFault)
deriving DecidableEq

namespace DatabaseFault

def message : DatabaseFault → String
  | alreadyOpen => "Database already open. Cannot acquire lock."
  | path fault => "I/O error: " ++ fault.message

end DatabaseFault

namespace Fault

def message : Fault → String
  | notInitialized => "storage engine is not initialized"
  | unknownMessage id => "unknown message " ++ toString id.value
  | unknownChunk digest => "unknown chunk " ++ digest.toHex
  | sizeMismatch recorded manifest =>
    "recorded " ++ toString recorded ++ " bytes but manifest holds " ++ toString manifest
  | compression cause => "compression error: " ++ cause
  | unreadable cause => "serialization error: " ++ cause
  | database cause => "redb error: " ++ cause.message

end Fault

/-- A call, indexed by the type of its answer. -/
inductive Call : Type → Type where
  | start : Call Unit
  | stop : Call Unit
  | openMessage (opening : Opening) : Call MessageId
  | closeMessage (id : MessageId) (total : Nat) (manifest : Manifest) (summary : Summary) :
      Call Unit
  /-- Store bytes under a digest; the answer tells whether the digest was known. -/
  | addChunk (digest : Digest) (data : Bytes) : Call Bool
  | getMessage (id : MessageId) : Call MessageRecord
  | getChunk (digest : Digest) : Call StoredChunk

namespace Call

/-- The names of the calls. -/
inductive Kind where
  | start
  | stop
  | openMessage
  | closeMessage
  | addChunk
  | getMessage
  | getChunk
deriving DecidableEq

def kind {α : Type} : Call α → Kind
  | start => .start
  | stop => .stop
  | openMessage _ => .openMessage
  | closeMessage _ _ _ _ => .closeMessage
  | addChunk _ _ => .addChunk
  | getMessage _ => .getMessage
  | getChunk _ => .getChunk

end Call

/-- What a call answers, and the state it leaves. -/
abbrev Outcome (σ α : Type) := Except Fault α × σ

/-- Engines with names in `κ` whose states together are a `σ`. -/
structure Host (κ σ : Type) where
  /-- The answer of the named engine to a call. -/
  call : {α : Type} → κ → Call α → σ → Outcome σ α

/-- The total of a message has to be the sum of the sizes in its manifest. -/
def checkTotal (total : Nat) (manifest : Manifest) : Except Fault Unit :=
  if total = manifest.totalSize then .ok () else .error (.sizeMismatch total manifest.totalSize)

end Store
end MailVault
