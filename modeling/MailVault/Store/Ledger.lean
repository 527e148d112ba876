import MailVault.Store.Call
import MailVault.Table

/-!
# What an engine has to remember

The ledger is the plain account of a store: messages by number, and for each
digest the bytes of the first addition with the count of all additions.  It knows
nothing of payloads, files or locks.  The engines are correct when they answer as
the ledger does.
-/

namespace MailVault
namespace Store

/-- The bytes of a chunk and how often it was added. -/
structure Held where
  data : Bytes
  references : Nat
deriving DecidableEq

/-- The plain account of a store. -/
structure Ledger where
  /-- The number of the message that was opened last. -/
  last : Nat := 0
  messages : Table MessageId MessageRecord := Table.empty
  chunks : Table Digest Held := Table.empty

namespace Ledger

def empty : Ledger where

/-- Open a message under the next number. -/
def openMessage (ledger : Ledger) (opening : Opening) : Outcome Ledger MessageId :=
  let id : MessageId := ⟨ledger.last + 1⟩
  (.ok id,
    { ledger with
      last := id.value
      messages := ledger.messages.insert id (.opened id opening) })

/-- Close a message; its total is checked before its number is looked up. -/
def closeMessage (ledger : Ledger) (id : MessageId) (total : Nat) (manifest : Manifest)
    (summary : Summary) : Outcome Ledger Unit :=
  match checkTotal total manifest with
  | .error fault => (.error fault, ledger)
  | .ok () =>
    match ledger.messages.find? id with
    | none => (.error (.unknownMessage id), ledger)
    | some record =>
      (.ok (),
        { ledger with
          messages := ledger.messages.insert id (record.close total manifest summary) })

/-- Count one more addition of a digest; only the first one brings bytes. -/
def addChunk (ledger : Ledger) (digest : Digest) (data : Bytes) : Outcome Ledger Bool :=
  match ledger.chunks.find? digest with
  | some held =>
    (.ok true,
      { ledger with
        chunks := ledger.chunks.insert digest ⟨held.data, held.references + 1⟩ })
  | none => (.ok false, { ledger with chunks := ledger.chunks.insert digest ⟨data, 1⟩ })

def getMessage (ledger : Ledger) (id : MessageId) : Except Fault MessageRecord :=
  match ledger.messages.find? id with
  | some record => .ok record
  | none => .error (.unknownMessage id)

def getChunk (ledger : Ledger) (digest : Digest) : Except Fault StoredChunk :=
  match ledger.chunks.find? digest with
  | some held => .ok ⟨digest, held.data, held.references⟩
  | none => .error (.unknownChunk digest)

def call {α : Type} (ledger : Ledger) (request : Call α) : Outcome Ledger α :=
  match request with
  | .start => (.ok (), ledger)
  | .stop => (.ok (), ledger)
  | .openMessage opening => ledger.openMessage opening
  | .closeMessage id total manifest summary => ledger.closeMessage id total manifest summary
  | .addChunk digest data => ledger.addChunk digest data
  | .getMessage id => (ledger.getMessage id, ledger)
  | .getChunk digest => (ledger.getChunk digest, ledger)

end Ledger
end Store
end MailVault
