import MailVault.Message.Encoding
import MailVault.Store.Call
import MailVault.Table

/-!
# The durable engine

A file holds four tables: payloads and reference counts by digest, records by
number in their written form, and the number that was given out last.  Files
outlive the engines that open them.  A call either changes the tables as a whole
or leaves them as they were.

The functions here are about the contents of one open file.  Which engine holds
which file is a matter of the vault.
-/

namespace MailVault
namespace Store

/-- The contents of a file. -/
structure Database where
  payloads : Table Digest Bytes
  references : Table Digest Nat
  messages : Table MessageId Json.Value
  /-- The number that was given out last. -/
  last : Option Nat

namespace Database

def empty : Database where
  payloads := Table.empty
  references := Table.empty
  messages := Table.empty
  last := none

/-- Open a message: the number and the record are written together. -/
def openMessage (database : Database) (opening : Opening) : Outcome Database MessageId :=
  let id : MessageId := ⟨database.last.getD 0 + 1⟩
  (.ok id,
    { database with
      last := some id.value
      messages := database.messages.insert id (MessageRecord.opened id opening).toValue })

def getMessage (database : Database) (id : MessageId) : Except Fault MessageRecord :=
  match database.messages.find? id with
  | none => .error (.unknownMessage id)
  | some written =>
    match MessageRecord.ofValue written with
    | .ok record => .ok record
    | .error mismatch => .error (.unreadable mismatch.message)

/-- Close a message whose total has been checked: its record is read, filled in and written. -/
def closeMessage (database : Database) (id : MessageId) (total : Nat) (manifest : Manifest)
    (summary : Summary) : Outcome Database Unit :=
  match database.getMessage id with
  | .error fault => (.error fault, database)
  | .ok record =>
    (.ok (),
      { database with
        messages := database.messages.insert id (record.close total manifest summary).toValue })

/-- Add a chunk: a known digest is counted, the bytes of a new one are written. -/
def addChunk (database : Database) (digest : Digest) (data : Bytes) : Outcome Database Bool :=
  match database.references.find? digest with
  | some count =>
    (.ok true, { database with references := database.references.insert digest (count + 1) })
  | none =>
    (.ok false,
      { database with
        payloads := database.payloads.insert digest data
        references := database.references.insert digest 1 })

def getChunk (database : Database) (digest : Digest) : Except Fault StoredChunk :=
  match database.payloads.find? digest with
  | none => .error (.unknownChunk digest)
  | some data => .ok ⟨digest, data, (database.references.find? digest).getD 0⟩

/-- The answer of an open file to a call; starting and stopping leave the contents alone. -/
def call {α : Type} (database : Database) (request : Call α) : Outcome Database α :=
  match request with
  | .start => (.ok (), database)
  | .stop => (.ok (), database)
  | .openMessage opening => database.openMessage opening
  | .closeMessage id total manifest summary =>
    match checkTotal total manifest with
    | .error fault => (.error fault, database)
    | .ok () => database.closeMessage id total manifest summary
  | .addChunk digest data => database.addChunk digest data
  | .getMessage id => (database.getMessage id, database)
  | .getChunk digest => (database.getChunk digest, database)

end Database

/-- The files that exist, with their contents. -/
abbrev Disk := Table FileName Database

/-- The state of a durable engine besides its file. -/
structure Durable where
  path : String
  /-- The file that the engine holds while it is open. -/
  file : Option FileName
deriving DecidableEq

namespace Durable

/-- An engine on a path; the file is not opened. -/
def new (path : String) : Durable where
  path := path
  file := none

def describe (engine : Durable) : String :=
  "RedbStorage \x7b path: " ++ Text.quote engine.path ++
    ", open: " ++ toString engine.file.isSome ++ " \x7d"

end Durable
end Store
end MailVault
