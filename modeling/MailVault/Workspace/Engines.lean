import MailVault.Workspace.Basic

/-!
# Named engines and readers

Engines are called by name.  A reader keeps the engine it was made over, whatever the name stands
for later.
-/

namespace MailVault

open Store (Call EngineKey Fault Vault)

namespace Workspace

def addEngine (name : String) (engine : Store.Engine) : Action Unit := do
  let key ← onVault fun vault => vault.add engine
  modify fun workspace => { workspace with stores := workspace.stores.insert name key }

def call {α : Type} (name : String) (request : Call α) : Action (Except Fault α) := do
  let key ← named stores name
  onVault fun vault => vault.call key request

def engine (name : String) : Action Store.Engine := do
  let key ← named stores name
  match (← get).relay.vault.engines.find? key with
  | some engine => pure engine
  | none => failure

def planFaults (name : String) (kind : Call.Kind) (plan : Store.Plan) : Action Unit := do
  let key ← named stores name
  match ← engine name with
  | .faulty faulty => onVault fun vault => ((), vault.put key (.faulty (faulty.schedule kind plan)))
  | _ => failure

/-- How many additions of one chunk succeeded, and how many of these found it new. -/
structure Additions where
  succeeded : Nat
  fresh : Nat

/-- Add the same chunk so many times.  Additions that fail do not keep the others from being made,
and are not counted. -/
def addRepeatedly (name : String) (digest : Digest) (data : Bytes) : Nat → Action Additions
  | 0 => pure ⟨0, 0⟩
  | count + 1 => do
    let result ← call name (.addChunk digest data)
    let others ← addRepeatedly name digest data count
    match result with
    | .error _ => return others
    | .ok known =>
      return ⟨others.succeeded + 1, if known then others.fresh else others.fresh + 1⟩

def readMessage (name : String) (id : MessageId) : Action (Except Fault Bytes) := do
  let key ← named stores name
  onVault fun vault => MailVault.readMessage Vault.host key id vault

/-! ## Readers -/

def addReader (name store : String) (manifest : Manifest) : Action (MessageReader EngineKey) := do
  let key ← named stores store
  let reader := MessageReader.ofManifest key manifest
  modify fun workspace => { workspace with readers := workspace.readers.insert name reader }
  return reader

/-- Name a reader of a stored message, if the message is there. -/
def openReader (name store : String) (id : MessageId) :
    Action (Except Fault (MessageReader EngineKey)) := do
  let key ← named stores store
  match ← onVault fun vault => MessageReader.openMessage Vault.host key id vault with
  | .error fault => return .error fault
  | .ok reader =>
    modify fun workspace => { workspace with readers := workspace.readers.insert name reader }
    return .ok reader

/-- Read with a reader: so many bytes at most, or all that are left. -/
def read (name : String) (most : Option Nat) :
    Action (Except Fault Bytes × MessageReader EngineKey) := do
  let reader ← named readers name
  let (result, reader) ← onVault fun vault =>
    let (result, reader, vault) :=
      match most with
      | some most => reader.read Vault.host most vault
      | none => reader.readToEnd Vault.host vault
    ((result, reader), vault)
  modify fun workspace => { workspace with readers := workspace.readers.insert name reader }
  return (result, reader)

end Workspace
end MailVault
