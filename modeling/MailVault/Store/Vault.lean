import MailVault.Store.Durable
import MailVault.Store.Faulty
import MailVault.Store.Volatile

/-!
# The vault

A vault holds any number of engines and the files of the durable ones.  An open
engine holds its file: while it is open no engine, itself included, can start on
the same file.  An engine that is not open answers nothing, except that closing a
message with a wrong total is refused for the total first.
-/

namespace MailVault
namespace Store

structure EngineKey where
  index : Nat
deriving DecidableEq

inductive Engine where
  | volatile (engine : Volatile)
  | durable (engine : Durable)
  | faulty (engine : Faulty Volatile)

def Engine.heldFile? : Engine → Option FileName
  | .durable engine => engine.file
  | _ => none

structure Vault where
  engines : Table EngineKey Engine
  disk : Disk
  /-- How many engines were ever made. -/
  made : Nat

namespace Vault

def empty : Vault where
  engines := Table.empty
  disk := Table.empty
  made := 0

instance : Inhabited Vault := ⟨empty⟩

def add (vault : Vault) (engine : Engine) : EngineKey × Vault :=
  let key : EngineKey := ⟨vault.made⟩
  (key, { vault with engines := vault.engines.insert key engine, made := vault.made + 1 })

def put (vault : Vault) (key : EngineKey) (engine : Engine) : Vault :=
  { vault with engines := vault.engines.insert key engine }

def isHeld (vault : Vault) (file : FileName) : Bool :=
  vault.engines.entries.any fun entry => entry.2.heldFile? = some file

/-- Start a durable engine: its file is created if it is missing, and is held from now on. -/
def startDurable (vault : Vault) (key : EngineKey) (engine : Durable) : Outcome Vault Unit :=
  match FilePath.locate vault.disk.contains engine.path with
  | .error fault => (.error (.database (.path fault)), vault)
  | .ok file =>
    if vault.isHeld file then (.error (.database .alreadyOpen), vault)
    else
      let contents := (vault.disk.find? file).getD Database.empty
      (.ok (),
        { vault.put key (.durable { engine with file := some file }) with
          disk := vault.disk.insert file contents })

/-- Stop a durable engine, which lets go of its file. -/
def stopDurable (vault : Vault) (key : EngineKey) (engine : Durable) : Outcome Vault Unit :=
  (.ok (), vault.put key (.durable { engine with file := none }))

/-- The contents of the file that a durable engine holds. -/
def contents? (vault : Vault) (engine : Durable) : Option (FileName × Database) := do
  let file ← engine.file
  return (file, ← vault.disk.find? file)

/-- What an engine that is not open answers. -/
def refuse {α : Type} : Call α → Except Fault α
  | .closeMessage _ total manifest _ => do
    checkTotal total manifest
    .error .notInitialized
  | _ => .error .notInitialized

def callDurable {α : Type} (vault : Vault) (key : EngineKey) (engine : Durable)
    (request : Call α) : Outcome Vault α :=
  match request with
  | .start => vault.startDurable key engine
  | .stop => vault.stopDurable key engine
  | request =>
    match vault.contents? engine with
    | none => (refuse request, vault)
    | some (file, database) =>
      match database.call request with
      | (result, database) => (result, { vault with disk := vault.disk.insert file database })

def call {α : Type} (vault : Vault) (key : EngineKey) (request : Call α) : Outcome Vault α :=
  match vault.engines.find? key with
  | none => (.error .notInitialized, vault)
  | some (.volatile engine) =>
    match engine.call request with
    | (result, engine) => (result, vault.put key (.volatile engine))
  | some (.durable engine) => vault.callDurable key engine request
  | some (.faulty engine) =>
    match engine.call Volatile.call request with
    | (result, engine) => (result, vault.put key (.faulty engine))

/-- A vault as the host of its engines. -/
def host : Host EngineKey Vault where
  call key request vault := vault.call key request

/-- Drop all engines but the named ones; files that they held are held no longer. -/
def retain (vault : Vault) (keys : List EngineKey) : Vault :=
  { vault with
    engines := ⟨vault.engines.entries.filter fun entry => decide (entry.1 ∈ keys)⟩ }

end Vault
end Store
end MailVault
