import MailVault.Message.Reader
import MailVault.Registry
import MailVault.Store.Vault
import MailVault.Transit.Relay

/-!
# Workspaces

A workspace is a set of named things: engines, envelopes, buffers, stages, savers,
registries and readers.  Naming something anew drops the old thing, and handing a
buffer or a saver over to something else takes its name away.

An engine stays in the vault as long as anything in the workspace uses it.  A
durable engine that nothing uses any more lets go of its file.
-/

namespace MailVault

open Store (EngineKey Vault)
open Transit (Buffer EnvelopeKey Relay StageKey)

/-- All things that have names. -/
structure Workspace where
  relay : Relay EngineKey Vault
  stores : Table String EngineKey
  envelopes : Table String EnvelopeKey
  buffers : Table String (Buffer EngineKey)
  stages : Table String StageKey
  savers : Table String Saver
  registries : Table String Registry
  readers : Table String (MessageReader EngineKey)

namespace Workspace

def empty : Workspace where
  relay := Relay.empty Vault.empty
  stores := Table.empty
  envelopes := Table.empty
  buffers := Table.empty
  stages := Table.empty
  savers := Table.empty
  registries := Table.empty
  readers := Table.empty

/-- The engines that something in the workspace uses. -/
def usedEngines (workspace : Workspace) : List EngineKey :=
  let values {β : Type} (table : Table String β) : List β := table.entries.map Prod.snd
  let registered := (values workspace.registries).flatMap fun registry =>
    registry.savers.entries.map Prod.snd
  values workspace.stores ++
    (values workspace.buffers).filterMap Buffer.store ++
    (values workspace.stages).flatMap (fun key => workspace.relay.enginesFrom key.index) ++
    (values workspace.savers ++ registered).filterMap Saver.store ++
    (values workspace.readers).map MessageReader.store

/-- Drop the engines that nothing uses. -/
def tidy (workspace : Workspace) : Workspace :=
  { workspace with
    relay :=
      { workspace.relay with vault := workspace.relay.vault.retain workspace.usedEngines } }

/-- An action on a workspace, which is void when it uses a name that is not there. -/
abbrev Action (α : Type) := StateT Workspace Option α

/-- Perform an action and drop what nothing uses afterwards. -/
def perform {α : Type} (workspace : Workspace) (action : Action α) : Option (α × Workspace) :=
  (action.run workspace).map fun (answer, workspace) => (answer, workspace.tidy)

/-- The thing of that name. -/
def named {β : Type} (table : Workspace → Table String β) (name : String) : Action β := do
  match (table (← get)).find? name with
  | some value => pure value
  | none => failure

def onVault {α : Type} (step : Vault → α × Vault) : Action α := do
  let workspace ← get
  let (answer, vault) := step workspace.relay.vault
  set { workspace with relay := { workspace.relay with vault := vault } }
  return answer

def onRelay {α : Type} (step : Relay EngineKey Vault → α × Relay EngineKey Vault) : Action α := do
  let workspace ← get
  let (answer, relay) := step workspace.relay
  set { workspace with relay := relay }
  return answer

end Workspace
end MailVault
