import MailVault.Workspace.Basic

/-!
# Named envelopes, buffers and stages

An envelope is shared: a change shows in every stage whose message it belongs to.  A buffer is
owned: a stage that takes it over takes its name away.
-/

namespace MailVault

open Store (EngineKey Fault Vault)
open Transit (Buffer EnvelopeKey Next Sink Splitter Stage StageKey TransitFault)

namespace Workspace

def addEnvelope (name : String) (envelope : Envelope) : Action Envelope := do
  let workspace ← get
  let (key, relay) := workspace.relay.addEnvelope envelope
  set { workspace with relay := relay, envelopes := workspace.envelopes.insert name key }
  return envelope

def envelope (name : String) : Action (EnvelopeKey × Envelope) := do
  let key ← named envelopes name
  match (← get).relay.envelopes.find? key with
  | some envelope => pure (key, envelope)
  | none => failure

/-- Change an envelope, also for the stages that use it. -/
def changeEnvelope (name : String) (change : Envelope → Envelope) : Action Envelope := do
  let (key, old) ← envelope name
  let changed := change old
  modify fun workspace =>
    { workspace with
      relay :=
        { workspace.relay with
          envelopes := workspace.relay.envelopes.insert key changed } }
  return changed

/-! ## Buffers -/

def putBuffer (name : String) (buffer : Buffer EngineKey) : Action Unit :=
  modify fun workspace => { workspace with buffers := workspace.buffers.insert name buffer }

def takeBuffer (name : String) : Action (Buffer EngineKey) := do
  let buffer ← named buffers name
  modify fun workspace => { workspace with buffers := workspace.buffers.erase name }
  return buffer

/-- Run a step of a buffer that may call the engine. -/
def onBuffer {α : Type} (name : String)
    (step : Buffer EngineKey → Vault → Except Fault α × Buffer EngineKey × Vault) :
    Action (Except Fault α) := do
  let buffer ← named buffers name
  let (result, buffer) ← onVault fun vault =>
    let (result, buffer, vault) := step buffer vault
    ((result, buffer), vault)
  putBuffer name buffer
  return result

/-! ## Stages -/

def setStore (name store : String) : Action Unit := do
  let key ← named stores store
  let buffer ← named buffers name
  putBuffer name (buffer.setStore key)

/-- What follows a new stage: the named stage, or a sink. -/
def following (next : Option String) (sink : Sink) : Action Next :=
  match next with
  | none => pure (.sink sink)
  | some name => do
    let key ← named stages name
    return .stage key

def addStage (name : String) (splitter : Splitter EngineKey) (next : Next) (registered : Bool) :
    Action Unit :=
  modify fun workspace =>
    let (key, relay) := workspace.relay.addStage (Stage.new splitter next registered)
    { workspace with relay := relay, stages := workspace.stages.insert name key }

/-- Name a stage over an engine, with a buffer that is handed over or a new one with a cap. -/
def addSplitter (name store : String) (cap : Nat) (bufferName next : Option String)
    (sink : Sink) : Action Unit := do
  let key ← named stores store
  let next ← following next sink
  match bufferName with
  | none => addStage name (.new key cap) next false
  | some bufferName => do
    let buffer ← takeBuffer bufferName
    addStage name (.withBuffer key buffer) next false

def stage (name : String) : Action (StageKey × Stage EngineKey) := do
  let key ← named stages name
  match (← get).relay.stages.find? key with
  | some stage => pure (key, stage)
  | none => failure

def openMessage (name envelopeName : String) : Action (Except TransitFault MessageId) := do
  let (key, stage) ← stage name
  let (envelopeKey, envelope) ← envelope envelopeName
  onRelay fun relay => relay.openMessage Vault.host key stage envelopeKey envelope

def write (name : String) (data : Bytes) : Action (Except TransitFault Nat) := do
  let key ← named stages name
  onRelay fun relay => relay.write Vault.host key.index data

def closeMessage (name : String) : Action (Except TransitFault Unit) := do
  let (key, stage) ← stage name
  onRelay fun relay => relay.closeMessage Vault.host key stage

def forgetStage (name : String) : Action Unit :=
  modify fun workspace => { workspace with stages := workspace.stages.erase name }

end Workspace
end MailVault
