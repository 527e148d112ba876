import MailVault.Workspace.Stages

/-!
# Named savers and registries

A saver that is registered belongs to the registry and loses its name.
-/

namespace MailVault

open Transit (Sink)

namespace Workspace

def putSaver (name : String) (saver : Saver) : Action Unit :=
  modify fun workspace => { workspace with savers := workspace.savers.insert name saver }

def addSaver (name : String) (settings : Option Settings) (store : Option String) :
    Action Saver := do
  let key ←
    match store with
    | none => pure none
    | some store => do
      let key ← named stores store
      pure (some key)
  let saver : Saver := ⟨settings, key⟩
  putSaver name saver
  return saver

def startSaver (name : String) (backend : Json.Fields) :
    Action (Except SaverFault Unit × Saver) := do
  let saver ← named savers name
  let (result, saver) ← onVault fun vault =>
    let (result, saver, vault) := saver.start backend vault
    ((result, saver), vault)
  putSaver name saver
  return (result, saver)

def stopSaver (name : String) : Action (Except SaverFault Unit) := do
  let saver ← named savers name
  onVault fun vault => saver.stop vault

/-- Name the engine of a saver; the answer tells whether it has one. -/
def nameStore (saverName name : String) : Action Bool := do
  let saver ← named savers saverName
  match saver.store with
  | none => return false
  | some key =>
    modify fun workspace => { workspace with stores := workspace.stores.insert name key }
    return true

/-- Make a stage with a saver.  A buffer that is handed over is gone also if this fails. -/
def decorate (saverName name : String) (bufferName next : Option String) (sink : Sink) :
    Action (Except SettingsFault Unit) := do
  let saver ← named savers saverName
  let next ← following next sink
  let made ←
    match bufferName with
    | none => pure saver.decorate
    | some bufferName => do
      let buffer ← takeBuffer bufferName
      pure (saver.decorateBuffer buffer)
  match made with
  | .error fault => return .error fault
  | .ok splitter =>
    addStage name splitter next false
    return .ok ()

def putRegistry (name : String) (registry : Registry) : Action Unit :=
  modify fun workspace => { workspace with registries := workspace.registries.insert name registry }

/-- Move a saver into a registry; the answer tells whether it replaces another one. -/
def register (registryName name saverName : String) : Action (Bool × Registry) := do
  let registry ← named registries registryName
  let saver ← named savers saverName
  let (replaced, registry) := registry.register name saver
  modify fun workspace => { workspace with savers := workspace.savers.erase saverName }
  putRegistry registryName registry
  return (replaced, registry)

/-- Make a stage with a registered saver; the answer tells whether the entry is there. -/
def decorateRegistered (registryName entry name : String) (next : Option String) (sink : Sink) :
    Action (Except SettingsFault Bool) := do
  let registry ← named registries registryName
  match registry.find? entry with
  | none => return .ok false
  | some saver =>
    let next ← following next sink
    match saver.decorate with
    | .error fault => return .error fault
    | .ok splitter =>
      addStage name splitter next true
      return .ok true

end Workspace
end MailVault
