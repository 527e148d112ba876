import MailVault.Settings
import MailVault.Transit.Splitter

/-!
# Savers

A saver finds out which engine to use and with which settings, and then makes
splitters over that engine.  Settings and engine may be given beforehand; those
that are given are used instead of the backend object.

The settings are taken out of the saver while it is being started and are put
back when the engine has started.
-/

namespace MailVault

open Store (EngineKey Vault)

/-- Why a saver cannot be started or stopped. -/
inductive SaverFault where
  | settings (fault : SettingsFault)
  | storage (fault : Store.Fault)

namespace SaverFault

def message : SaverFault → String
  | settings fault => fault.message
  | storage fault => "storage error: " ++ fault.message

end SaverFault

/-- Settings and an engine, as far as they are known. -/
structure Saver where
  settings : Option Settings
  store : Option EngineKey

namespace Saver

/-- The settings that a start uses: those that were given, or those of the backend object. -/
def choose (saver : Saver) (backend : Json.Fields) : Except SettingsFault Settings := do
  let settings ←
    match saver.settings with
    | some settings => pure settings
    | none => Settings.ofBackend backend
  settings.validate
  return settings

/-- The engine that a start uses: the one that was given, or a new one in the vault. -/
def provide (saver : Saver) (settings : Settings) (vault : Vault) :
    Except SettingsFault EngineKey × Vault :=
  match saver.store with
  | some key => (.ok key, vault)
  | none =>
    match settings.makeEngine with
    | .error fault => (.error fault, vault)
    | .ok engine =>
      let (key, vault) := vault.add engine
      (.ok key, vault)

def start (saver : Saver) (backend : Json.Fields) (vault : Vault) :
    Except SaverFault Unit × Saver × Vault :=
  let bare := { saver with settings := none }
  match saver.choose backend with
  | .error fault => (.error (.settings fault), bare, vault)
  | .ok settings =>
    match saver.provide settings vault with
    | (.error fault, vault) => (.error (.settings fault), bare, vault)
    | (.ok key, vault) =>
      match vault.call key .start with
      | (.error fault, vault) => (.error (.storage fault), bare, vault)
      | (.ok (), vault) => (.ok (), ⟨some settings, some key⟩, vault)

def stop (saver : Saver) (vault : Vault) : Except SaverFault Unit × Vault :=
  match saver.store with
  | none => (.ok (), vault)
  | some key =>
    match vault.call key .stop with
    | (.error fault, vault) => (.error (.storage fault), vault)
    | (.ok (), vault) => (.ok (), vault)

def ready (saver : Saver) : Except SettingsFault (Settings × EngineKey) :=
  match saver.settings, saver.store with
  | some settings, some key => .ok (settings, key)
  | _, _ => .error .notReady

/-- A splitter with an empty buffer. -/
def decorate (saver : Saver) : Except SettingsFault (Transit.Splitter EngineKey) :=
  match saver.ready with
  | .error fault => .error fault
  | .ok (settings, key) => .ok (.new key settings.chunkSize)

/-- A splitter that takes over a buffer, whose cap becomes that of the settings. -/
def decorateBuffer (saver : Saver) (buffer : Transit.Buffer EngineKey) :
    Except SettingsFault (Transit.Splitter EngineKey) :=
  match saver.ready with
  | .error fault => .error fault
  | .ok (settings, key) => .ok (.withBuffer key (buffer.capTo settings.chunkSize))

def describe (saver : Saver) : String :=
  "ChunkSaver \x7b config: " ++
    (match saver.settings with
      | none => "None"
      | some settings => "Some(" ++ settings.describe ++ ")") ++
    ", initialized: " ++ toString saver.store.isSome ++ " \x7d"

end Saver

end MailVault
