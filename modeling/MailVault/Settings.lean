import MailVault.Json.Reading
import MailVault.Store.Vault
import MailVault.Transit.Buffer

/-!
# Settings

Settings come from a backend object, of which four fields count, or are made one
by one.  The fields are read in the order of their names, and a field of a wrong
kind is reported before a compression level that is out of range.  A chunk size
that is not positive asks for the default.
-/

namespace MailVault

open Json

/-- Which engine is wanted. -/
inductive EngineKind where
  | memory
  | persistent
deriving DecidableEq

/-- Why settings are refused. -/
inductive SettingsFault where
  /-- A field of the backend object is of a wrong kind. -/
  | mismatch (cause : Mismatch)
  | level (asked : Int)
  /-- The durable engine has no path. -/
  | pathRequired
  /-- A saver is asked for a stage before it is ready. -/
  | notReady

/-- What a saver and its engine are set to. -/
structure Settings where
  chunkSize : Nat
  engine : EngineKind
  level : Nat
  path : Option String
deriving DecidableEq

namespace SettingsFault

def message (fault : SettingsFault) : String :=
  "invalid config: " ++
    match fault with
    | mismatch cause => cause.message
    | level asked =>
      "chunksaver_compress_level must be 0-" ++ toString Store.Volatile.maxLevel ++ ", got " ++
        toString asked
    | pathRequired => "chunksaver_database_path is required for the persistent engine"
    | notReady => "chunk saver used before initialize"

end SettingsFault

namespace EngineKind

/-- The engine with the given name; every name but one is that of the durable engine. -/
def ofName (name : String) : EngineKind :=
  if name = "memory" then memory else persistent

def name : EngineKind → String
  | memory => "Memory"
  | persistent => "Persistent"

end EngineKind

namespace Settings

/-- The volatile engine with the default chunk size and without compression. -/
def memory : Settings where
  chunkSize := Transit.defaultCap
  engine := .memory
  level := 0
  path := none

/-- The durable engine on a path. -/
def persistent (path : String) : Settings :=
  { memory with engine := .persistent, path := some path }

/-- Ask for a chunk size; zero asks for the default. -/
def withChunkSize (settings : Settings) (asked : Nat) : Settings :=
  { settings with chunkSize := Transit.capOf asked }

/-- Ask for a compression level, which is checked later. -/
def withLevel (settings : Settings) (level : Nat) : Settings :=
  { settings with level := level }

/-- Refuse a compression level that is out of range. -/
def validate (settings : Settings) : Except SettingsFault Unit :=
  if Store.Volatile.maxLevel < settings.level then .error (.level settings.level) else .ok ()

/-- The four fields of a backend object. -/
structure Raw where
  chunkSize : Int
  level : Int
  path : Option String
  engine : String

/-- Read the four fields in the order of their names. -/
def Raw.ofFields (fields : Fields) : Except Mismatch Raw := do
  let chunkSize ← fields.get? "chunksaver_chunk_size" Read.signed
  let level ← fields.get? "chunksaver_compress_level" Read.signed
  let path ← fields.get? "chunksaver_database_path" (Read.nullable Read.path)
  let engine ← fields.get? "chunksaver_storage_engine" Read.text
  return ⟨chunkSize.getD 0, level.getD 0, path.join, engine.getD ""⟩

def ofBackend (backend : Fields) : Except SettingsFault Settings :=
  match Raw.ofFields backend with
  | .error mismatch => .error (.mismatch mismatch)
  | .ok raw =>
    if raw.level < 0 ∨ (Store.Volatile.maxLevel : Int) < raw.level then .error (.level raw.level)
    else
      .ok
        { chunkSize := Transit.capOf raw.chunkSize.toNat
          engine := .ofName raw.engine
          level := raw.level.toNat
          path := raw.path }

/-- A new engine as the settings want it; no file is opened. -/
def makeEngine (settings : Settings) : Except SettingsFault Store.Engine :=
  match settings.engine, settings.path with
  | .memory, _ => .ok (.volatile (.new settings.level))
  | .persistent, some path => .ok (.durable (.new path))
  | .persistent, none => .error .pathRequired

def describe (settings : Settings) : String :=
  "ChunkSaverConfig \x7b chunk_max_bytes: " ++ toString settings.chunkSize ++
    ", storage_engine: " ++ settings.engine.name ++
    ", compress_level: " ++ toString settings.level ++
    ", database_path: " ++
      (match settings.path with
        | none => "None"
        | some path => "Some(" ++ Text.quote path ++ ")") ++ " \x7d"

end Settings
end MailVault
