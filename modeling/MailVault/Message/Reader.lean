import MailVault.Store.Call

/-!
# Reading messages back

A reader goes through a manifest and hands out the bytes of its chunks in pieces
of any size.  It holds one chunk at a time, and refuses a chunk whose length is
not the size in its descriptor.  A read that fails delivers nothing and moves
nothing, so it can be repeated.
-/

namespace MailVault

open Store (Fault Host)

/-- A position in the chunks of a manifest. -/
structure MessageReader (κ : Type) where
  store : κ
  manifest : Manifest
  /-- The number of chunks that were loaded. -/
  next : Nat
  /-- What is left of the chunk that was loaded last. -/
  current : Bytes

namespace MessageReader

variable {κ σ : Type}

/-- A reader at the beginning of a manifest. -/
def ofManifest (store : κ) (manifest : Manifest) : MessageReader κ where
  store := store
  manifest := manifest
  next := 0
  current := []

/-- A reader at the beginning of a stored message. -/
def openMessage (host : Host κ σ) (store : κ) (id : MessageId) (state : σ) :
    Except Fault (MessageReader κ) × σ :=
  match host.call store (.getMessage id) state with
  | (.error fault, state) => (.error fault, state)
  | (.ok record, state) => (.ok (ofManifest store record.manifest), state)

def totalSize (reader : MessageReader κ) : Nat :=
  reader.manifest.totalSize

/-- The chunks that were not loaded yet. -/
def waiting (reader : MessageReader κ) : List Descriptor :=
  reader.manifest.entries.drop reader.next

/-- The bytes of a chunk of the expected size. -/
def fetch (host : Host κ σ) (store : κ) (descriptor : Descriptor) (state : σ) :
    Except Fault Bytes × σ :=
  match host.call store (.getChunk descriptor.digest) state with
  | (.error fault, state) => (.error fault, state)
  | (.ok chunk, state) =>
    if chunk.size = descriptor.size then (.ok chunk.data, state)
    else (.error (.sizeMismatch chunk.size descriptor.size), state)

/-- Load chunks until one has bytes or none is waiting. -/
def loadFrom (host : Host κ σ) :
    List Descriptor → MessageReader κ → σ → Except Fault Unit × MessageReader κ × σ
  | [], reader, state => (.ok (), reader, state)
  | descriptor :: later, reader, state =>
    match fetch host reader.store descriptor state with
    | (.error fault, state) => (.error fault, reader, state)
    | (.ok data, state) =>
      let reader := { reader with next := reader.next + 1, current := data }
      if data = [] then loadFrom host later reader state else (.ok (), reader, state)

/-- Have bytes to hand out, unless all were handed out. -/
def load (reader : MessageReader κ) (host : Host κ σ) (state : σ) :
    Except Fault Unit × MessageReader κ × σ :=
  if reader.current = [] then loadFrom host reader.waiting reader state
  else (.ok (), reader, state)

/-- Hand out at most `most` bytes of one chunk; none means that the end is reached. -/
def read (reader : MessageReader κ) (host : Host κ σ) (most : Nat) (state : σ) :
    Except Fault Bytes × MessageReader κ × σ :=
  if most = 0 then (.ok [], reader, state)
  else
    match reader.load host state with
    | (.error fault, reader, state) => (.error fault, reader, state)
    | (.ok (), reader, state) =>
      (.ok (reader.current.take most), { reader with current := reader.current.drop most }, state)

/-- Take all of the waiting chunks one after the other. -/
def drain (host : Host κ σ) :
    List Descriptor → MessageReader κ → Bytes → σ → Except Fault Bytes × MessageReader κ × σ
  | [], reader, done, state => (.ok (done ++ reader.current), { reader with current := [] }, state)
  | descriptor :: later, reader, done, state =>
    match fetch host reader.store descriptor state with
    | (.error fault, state) => (.error fault, { reader with current := [] }, state)
    | (.ok data, state) =>
      drain host later { reader with next := reader.next + 1, current := data }
        (done ++ reader.current) state

/-- Hand out all bytes that are left.  Bytes that were read before a fault stay read. -/
def readToEnd (reader : MessageReader κ) (host : Host κ σ) (state : σ) :
    Except Fault Bytes × MessageReader κ × σ :=
  drain host reader.waiting reader [] state

def describe (reader : MessageReader κ) : String :=
  "MessageReader \x7b chunks: " ++ toString reader.manifest.size ++
    ", next: " ++ toString reader.next ++
    ", buffered: " ++ toString reader.current.length ++ " \x7d"

end MessageReader

/-- The bytes of the chunks of a manifest, whatever sizes it tells. -/
def readChunks {κ σ : Type} (host : Host κ σ) (store : κ) :
    List Descriptor → σ → Except Fault Bytes × σ
  | [], state => (.ok [], state)
  | descriptor :: later, state =>
    match host.call store (.getChunk descriptor.digest) state with
    | (.error fault, state) => (.error fault, state)
    | (.ok chunk, state) =>
      match readChunks host store later state with
      | (.error fault, state) => (.error fault, state)
      | (.ok data, state) => (.ok (chunk.data ++ data), state)

/-- The bytes of a stored message. -/
def readMessage {κ σ : Type} (host : Host κ σ) (store : κ) (id : MessageId) (state : σ) :
    Except Fault Bytes × σ :=
  match host.call store (.getMessage id) state with
  | (.error fault, state) => (.error fault, state)
  | (.ok record, state) => readChunks host store record.manifest.entries state

end MailVault
