import MailVault.Transit.Buffer
import MailVault.Transit.Fault
import MailVault.Transit.Session

/-!
# Cutting a message into chunks

A splitter stands in the stream of a message.  As the bytes go by it cuts them
where parts begin and where their header blocks end, and stores the pieces.

The published parts may be in any order and may change between two writes, so
each write looks at the parts again, from the first that is not settled.  A
boundary is cut when the scan reaches it exactly; a boundary that the stream has
passed already is ignored.

What a splitter does to its buffer, its session and the store is described here.
Where the bytes go afterwards, and how the envelope is shared with other stages,
is a matter of the stream as a whole: the metadata of the envelope is an argument
of the write, its queue number one of the close.
-/

namespace MailVault
namespace Transit

open Store (Fault Host)

/-- A buffer and a session over one store. -/
structure Splitter (κ : Type) where
  buffer : Buffer κ
  store : κ
  session : Session

/-- How far the scan of a write has come: the offset in the stream and the bytes from there on. -/
structure Cursor where
  position : Nat
  rest : Bytes

namespace Cursor

/-- The offset behind the last byte of the write. -/
def last (cursor : Cursor) : Nat :=
  cursor.position + cursor.rest.length

/-- The bytes before a target offset, at most all that are left. -/
def upTo (cursor : Cursor) (target : Nat) : Bytes :=
  cursor.rest.take (target - cursor.position)

def advance (cursor : Cursor) (target : Nat) : Cursor where
  position := cursor.position + (cursor.upTo target).length
  rest := cursor.rest.drop (target - cursor.position)

end Cursor

namespace Splitter

variable {κ σ : Type}

/-- A splitter that takes over a buffer with its cap and contents. -/
def withBuffer (store : κ) (buffer : Buffer κ) : Splitter κ where
  buffer := buffer.setStore store
  store := store
  session := .idle

def new (store : κ) (cap : Nat) : Splitter κ :=
  withBuffer store (Buffer.new.capTo cap)

/-- Open a message.  Whatever was in transit before is forgotten, also if opening fails. -/
def openMessage (splitter : Splitter κ) (host : Host κ σ) (opening : Opening) (state : σ) :
    Except Fault MessageId × Splitter κ × σ :=
  let fresh := { splitter with buffer := splitter.buffer.reset, session := .idle }
  match host.call splitter.store (.openMessage opening) state with
  | (.error fault, state) => (.error fault, fresh, state)
  | (.ok id, state) => (.ok id, { fresh with session := .opened id }, state)

def count (splitter : Splitter κ) (bytes : Nat) : Splitter κ :=
  { splitter with
    session := { splitter.session with written := splitter.session.written + bytes } }

/-- Set the count to what the buffer holds, after it has taken a part of a slice. -/
def recount (splitter : Splitter κ) : Splitter κ :=
  { splitter with session := { splitter.session with written := splitter.buffer.taken } }

/-- Hand the bytes before a target to the buffer. -/
def bufferUntil (splitter : Splitter κ) (host : Host κ σ) (target : Nat) (cursor : Cursor)
    (state : σ) : Except Fault Cursor × Splitter κ × σ :=
  match splitter.buffer.write host (cursor.upTo target) state with
  | (.error fault, buffer, state) =>
    (.error fault, recount { splitter with buffer := buffer }, state)
  | (.ok bytes, buffer, state) =>
    (.ok (cursor.advance target), count { splitter with buffer := buffer } bytes, state)

/-- Cut at a boundary of a part that is ahead, if the write reaches it. -/
def cutAt (splitter : Splitter κ) (host : Host κ σ) (part : Mime.Part) (boundary : Nat)
    (cursor : Cursor) (state : σ) : Except Fault Cursor × Splitter κ × σ :=
  if boundary = 0 ∨ boundary < cursor.position then (.ok cursor, splitter, state)
  else
    match splitter.bufferUntil host boundary cursor state with
    | (.error fault, splitter, state) => (.error fault, splitter, state)
    | (.ok cursor, splitter, state) =>
      if cursor.position ≠ boundary then (.ok cursor, splitter, state)
      else
        match splitter.buffer.flush host state with
        | (.error fault, buffer, state) =>
          (.error fault, { splitter with buffer := buffer }, state)
        | (.ok (), buffer, state) =>
          (.ok cursor, { splitter with buffer := buffer.relabel part }, state)

/-- Cut at the start of a part and at the end of its headers. -/
def cutPart (splitter : Splitter κ) (host : Host κ σ) (part : Mime.Part) (cursor : Cursor)
    (state : σ) : Except Fault Cursor × Splitter κ × σ :=
  match splitter.cutAt host part part.start cursor state with
  | (.error fault, splitter, state) => (.error fault, splitter, state)
  | (.ok cursor, splitter, state) => splitter.cutAt host part part.bodyStart cursor state

/-- Go through the parts until the write is used up; what is left after the last one belongs to
it. -/
def scan (host : Host κ σ) :
    List Mime.Part → Splitter κ → Cursor → σ → Except Fault Cursor × Splitter κ × σ
  | [], splitter, cursor, state => (.ok cursor, splitter, state)
  | part :: later, splitter, cursor, state =>
    match splitter.cutPart host part cursor state with
    | (.error fault, splitter, state) => (.error fault, splitter, state)
    | (.ok cursor, splitter, state) =>
      if cursor.rest = [] then (.ok cursor, splitter, state)
      else if later = [] then splitter.bufferUntil host cursor.last cursor state
      else scan host later splitter cursor state

/-- Capture headers and label the buffer before the first cut. -/
def prepare (splitter : Splitter κ) (first : Mime.Part) : Splitter κ :=
  let session := splitter.session.capture first
  if session.labelled then { splitter with session := session }
  else
    { splitter with
      buffer := splitter.buffer.relabel first
      session := { session with labelled := true } }

/-- Chunk the bytes of one write by the published parts, of which there is at least one. -/
def chunk (splitter : Splitter κ) (host : Host κ σ) (first : Mime.Part) (others : List Mime.Part)
    (data : Bytes) (state : σ) : Except Fault Unit × Splitter κ × σ :=
  let parts := first :: others
  let prepared := splitter.prepare first
  let waiting := parts.drop (min prepared.session.progress others.length)
  match scan host waiting prepared ⟨prepared.session.position, data⟩ state with
  | (.error fault, splitter, state) => (.error fault, splitter, state)
  | (.ok cursor, splitter, state) =>
    (.ok (), { splitter with session := splitter.session.settle parts cursor.position }, state)

/-- Note that a write was accepted. -/
def pass (splitter : Splitter κ) (bytes : Nat) : Splitter κ :=
  { splitter with
    session :=
      { splitter.session with
        position := splitter.session.position + bytes
        phase := .streaming } }

/-- Accept the bytes of one write.  The caller passes them on if this succeeds. -/
def accept (splitter : Splitter κ) (host : Host κ σ) (metadata : Option Metadata) (data : Bytes)
    (state : σ) : Except TransitFault Unit × Splitter κ × σ :=
  match splitter.session.message, metadata with
  | some _, some metadata =>
    if metadata.size = 0 then (.error .missingContext, splitter, state)
    else
      match metadata.parts? with
      | some (first :: others) =>
        match splitter.chunk host first others data state with
        | (.error fault, splitter, state) => (.error (.storage fault), splitter, state)
        | (.ok (), splitter, state) => (.ok (), splitter.pass data.length, state)
      | _ => (.ok (), splitter.pass data.length, state)
  | _, _ => (.error .missingContext, splitter, state)

/-- Close the message.  The session is over and the buffer empty, also if closing fails. -/
def closeMessage (splitter : Splitter κ) (host : Host κ σ) (queueId : String) (state : σ) :
    Except Fault Unit × Splitter κ × σ :=
  match splitter.buffer.flush host state with
  | (flushed, buffer, state) =>
    let (manifest, buffer) := buffer.takeManifest
    let session := splitter.session
    let idle := { splitter with buffer := buffer, session := .idle }
    let closed := { idle with session := { Session.idle with phase := .closed } }
    match flushed, session.message with
    | .error fault, _ => (.error fault, idle, state)
    | .ok (), none => (.ok (), closed, state)
    | .ok (), some id =>
      match host.call splitter.store
          (.closeMessage id session.written manifest (session.summary queueId)) state with
      | (.error fault, state) => (.error fault, idle, state)
      | (.ok (), state) => (.ok (), closed, state)

def describe (splitter : Splitter κ) : String :=
  "ChunkSplitter \x7b buffer: " ++ splitter.buffer.describe ++
    ", session: " ++ splitter.session.describe ++ ", .. \x7d"

end Splitter
end Transit
end MailVault
