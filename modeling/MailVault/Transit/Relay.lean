import MailVault.Store.Call
import MailVault.Transit.Splitter

/-!
# Stages that pass a stream on

A stage is a splitter with what follows it: the sink at the end of the stream, or
another stage.  Stages follow only stages that were made before them, so a write
passes every stage at most once.  Stages may share engines, envelopes and what
follows them; a relay holds all of these together.  What the engines are is left to
the host that answers their calls.

A write is handed on after the splitter has accepted it, and only then.  If what
follows fails, the splitter has still seen the bytes.
-/

namespace MailVault
namespace Transit

open Store (Host)

variable {κ σ : Type}

structure EnvelopeKey where
  index : Nat
deriving DecidableEq

structure StageKey where
  index : Nat
deriving DecidableEq

/-- What follows a splitter. -/
inductive Next where
  | sink (sink : Sink)
  | stage (key : StageKey)

/-- A splitter in its place. -/
structure Stage (κ : Type) where
  splitter : Splitter κ
  /-- The envelope of the open message. -/
  envelope : Option EnvelopeKey
  next : Next
  /-- Whether the stage was made through a registry and is known only as a stage. -/
  registered : Bool

namespace Stage

def new (splitter : Splitter κ) (next : Next) (registered : Bool) : Stage κ where
  splitter := splitter
  envelope := none
  next := next
  registered := registered

/-- What the sink behind the stage has collected, if a sink follows it. -/
def collected? (stage : Stage κ) : Option Bytes :=
  match stage.next with
  | .sink sink => some sink.collected
  | .stage _ => none

end Stage

/-- Envelopes, stages and the state of the engines behind them. -/
structure Relay (κ σ : Type) where
  vault : σ
  envelopes : Table EnvelopeKey Envelope
  stages : Table StageKey (Stage κ)

namespace Relay

def empty (vault : σ) : Relay κ σ where
  vault := vault
  envelopes := Table.empty
  stages := Table.empty

def addEnvelope (relay : Relay κ σ) (envelope : Envelope) : EnvelopeKey × Relay κ σ :=
  let key : EnvelopeKey := ⟨relay.envelopes.size⟩
  (key, { relay with envelopes := relay.envelopes.insert key envelope })

def addStage (relay : Relay κ σ) (stage : Stage κ) : StageKey × Relay κ σ :=
  let key : StageKey := ⟨relay.stages.size⟩
  (key, { relay with stages := relay.stages.insert key stage })

/-- Put back a stage and the vault after a call. -/
def put (relay : Relay κ σ) (key : StageKey) (stage : Stage κ) (vault : σ) : Relay κ σ :=
  { relay with stages := relay.stages.insert key stage, vault := vault }

/-- The envelope of the message that is open at a stage. -/
def envelopeOf (relay : Relay κ σ) (stage : Stage κ) : Option Envelope :=
  stage.envelope.bind relay.envelopes.find?

/-- Open a message at a stage, and publish its number in the envelope. -/
def openMessage (relay : Relay κ σ) (host : Host κ σ) (key : StageKey) (stage : Stage κ)
    (envelopeKey : EnvelopeKey) (envelope : Envelope) : Except TransitFault MessageId × Relay κ σ :=
  match stage.splitter.openMessage host envelope.opening relay.vault with
  | (.error fault, splitter, vault) =>
    (.error (.storage fault),
      relay.put key { stage with splitter := splitter, envelope := none } vault)
  | (.ok id, splitter, vault) =>
    let opened := { stage with splitter := splitter, envelope := some envelopeKey }
    let relay := relay.put key opened vault
    (.ok id,
      { relay with envelopes := relay.envelopes.insert envelopeKey (envelope.noteMessage id) })

/-- Write at the stage with the given index; the answer is the number of bytes passed on. -/
def write (relay : Relay κ σ) (host : Host κ σ) (index : Nat) (data : Bytes) :
    Except TransitFault Nat × Relay κ σ :=
  match relay.stages.find? ⟨index⟩ with
  | none => (.error .missingContext, relay)
  | some stage =>
    let metadata := (relay.envelopeOf stage).bind Envelope.metadata
    match stage.splitter.accept host metadata data relay.vault with
    | (.error fault, splitter, vault) =>
      (.error fault, relay.put ⟨index⟩ { stage with splitter := splitter } vault)
    | (.ok (), splitter, vault) =>
      match stage.next with
      | .sink sink =>
        match sink.write data with
        | (.error fault, sink) =>
          (.error (.sink fault),
            relay.put ⟨index⟩ { stage with splitter := splitter, next := .sink sink } vault)
        | (.ok (), sink) =>
          (.ok data.length,
            relay.put ⟨index⟩ { stage with splitter := splitter, next := .sink sink } vault)
      | .stage earlier =>
        let relay := relay.put ⟨index⟩ { stage with splitter := splitter } vault
        if earlier.index < index then relay.write host earlier.index data
        else (.error .missingContext, relay)
termination_by index

def closeMessage (relay : Relay κ σ) (host : Host κ σ) (key : StageKey) (stage : Stage κ) :
    Except TransitFault Unit × Relay κ σ :=
  let queueId := ((relay.envelopeOf stage).map Envelope.queuedId).getD ""
  match stage.splitter.closeMessage host queueId relay.vault with
  | (.error fault, splitter, vault) =>
    (.error (.storage fault),
      relay.put key { stage with splitter := splitter, envelope := none } vault)
  | (.ok (), splitter, vault) =>
    (.ok (), relay.put key { stage with splitter := splitter, envelope := none } vault)

/-- The engines that the stage with the given index and those behind it use. -/
def enginesFrom (relay : Relay κ σ) (index : Nat) : List κ :=
  match relay.stages.find? ⟨index⟩ with
  | none => []
  | some stage =>
    let own := stage.splitter.store :: stage.splitter.buffer.store.toList
    match stage.next with
    | .sink _ => own
    | .stage earlier =>
      if earlier.index < index then own ++ relay.enginesFrom earlier.index else own
termination_by index

end Relay
end Transit
end MailVault
