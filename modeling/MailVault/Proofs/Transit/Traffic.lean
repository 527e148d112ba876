import Mathlib.Data.List.Forall2
import Mathlib.Logic.Function.Basic
import Mathlib.Logic.Relation
import MailVault.Proofs.Transit.Calls
import MailVault.Transit.Relay

/-!
# Traffic through a relay

The stages of a relay are used by callers that know nothing of each other, and the
envelopes are changed by others still.  An errand is one call of any of them; traffic
is a row of errands in any order.

What a message has taken in is read off the answers alone: an observer writes down
for each stage the message that was opened there, with its writes and their answers,
and sets a message aside when its close succeeds.
-/

namespace MailVault
namespace Transit

open Store (Host)

variable {κ σ : Type}

/-- One thing that is asked of a relay, or done to its envelopes and sinks. -/
inductive Errand where
  | openMessage (stage : StageKey) (envelope : EnvelopeKey)
  | write (stage : StageKey) (data : Bytes)
  | closeMessage (stage : StageKey)
  /-- Replace all that an envelope says, its published parts included. -/
  | publish (envelope : EnvelopeKey) (contents : Envelope)
  /-- Let the sink behind a stage become another one, which takes more bytes or fewer. -/
  | refit (stage : StageKey) (sink : Sink)

/-- What an errand is answered, if it is about things that exist. -/
inductive Reply where
  | opened (answer : Except TransitFault MessageId)
  | written (answer : Except TransitFault Nat)
  | closed (answer : Except TransitFault Unit)
  | nothing
deriving DecidableEq

/-- The stage with another sink behind it, if there is a sink at all. -/
def Stage.refit (stage : Stage κ) (sink : Sink) : Stage κ :=
  match stage.next with
  | .sink _ => { stage with next := .sink sink }
  | .stage _ => stage

@[simp] theorem Stage.refit_splitter (stage : Stage κ) (sink : Sink) :
    (stage.refit sink).splitter = stage.splitter := by
  unfold refit
  split <;> rfl

namespace Relay

def perform (relay : Relay κ σ) (host : Host κ σ) : Errand → Reply × Relay κ σ
  | .openMessage key envelopeKey =>
    match relay.stages.find? key, relay.envelopes.find? envelopeKey with
    | some stage, some envelope =>
      (.opened (relay.openMessage host key stage envelopeKey envelope).1,
        (relay.openMessage host key stage envelopeKey envelope).2)
    | _, _ => (.nothing, relay)
  | .write key data =>
    match relay.stages.find? key with
    | some _ => (.written (relay.write host key.index data).1, (relay.write host key.index data).2)
    | none => (.nothing, relay)
  | .closeMessage key =>
    match relay.stages.find? key with
    | some stage =>
      (.closed (relay.closeMessage host key stage).1, (relay.closeMessage host key stage).2)
    | none => (.nothing, relay)
  | .publish key contents =>
    (.nothing, { relay with envelopes := relay.envelopes.insert key contents })
  | .refit key sink =>
    match relay.stages.find? key with
    | some stage => (.nothing, { relay with stages := relay.stages.insert key (stage.refit sink) })
    | none => (.nothing, relay)

def run (relay : Relay κ σ) (host : Host κ σ) (errands : List Errand) : Relay κ σ :=
  errands.foldl (fun relay errand => (relay.perform host errand).2) relay

/-- The parts that the envelope of the message at a stage publishes. -/
def partsAt (relay : Relay κ σ) (key : StageKey) : List Mime.Part :=
  publishedParts (((relay.stages.find? key).bind relay.envelopeOf).bind Envelope.metadata)

/-- Opening asks the store once, and the stage starts with what it answers. -/
theorem openMessage_eq (relay : Relay κ σ) (host : Host κ σ) (key : StageKey) (stage : Stage κ)
    (envelopeKey : EnvelopeKey) (envelope : Envelope) :
    ∃ current envelopes, relay.openMessage host key stage envelopeKey envelope =
      ((host.call stage.splitter.store (.openMessage envelope.opening) relay.vault).1.mapError
          .storage,
        { relay with
          vault := (host.call stage.splitter.store (.openMessage envelope.opening) relay.vault).2
          envelopes := envelopes
          stages := relay.stages.insert key
            { stage with
              splitter :=
                { stage.splitter with
                  buffer := stage.splitter.buffer.reset
                  session := .started
                    (host.call stage.splitter.store (.openMessage envelope.opening)
                      relay.vault).1 }
              envelope := current } }) := by
  unfold openMessage
  rw [Splitter.openMessage_eq]
  rcases host.call stage.splitter.store (.openMessage envelope.opening) relay.vault with
    ⟨result, vault⟩
  cases result with
  | error fault => exact ⟨none, relay.envelopes, rfl⟩
  | ok id =>
      exact ⟨some envelopeKey, relay.envelopes.insert envelopeKey (envelope.noteMessage id), rfl⟩

/-- Closing flushes the buffer, which is a course that takes no bytes, and leaves the stage idle,
whatever the outcome. -/
theorem closeMessage_eq (relay : Relay κ σ) (host : Host κ σ) (key : StageKey)
    (stage : Stage κ) :
    ∃ queueId buffer now phase,
      Course host stage.splitter.buffer relay.vault [] buffer now ∧
      ∃ result vault, Splitter.Closing host stage.splitter queueId buffer now result vault ∧
      relay.closeMessage host key stage =
        (result.mapError .storage,
          relay.put key
            { stage with
              splitter :=
                { stage.splitter with
                  buffer := buffer.reset
                  session := { Session.idle with phase := phase } }
              envelope := none } vault) := by
  rcases stage.splitter.closeMessage_flushed host
    (((relay.envelopeOf stage).map Envelope.queuedId).getD "") relay.vault with
      ⟨closing, phase, after⟩
  refine ⟨((relay.envelopeOf stage).map Envelope.queuedId).getD "", _, _, phase,
    stage.splitter.buffer.flush_course host relay.vault, _, _, closing, ?_⟩
  unfold closeMessage
  simp only
  rcases closed : stage.splitter.closeMessage host
    (((relay.envelopeOf stage).map Envelope.queuedId).getD "") relay.vault with
    ⟨result, splitter, vault⟩
  rw [closed] at after
  simp only at after
  subst after
  cases result with
  | error fault => rfl
  | ok _ => rfl

/-- A write at a stage before a sink changes that stage, and the share of the message that its
answer tells is the one that its splitter has taken. -/
theorem write_of_sink (relay : Relay κ σ) (host : Host κ σ) {key : StageKey} {stage : Stage κ}
    {sink : Sink} (found : relay.stages.find? key = some stage) (next : stage.next = .sink sink)
    (data : Bytes) :
    ∃ last taken,
      Share (relay.partsAt key) data (relay.write host key.index data).1 taken ∧
      Splitter.Moves host taken stage.splitter relay.vault last
        (relay.write host key.index data).2.vault ∧
      ∃ after, (relay.write host key.index data).2.stages = relay.stages.insert key
        { stage with splitter := last, next := .sink after } := by
  have parts : relay.partsAt key =
      publishedParts ((relay.envelopeOf stage).bind Envelope.metadata) := by
    rw [partsAt, found]
    rfl
  rcases stage.splitter.accept_moves host
    ((relay.envelopeOf stage).bind Envelope.metadata) data relay.vault with ⟨taken, share, moves⟩
  rw [parts, write, found]
  simp only
  rcases accepted : stage.splitter.accept host
    ((relay.envelopeOf stage).bind Envelope.metadata) data relay.vault with
    ⟨result, splitter, vault⟩
  rw [accepted] at share moves
  cases result with
  | error fault =>
      refine ⟨splitter, taken, share.failed, moves, sink, ?_⟩
      rw [← next]
      rfl
  | ok _ =>
      simp only [next]
      rcases sink.write data with ⟨result, after⟩
      cases result with
      | error fault => exact ⟨splitter, taken, share, moves, after, rfl⟩
      | ok _ => exact ⟨splitter, taken, share, moves, after, rfl⟩

/-- One stage takes in bytes by the metadata of some envelope, and only what follows the stage may
change besides. -/
inductive Hop (host : Host κ σ) (relay : Relay κ σ) : Relay κ σ → Prop where
  | intro {key : StageKey} {stage : Stage κ} {metadata : Option Metadata} {data : Bytes}
      {result : Except TransitFault Unit} {splitter : Splitter κ} {vault : σ} (next : Next)
      (found : relay.stages.find? key = some stage)
      (accepted : stage.splitter.accept host metadata data relay.vault =
        (result, splitter, vault)) :
      Hop host relay (relay.put key { stage with splitter := splitter, next := next } vault)

/-- A write goes from stage to stage. -/
theorem write_hops (relay : Relay κ σ) (host : Host κ σ) (index : Nat) (data : Bytes) :
    Relation.ReflTransGen (Hop host) relay (relay.write host index data).2 := by
  induction index using Nat.strongRecOn generalizing relay with
  | _ index inductionStep =>
      rw [write]
      cases found : relay.stages.find? ⟨index⟩ with
      | none => exact .refl
      | some stage =>
          simp only
          rcases accepted : stage.splitter.accept host
            ((relay.envelopeOf stage).bind Envelope.metadata) data relay.vault with
            ⟨result, splitter, vault⟩
          have hop : ∀ next, Relation.ReflTransGen (Hop host) relay
              (relay.put ⟨index⟩ { stage with splitter := splitter, next := next } vault) :=
            fun next => .single (.intro next found accepted)
          cases result with
          | error fault => exact hop stage.next
          | ok _ =>
              simp only
              cases next : stage.next with
              | sink sink =>
                  simp only
                  rcases sink.write data with ⟨result, after⟩
                  cases result with
                  | error fault => exact hop (.sink after)
                  | ok _ => exact hop (.sink after)
              | stage earlier =>
                  simp only
                  by_cases before : earlier.index < index
                  · rw [if_pos before]
                    exact (hop (.stage earlier)).trans (inductionStep earlier.index before _)
                  · rw [if_neg before]
                    exact hop (.stage earlier)

end Relay

/-- A write with the parts that were published then, and what it was answered. -/
structure Passage where
  parts : List Mime.Part
  data : Bytes
  answer : Except TransitFault Nat
deriving DecidableEq

/-- A message with its writes. -/
structure Transfer where
  id : MessageId
  passages : List Passage
deriving DecidableEq

namespace Transfer

def opened (id : MessageId) : Transfer where
  id := id
  passages := []

def note (transfer : Transfer) (passage : Passage) : Transfer :=
  { transfer with passages := transfer.passages ++ [passage] }

end Transfer

/-- Bytes that writes can have contributed by their answers, in the order of the writes. -/
def Contributed (passages : List Passage) (content : Bytes) : Prop :=
  ∃ shares : List Bytes,
    List.Forall₂ (fun passage bytes => Share passage.parts passage.data passage.answer bytes)
      passages shares ∧
    shares.flatten = content

theorem contributed_nil : Contributed [] [] :=
  ⟨[], .nil, rfl⟩

theorem Contributed.push {passages : List Passage} {content : Bytes}
    (contributed : Contributed passages content) {passage : Passage} {bytes : Bytes}
    (share : Share passage.parts passage.data passage.answer bytes) :
    Contributed (passages ++ [passage]) (content ++ bytes) := by
  rcases contributed with ⟨shares, matched, flat⟩
  refine ⟨shares ++ [bytes], List.rel_append matched (.cons share .nil), ?_⟩
  rw [List.flatten_append, flat, List.flatten_singleton]

/-- A relay with the account of an observer. -/
structure Observed (κ σ : Type) where
  relay : Relay κ σ
  /-- The open message of each stage. -/
  underway : StageKey → Option Transfer
  /-- The messages whose close has succeeded. -/
  delivered : List Transfer

namespace Observed

def start (relay : Relay κ σ) : Observed κ σ where
  relay := relay
  underway _ := none
  delivered := []

/-- Let an errand be done and take down its answer. -/
def perform (observed : Observed κ σ) (host : Host κ σ) (errand : Errand) : Observed κ σ :=
  match errand, observed.relay.perform host errand with
  | .openMessage key _, (.opened answer, relay) =>
    { observed with
      relay := relay
      underway :=
        Function.update observed.underway key (answer.toOption.map Transfer.opened) }
  | .write key data, (.written answer, relay) =>
    { observed with
      relay := relay
      underway :=
        Function.update observed.underway key ((observed.underway key).map fun transfer =>
          transfer.note ⟨observed.relay.partsAt key, data, answer⟩) }
  | .closeMessage key, (.closed answer, relay) =>
    { relay := relay
      underway := Function.update observed.underway key none
      delivered := observed.delivered ++
        match answer with
        | .ok _ => (observed.underway key).toList
        | .error _ => [] }
  | _, (_, relay) => { observed with relay := relay }

def run (observed : Observed κ σ) (host : Host κ σ) (errands : List Errand) : Observed κ σ :=
  errands.foldl (fun observed errand => observed.perform host errand) observed

end Observed
end Transit
end MailVault
