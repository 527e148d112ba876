import MailVault.Message.Envelope
import MailVault.Proofs.Transit.Course

/-!
# What the calls of a splitter do

A write adds a share of its bytes to the message, and the answer tells which one:
nothing if there was no context, a first part if the store failed, and all of it
otherwise, provided that parts are published.  A close moves what is pending into
the manifest and then either gives up, or has no message to close, or closes the
message with that manifest.
-/

namespace MailVault
namespace Transit

open Store (Fault Host)

variable {κ σ : Type}

/-- The parts that a table of metadata publishes, none if there is no table. -/
def publishedParts (metadata : Option Metadata) : List Mime.Part :=
  (metadata.bind Metadata.parts?).getD []

/-- The bytes that a write adds to its message, by what it is answered. -/
def Share {β : Type} (parts : List Mime.Part) (data : Bytes) (answer : Except TransitFault β)
    (bytes : Bytes) : Prop :=
  match answer with
  | .error .missingContext => bytes = []
  | .error (.storage _) => parts ≠ [] ∧ bytes <+: data
  | .error (.sink _) => bytes = if parts = [] then [] else data
  | .ok _ => bytes = if parts = [] then [] else data

/-- The share of a write that fails does not depend on what it would have been answered. -/
theorem Share.failed {β γ : Type} {parts : List Mime.Part} {data bytes : Bytes}
    {fault : TransitFault} (share : Share parts data (.error fault : Except TransitFault β) bytes) :
    Share parts data (.error fault : Except TransitFault γ) bytes := by
  cases fault with
  | missingContext => exact share
  | storage fault => exact share
  | sink fault => exact share

namespace Session

/-- The session after the store was asked to open a message. -/
def started : Except Fault MessageId → Session
  | .error _ => .idle
  | .ok id => .opened id

@[simp] theorem started_written (answer : Except Fault MessageId) :
    (started answer).written = 0 := by
  cases answer <;> rfl

@[simp] theorem settle_message (session : Session) (parts : List Mime.Part) (position : Nat) :
    (session.settle parts position).message = session.message := by
  unfold settle
  split <;> rfl

@[simp] theorem settle_written (session : Session) (parts : List Mime.Part) (position : Nat) :
    (session.settle parts position).written = session.written := by
  unfold settle
  split <;> rfl

end Session

namespace Splitter

variable (host : Host κ σ)

theorem prepare_moves (splitter : Splitter κ) (first : Mime.Part) (state : σ) :
    Moves host [] splitter state (splitter.prepare first) state := by
  unfold prepare
  by_cases labelled : (splitter.session.capture first).labelled = true
  · simp only [if_pos labelled]
    exact ⟨.stay, rfl, rfl, id⟩
  · simp only [if_neg labelled]
    exact ⟨Course.stay.relabelled first, rfl, rfl, id⟩

theorem waiting_ne_nil (first : Mime.Part) (others : List Mime.Part) (progress : Nat) :
    (first :: others).drop (min progress others.length) ≠ [] := by
  intro none
  have length := congrArg List.length none
  rw [List.length_drop, List.length_cons, List.length_nil] at length
  omega

/-- Chunking takes a first part of the data, and all of it unless the store fails. -/
theorem chunk_moves (splitter : Splitter κ) (first : Mime.Part) (others : List Mime.Part)
    (data : Bytes) (state : σ) :
    ∃ taken, taken <+: data ∧
      ((splitter.chunk host first others data state).1 = .ok () → taken = data) ∧
      Moves host taken splitter state (splitter.chunk host first others data state).2.1
        (splitter.chunk host first others data state).2.2 := by
  have prepared := splitter.prepare_moves host first state
  have some := waiting_ne_nil first others (splitter.prepare first).session.progress
  unfold chunk
  rcases scan_moves host
    ((first :: others).drop (min (splitter.prepare first).session.progress others.length))
    (splitter.prepare first) ⟨(splitter.prepare first).session.position, data⟩ state with
      ⟨taken, passed, moves⟩
  have reached := rest_of_scan host _ some (splitter.prepare first)
    ⟨(splitter.prepare first).session.position, data⟩ state
  have both := prepared.trans moves
  rw [List.nil_append] at both
  simp only
  rcases scanned : scan host
    ((first :: others).drop (min (splitter.prepare first).session.progress others.length))
    (splitter.prepare first) ⟨(splitter.prepare first).session.position, data⟩ state with
    ⟨result, later, now⟩
  rw [scanned] at passed reached both
  cases result with
  | error fault => exact ⟨taken, passed, (fun ok => by cases ok), both⟩
  | ok cursor =>
      have whole : data = taken := by
        have rest := passed.1
        rw [reached rfl, List.append_nil] at rest
        exact rest
      refine ⟨taken, whole ▸ List.prefix_rfl, fun _ => whole.symm, ?_⟩
      refine ⟨both.course, both.store, (Session.settle_message _ _ _).trans both.message, ?_⟩
      intro balanced
      exact (Session.settle_written _ _ _).trans (both.balanced balanced)

/-- A write adds the share of its bytes that its answer tells. -/
theorem accept_moves (splitter : Splitter κ) (metadata : Option Metadata) (data : Bytes)
    (state : σ) :
    ∃ taken,
      Share (publishedParts metadata) data (splitter.accept host metadata data state).1 taken ∧
      Moves host taken splitter state (splitter.accept host metadata data state).2.1
        (splitter.accept host metadata data state).2.2 := by
  unfold accept
  cases splitter.session.message with
  | none => exact ⟨[], rfl, .stay host splitter state⟩
  | some message =>
      cases metadata with
      | none => exact ⟨[], rfl, .stay host splitter state⟩
      | some metadata =>
          by_cases vacant : metadata.size = 0
          · simp only [if_pos vacant]
            exact ⟨[], rfl, .stay host splitter state⟩
          · simp only [if_neg vacant]
            have silent : ∀ parts : List Mime.Part, parts = [] →
                Share parts data (.ok () : Except TransitFault Unit) [] := by
              intro parts none
              rw [none]
              rfl
            rcases published : metadata.parts? with _ | _ | ⟨first, others⟩
            · refine ⟨[], silent _ ?_, .stay, rfl, rfl, id⟩
              simp [publishedParts, published]
            · refine ⟨[], silent _ ?_, .stay, rfl, rfl, id⟩
              simp [publishedParts, published]
            · have parts : publishedParts (some metadata) = first :: others := by
                simp [publishedParts, published]
              rcases splitter.chunk_moves host first others data state with
                ⟨taken, part, whole, moves⟩
              rw [parts]
              simp only
              rcases chunked : splitter.chunk host first others data state with
                ⟨result, later, now⟩
              rw [chunked] at whole moves
              cases result with
              | error fault => exact ⟨taken, ⟨List.cons_ne_nil _ _, part⟩, moves⟩
              | ok _ =>
                  refine ⟨taken, ?_, moves.course, moves.store, moves.message, moves.balanced⟩
                  exact whole rfl

/-- What opening does: it starts over, and the message is the one that the store has opened. -/
theorem openMessage_eq (splitter : Splitter κ) (opening : Opening) (state : σ) :
    splitter.openMessage host opening state =
      ((host.call splitter.store (.openMessage opening) state).1,
        { splitter with
          buffer := splitter.buffer.reset
          session := .started (host.call splitter.store (.openMessage opening) state).1 },
        (host.call splitter.store (.openMessage opening) state).2) := by
  unfold openMessage
  rcases host.call splitter.store (.openMessage opening) state with ⟨result, now⟩
  cases result with
  | error fault => rfl
  | ok id => rfl

/-- How the call on the store ends that is made when a message is closed, after what was pending
is in the given buffer.  Without a message there is no call. -/
inductive Closing (splitter : Splitter κ) (queueId : String) (buffer : Buffer κ) (now : σ) :
    Except Fault Unit → σ → Prop where
  | given (fault : Fault) : Closing splitter queueId buffer now (.error fault) now
  | without (pending : buffer.pending = []) (none : splitter.session.message = none) :
      Closing splitter queueId buffer now (.ok ()) now
  | called (id : MessageId) (pending : buffer.pending = [])
      (message : splitter.session.message = some id) :
      Closing splitter queueId buffer now
        (host.call splitter.store (.closeMessage id splitter.session.written buffer.manifest
          (splitter.session.summary queueId)) now).1
        (host.call splitter.store (.closeMessage id splitter.session.written buffer.manifest
          (splitter.session.summary queueId)) now).2

/-- Closing flushes, ends the session and empties the buffer, whatever the outcome. -/
theorem closeMessage_flushed (splitter : Splitter κ) (queueId : String) (state : σ) :
    Closing host splitter queueId (splitter.buffer.flush host state).2.1
        (splitter.buffer.flush host state).2.2 (splitter.closeMessage host queueId state).1
        (splitter.closeMessage host queueId state).2.2 ∧
      ∃ phase, (splitter.closeMessage host queueId state).2.1 =
        { splitter with
          buffer := (splitter.buffer.flush host state).2.1.reset
          session := { Session.idle with phase := phase } } := by
  have pending := splitter.buffer.pending_of_flush host state
  unfold closeMessage
  rcases flushed : splitter.buffer.flush host state with ⟨result, buffer, now⟩
  rw [flushed] at pending
  cases result with
  | error fault => exact ⟨.given fault, .idle, rfl⟩
  | ok _ =>
      simp only [Buffer.takeManifest]
      cases message : splitter.session.message with
      | none =>
          exact ⟨.without (pending rfl) message, .closed, rfl⟩
      | some id =>
          have closing : Closing host splitter queueId buffer now _ _ :=
            .called id (pending rfl) message
          simp only
          rcases called : host.call splitter.store (.closeMessage id splitter.session.written
            buffer.manifest (splitter.session.summary queueId)) now with ⟨result, after⟩
          rw [called] at closing
          cases result with
          | error fault => exact ⟨closing, .idle, rfl⟩
          | ok _ => exact ⟨closing, .closed, rfl⟩

end Splitter
end Transit
end MailVault
