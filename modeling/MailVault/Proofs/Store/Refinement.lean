import MailVault.Store.Faulty
import MailVault.Store.Ledger
import MailVault.Store.Volatile

/-!
# Stores that answer as the ledger does

What an engine remembers is a ledger, in whatever form it keeps it.  A host answers
as the ledger does if every call has the answer of the ledger and leaves an engine
that represents the ledger after the call.  A host that only follows the ledger
may also fail at any call, and then it leaves what is represented as it was.

Everything that is shown of a host that follows the ledger holds of every engine and
of every pattern of faults.
-/

namespace MailVault
namespace Store

variable {κ σ ε : Type}

namespace Host

/-- A single engine as a host; the names of engines do not matter. -/
def of (answer : {β : Type} → ε → Call β → Outcome ε β) : Host κ ε where
  call _ request engine := answer engine request

def faulty (answer : {β : Type} → ε → Call β → Outcome ε β) : Host κ (Faulty ε) :=
  .of fun engine request => engine.call answer request

/-- Every call is answered as the ledger answers it. -/
def Answers (host : Host κ σ) (Represents : σ → Ledger → Prop) : Prop :=
  ∀ {β : Type} (key : κ) (request : Call β) (state : σ) (ledger : Ledger),
    Represents state ledger →
      (host.call key request state).1 = (ledger.call request).1 ∧
        Represents (host.call key request state).2 (ledger.call request).2

/-- Every call is answered as the ledger answers it, or it fails and changes nothing that is
represented. -/
def Follows (host : Host κ σ) (Represents : σ → Ledger → Prop) : Prop :=
  ∀ {β : Type} (key : κ) (request : Call β) (state : σ) (ledger : Ledger),
    Represents state ledger →
      (∃ fault, (host.call key request state).1 = .error fault ∧
        Represents (host.call key request state).2 ledger) ∨
      ((host.call key request state).1 = (ledger.call request).1 ∧
        Represents (host.call key request state).2 (ledger.call request).2)

/-- A planned fault keeps the call from the engine, and every other call reaches it. -/
theorem Answers.faulty {answer : {β : Type} → ε → Call β → Outcome ε β}
    {Represents : ε → Ledger → Prop}
    (answers : (Host.of answer : Host κ ε).Answers Represents) :
    (Host.faulty answer : Host κ (Faulty ε)).Follows
      fun engine ledger => Represents engine.inner ledger := by
  intro β key request engine ledger represents
  have answered := answers key request engine.inner ledger represents
  simp only [Host.of] at answered
  simp only [Host.faulty, Host.of, Faulty.call]
  cases ((engine.plans.find? request.kind).getD []).next with
  | mk fault plan =>
      cases fault with
      | some fault => exact Or.inl ⟨fault, rfl, represents⟩
      | none => exact Or.inr answered

end Host

namespace Ledger

/-- Closing fails and changes nothing, or the total is right, the message is known and only its
record changes. -/
theorem closeMessage_cases (ledger : Ledger) (id : MessageId) (total : Nat) (manifest : Manifest)
    (summary : Summary) :
    (∃ fault, ledger.closeMessage id total manifest summary = (.error fault, ledger)) ∨
      (∃ record, total = manifest.totalSize ∧ ledger.messages.find? id = some record ∧
        ledger.closeMessage id total manifest summary =
          (.ok (), { ledger with
            messages := ledger.messages.insert id (record.close total manifest summary) })) := by
  unfold closeMessage checkTotal
  by_cases right : total = manifest.totalSize
  · rw [if_pos right]
    cases ledger.messages.find? id with
    | none => exact Or.inl ⟨_, rfl⟩
    | some record => exact Or.inr ⟨record, right, rfl, rfl⟩
  · rw [if_neg right]
    exact Or.inl ⟨_, rfl⟩

theorem addChunk_ok (ledger : Ledger) (digest : Digest) (data : Bytes) :
    ∃ known, (ledger.addChunk digest data).1 = .ok known := by
  rw [addChunk]
  cases ledger.chunks.find? digest with
  | none => exact ⟨false, rfl⟩
  | some held => exact ⟨true, rfl⟩

theorem addChunk_frame (ledger : Ledger) (digest : Digest) (data : Bytes) :
    (ledger.addChunk digest data).2.last = ledger.last ∧
      (ledger.addChunk digest data).2.messages = ledger.messages := by
  rw [addChunk]
  cases ledger.chunks.find? digest with
  | none => exact ⟨rfl, rfl⟩
  | some held => exact ⟨rfl, rfl⟩

/-- Only additions touch the chunks. -/
theorem chunks_of_kind (ledger : Ledger) {β : Type} {request : Call β}
    (other : request.kind ≠ .addChunk) : (ledger.call request).2.chunks = ledger.chunks := by
  cases request with
  | addChunk digest data => exact absurd rfl other
  | closeMessage id total manifest summary =>
      simp only [call, closeMessage]
      cases checkTotal total manifest with
      | error fault => rfl
      | ok _ => cases ledger.messages.find? id <;> rfl
  | start => rfl
  | stop => rfl
  | openMessage opening => rfl
  | getMessage id => rfl
  | getChunk digest => rfl

theorem last_of_kind (ledger : Ledger) {β : Type} {request : Call β}
    (other : request.kind ≠ .openMessage) : (ledger.call request).2.last = ledger.last := by
  cases request with
  | openMessage opening => exact absurd rfl other
  | closeMessage id total manifest summary =>
      simp only [call]
      rcases ledger.closeMessage_cases id total manifest summary with
        ⟨fault, refused⟩ | ⟨record, _, _, closed⟩
      · rw [refused]
      · rw [closed]
  | addChunk digest data => exact (ledger.addChunk_frame digest data).1
  | start => rfl
  | stop => rfl
  | getMessage id => rfl
  | getChunk digest => rfl

end Ledger

namespace Volatile

/-- A chunk as a volatile engine of the given level keeps it. -/
def pack (level : Nat) (held : Held) : Packed where
  payload := Deflate.deflate level held.data
  size := held.data.length
  references := held.references

/-- A volatile engine remembers the ledger: the number it gives next is one above the last, the
records are the same, and the chunks are the same but deflated. -/
structure Represents (engine : Volatile) (ledger : Ledger) : Prop where
  next : engine.next = ledger.last + 1
  messages : engine.messages = ledger.messages
  chunks : ∀ digest, engine.chunks.find? digest =
    (ledger.chunks.find? digest).map (pack engine.level)

theorem represents_new (level : Nat) : (new level).Represents Ledger.empty where
  next := rfl
  messages := rfl
  chunks _ := rfl

theorem unpack_pack (digest : Digest) (level : Nat) (held : Held) :
    unpack digest (pack level held) = .ok ⟨digest, held.data, held.references⟩ := by
  rw [unpack, pack, Deflate.inflate_deflate]

/-- Storing a packed chunk keeps the engine in step with a ledger that holds the chunk. -/
theorem chunks_insert {engine : Volatile} {ledger : Ledger}
    (represents : engine.Represents ledger) (digest : Digest) (held : Held) (other : Digest) :
    (engine.chunks.insert digest (pack engine.level held)).find? other =
      ((ledger.chunks.insert digest held).find? other).map (pack engine.level) := by
  rw [Table.find?_insert, Table.find?_insert, represents.chunks]
  split <;> rfl

/-- The volatile engine answers every call as the ledger does. -/
theorem answers : (Host.of Volatile.call : Host κ Volatile).Answers Represents := by
  intro β key request engine ledger represents
  have chunks := represents.chunks
  have messages := represents.messages
  cases request with
  | start => exact ⟨rfl, represents⟩
  | stop => exact ⟨rfl, represents⟩
  | openMessage opening =>
      simp only [Host.of, Volatile.call, Ledger.call, Volatile.openMessage, reserve, publish,
        Ledger.openMessage, represents.next, represents.messages]
      exact ⟨trivial, rfl, rfl, represents.chunks⟩
  | closeMessage id total manifest summary =>
      simp only [Host.of, Volatile.call, Ledger.call, Volatile.closeMessage, Ledger.closeMessage,
        messages]
      cases checkTotal total manifest with
      | error fault => exact ⟨rfl, represents⟩
      | ok _ =>
          cases ledger.messages.find? id with
          | none => exact ⟨rfl, represents⟩
          | some record => exact ⟨rfl, represents.next, rfl, represents.chunks⟩
  | addChunk digest data =>
      simp only [Host.of, Volatile.call, Ledger.call, Volatile.addChunk, Ledger.addChunk, chunks]
      cases ledger.chunks.find? digest with
      | none =>
          exact ⟨rfl, represents.next, represents.messages,
            chunks_insert represents digest ⟨data, 1⟩⟩
      | some held =>
          exact ⟨rfl, represents.next, represents.messages,
            chunks_insert represents digest ⟨held.data, held.references + 1⟩⟩
  | getMessage id =>
      have same : engine.getMessage id = ledger.getMessage id := by
        cases found : ledger.messages.find? id with
        | none => simp only [Volatile.getMessage, Ledger.getMessage, messages, found]
        | some record => simp only [Volatile.getMessage, Ledger.getMessage, messages, found]
      exact ⟨same, represents⟩
  | getChunk digest =>
      simp only [Host.of, Volatile.call, Ledger.call, Volatile.getChunk, Ledger.getChunk, chunks]
      refine ⟨?_, represents⟩
      cases ledger.chunks.find? digest with
      | none => rfl
      | some held => exact unpack_pack digest engine.level held

end Volatile
end Store
end MailVault
