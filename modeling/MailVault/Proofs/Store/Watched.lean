import Mathlib.Data.List.Forall2
import MailVault.Message.Reader
import MailVault.Proofs.Blake3.Incremental
import MailVault.Proofs.Store.Refinement

/-!
# The contents that a store was given

A watched store keeps, next to its own state, the contents of all chunks that were
added to it.  If every addition comes under the digest of its content, then each
digest in the store holds a content that was added, and each content that was
added is held under its digest.  When no two of these contents share a digest,
reading a manifest gives back what its chunks were made from.
-/

namespace MailVault
namespace Store

variable {κ σ : Type}

/-- A store with the contents that were added to it, in order. -/
structure Watched (σ : Type) where
  store : σ
  added : List Bytes

/-- The content that a call adds, if it is an addition that succeeds. -/
def addedBy {β : Type} : Call β → Except Fault β → List Bytes
  | .addChunk _ data, .ok _ => [data]
  | _, _ => []

@[simp] theorem addedBy_error {β : Type} (request : Call β) (fault : Fault) :
    addedBy request (.error fault) = [] := by
  cases request <;> rfl

theorem addedBy_of_kind {β : Type} {request : Call β} (other : request.kind ≠ .addChunk)
    (answer : Except Fault β) : addedBy request answer = [] := by
  cases request with
  | addChunk digest data => exact absurd rfl other
  | start => rfl
  | stop => rfl
  | openMessage opening => rfl
  | closeMessage id total manifest summary => rfl
  | getMessage id => rfl
  | getChunk digest => rfl

/-- The host that also keeps account of what is added. -/
def Host.watch (host : Host κ σ) : Host κ (Watched σ) where
  call key request watched :=
    ((host.call key request watched.store).1,
      { store := (host.call key request watched.store).2
        added := watched.added ++ addedBy request (host.call key request watched.store).1 })

def Distinct (added : List Bytes) : Prop :=
  ∀ first ∈ added, ∀ second ∈ added, Digest.of first = Digest.of second → first = second

instance (added : List Bytes) : Decidable (Distinct added) :=
  inferInstanceAs (Decidable (∀ first ∈ added, ∀ second ∈ added, _))

/-- The chunks of a store are just the contents that were added, each under its digest. -/
structure Coherent (chunks : Table Digest Held) (added : List Bytes) : Prop where
  held : ∀ digest held, chunks.find? digest = some held →
    held.data ∈ added ∧ Digest.of held.data = digest
  kept : ∀ content ∈ added, ∃ held, chunks.find? (Digest.of content) = some held

theorem coherent_empty : Coherent Table.empty [] where
  held _ _ found := by cases found
  kept _ member := by cases member

/-- Storing a held content under its digest, after it was added, keeps a store coherent. -/
theorem Coherent.insert {chunks : Table Digest Held} {added : List Bytes}
    (coherent : Coherent chunks added) (data : Bytes) (held : Held)
    (known : held.data ∈ added ++ [data]) (named : Digest.of held.data = Digest.of data) :
    Coherent (chunks.insert (Digest.of data) held) (added ++ [data]) where
  held digest other found := by
    rcases Table.find?_insert_cases found with ⟨same, rfl⟩ | ⟨_, before⟩
    · exact ⟨known, named.trans same.symm⟩
    · rcases coherent.held digest other before with ⟨member, equal⟩
      exact ⟨List.mem_append_left _ member, equal⟩
  kept content member := by
    rw [Table.find?_insert]
    by_cases same : Digest.of content = Digest.of data
    · exact ⟨held, if_pos same⟩
    · rw [if_neg same]
      rcases List.mem_append.mp member with before | now
      · exact coherent.kept content before
      · rw [List.mem_singleton] at now
        exact absurd (congrArg Digest.of now) same

/-- Adding a content under its digest keeps a store coherent, also if the digest is known. -/
theorem Coherent.addChunk {ledger : Ledger} {added : List Bytes}
    (coherent : Coherent ledger.chunks added) (data : Bytes) :
    Coherent (ledger.addChunk (Digest.of data) data).2.chunks (added ++ [data]) := by
  rw [Ledger.addChunk]
  cases found : ledger.chunks.find? (Digest.of data) with
  | none => exact coherent.insert data _ (List.mem_append_right _ (List.mem_singleton.mpr rfl)) rfl
  | some held =>
      rcases coherent.held _ held found with ⟨member, named⟩
      exact coherent.insert data _ (List.mem_append_left _ member) named

/-- A watched store that represents a ledger and holds what was added to it. -/
structure Stocked (Represents : σ → Ledger → Prop) (watched : Watched σ) (ledger : Ledger) :
    Prop where
  represents : Represents watched.store ledger
  coherent : Coherent ledger.chunks watched.added

namespace Stocked

variable {host : Host κ σ} {Represents : σ → Ledger → Prop} {watched : Watched σ}
  {ledger : Ledger}

/-- Adding a content under its digest leaves a store that holds what was added, and the
messages as they were, whether or not the store refuses. -/
theorem addChunk (stocked : Stocked Represents watched ledger)
    (follows : host.Follows Represents) (key : κ) (data : Bytes) :
    ∃ after : Ledger,
      Stocked Represents (host.watch.call key (.addChunk (Digest.of data) data) watched).2
        after ∧
      after.last = ledger.last ∧ after.messages = ledger.messages := by
  simp only [Host.watch]
  rcases follows key (.addChunk (Digest.of data) data) watched.store ledger
    stocked.represents with ⟨fault, refused, represents⟩ | ⟨answered, represents⟩
  · refine ⟨ledger, ⟨represents, ?_⟩, rfl, rfl⟩
    rw [refused, addedBy_error, List.append_nil]
    exact stocked.coherent
  · rcases ledger.addChunk_ok (Digest.of data) data with ⟨known, ok⟩
    refine ⟨(ledger.addChunk (Digest.of data) data).2, ⟨represents, ?_⟩, ?_⟩
    · rw [answered, Ledger.call, ok]
      exact stocked.coherent.addChunk data
    · exact ledger.addChunk_frame (Digest.of data) data

/-- Any other call fails and changes nothing, or it is answered as the ledger answers it; what
was added stays the same. -/
theorem call (stocked : Stocked Represents watched ledger) (follows : host.Follows Represents)
    (key : κ) {β : Type} (request : Call β) (other : request.kind ≠ .addChunk) :
    (host.watch.call key request watched).2.added = watched.added ∧
      ((∃ fault, (host.watch.call key request watched).1 = .error fault ∧
        Stocked Represents (host.watch.call key request watched).2 ledger) ∨
      ((host.watch.call key request watched).1 = (ledger.call request).1 ∧
        Stocked Represents (host.watch.call key request watched).2 (ledger.call request).2)) := by
  have added := addedBy_of_kind other (host.call key request watched.store).1
  simp only [Host.watch, added, List.append_nil, true_and]
  rcases follows key request watched.store ledger stocked.represents with
    ⟨fault, refused, represents⟩ | ⟨answered, represents⟩
  · exact Or.inl ⟨fault, refused, represents, stocked.coherent⟩
  · refine Or.inr ⟨answered, represents, ?_⟩
    rw [ledger.chunks_of_kind other]
    exact stocked.coherent

end Stocked

/-- Descriptors spell a content: each names one of the contents that were added, and these
together are the content. -/
def Spells (added : List Bytes) (entries : List Descriptor) (content : Bytes) : Prop :=
  ∃ pieces : List Bytes,
    List.Forall₂ (fun descriptor piece => descriptor.digest = Digest.of piece ∧ piece ∈ added)
      entries pieces ∧
    pieces.flatten = content

namespace Spells

variable {added more : List Bytes} {entries : List Descriptor} {content : Bytes}

theorem nil (added : List Bytes) : Spells added [] [] :=
  ⟨[], .nil, rfl⟩

theorem later (spells : Spells added entries content) (grown : added ⊆ more) :
    Spells more entries content := by
  rcases spells with ⟨pieces, matched, flat⟩
  exact ⟨pieces, matched.imp fun _ _ both => ⟨both.1, grown both.2⟩, flat⟩

theorem push (spells : Spells added entries content) (descriptor : Descriptor) (piece : Bytes)
    (named : descriptor.digest = Digest.of piece) (member : piece ∈ added) :
    Spells added (entries ++ [descriptor]) (content ++ piece) := by
  rcases spells with ⟨pieces, matched, flat⟩
  refine ⟨pieces ++ [piece], ?_, ?_⟩
  · exact List.rel_append matched (.cons ⟨named, member⟩ .nil)
  · rw [List.flatten_append, flat, List.flatten_singleton]

/-- Reading descriptors gives the content that they spell, if no two of the added contents share
a digest. -/
theorem read {host : Host κ σ} {Represents : σ → Ledger → Prop}
    (answers : host.Answers Represents) (distinct : Distinct added)
    (spells : Spells added entries content) (key : κ) {state : σ} {ledger : Ledger}
    (represents : Represents state ledger) (coherent : Coherent ledger.chunks added) :
    (readChunks host key entries state).1 = .ok content := by
  rcases spells with ⟨pieces, matched, flat⟩
  subst flat
  induction matched generalizing state with
  | nil => rfl
  | @cons descriptor piece entries pieces first rest inductionStep =>
      rcases first with ⟨named, member⟩
      rcases coherent.kept piece member with ⟨held, found⟩
      rcases coherent.held (Digest.of piece) held found with ⟨known, same⟩
      have data : held.data = piece := distinct held.data known piece member same
      have answered := answers key (.getChunk descriptor.digest) state ledger represents
      rw [named, Ledger.call, Ledger.getChunk, found] at answered
      rw [readChunks, named]
      rcases called : host.call key (.getChunk (Digest.of piece)) state with ⟨result, now⟩
      rw [called] at answered
      rcases answered with ⟨ok, still⟩
      simp only at ok
      have others := inductionStep still
      rw [ok]
      simp only
      rcases fetched : readChunks host key entries now with ⟨result, after⟩
      rw [fetched] at others
      simp only at others
      rw [others, data]
      rfl

/-- Reading a message gives the content that its record spells. -/
theorem readMessage {host : Host κ σ} {Represents : σ → Ledger → Prop}
    (answers : host.Answers Represents) (distinct : Distinct added) {record : MessageRecord}
    (spells : Spells added record.manifest.entries content) (key : κ) {state : σ}
    {ledger : Ledger} {id : MessageId} (found : ledger.messages.find? id = some record)
    (represents : Represents state ledger) (coherent : Coherent ledger.chunks added) :
    (MailVault.readMessage host key id state).1 = .ok content := by
  have answered := answers key (.getMessage id) state ledger represents
  rw [Ledger.call, Ledger.getMessage, found] at answered
  rw [MailVault.readMessage]
  rcases called : host.call key (.getMessage id) state with ⟨result, now⟩
  rw [called] at answered
  rcases answered with ⟨ok, still⟩
  simp only at ok
  rw [ok]
  exact spells.read answers distinct key still coherent

end Spells
end Store
end MailVault
