import MailVault.Proofs.Store.Watched
import MailVault.Proofs.Transit.Calls

/-!
# What a buffer holds of a message

The chunks of a manifest spell the first bytes of what was written, and the pending
bytes are the rest.  A buffer whose hasher has taken in just the pending bytes stores
them under their digest, so this stays true along every course, whatever the store
refuses.
-/

namespace MailVault
namespace Transit

open Store (Coherent Host Ledger Spells Stocked Watched)

variable {κ σ : Type}

namespace Buffer

/-- The hasher has taken in just the pending bytes. -/
def Hashed (buffer : Buffer κ) : Prop :=
  buffer.hasher = Blake3.Hasher.empty.update buffer.pending

/-- The stored chunks and the pending bytes together are the content. -/
def Holds (added : List Bytes) (buffer : Buffer κ) (content : Bytes) : Prop :=
  ∃ stored, Spells added buffer.manifest.entries stored ∧ content = stored ++ buffer.pending

theorem hashed_of_empty {buffer : Buffer κ} (hasher : buffer.hasher = .empty)
    (pending : buffer.pending = []) : buffer.Hashed := by
  rw [Hashed, hasher, pending, Blake3.Hasher.update_empty_nil]

theorem Hashed.append {buffer : Buffer κ} (hashed : buffer.Hashed) (data : Bytes) :
    (buffer.append data).Hashed := by
  change buffer.hasher.update data = Blake3.Hasher.empty.update (buffer.pending ++ data)
  rw [hashed, Blake3.Hasher.update_update]

theorem Hashed.digest {buffer : Buffer κ} (hashed : buffer.Hashed) :
    Digest.ofHasher buffer.hasher = Digest.of buffer.pending := by
  rw [hashed, Digest.ofHasher_update]

theorem holds_reset (added : List Bytes) (buffer : Buffer κ) : buffer.reset.Holds added [] :=
  ⟨[], .nil added, rfl⟩

theorem Holds.append {added : List Bytes} {buffer : Buffer κ} {content : Bytes}
    (holds : buffer.Holds added content) (data : Bytes) :
    (buffer.append data).Holds added (content ++ data) := by
  rcases holds with ⟨stored, spells, rfl⟩
  exact ⟨stored, spells, List.append_assoc _ _ _⟩

theorem Holds.later {added more : List Bytes} {buffer : Buffer κ} {content : Bytes}
    (holds : buffer.Holds added content) (grown : added ⊆ more) : buffer.Holds more content := by
  rcases holds with ⟨stored, spells, equal⟩
  exact ⟨stored, spells.later grown, equal⟩

/-- Storing the pending bytes lets the manifest spell them. -/
theorem Holds.flushed {added : List Bytes} {buffer : Buffer κ} {content : Bytes}
    (holds : buffer.Holds added content) (hashed : buffer.Hashed)
    (member : buffer.pending ∈ added) : buffer.flushed.Holds added content := by
  rcases holds with ⟨stored, spells, rfl⟩
  exact ⟨stored ++ buffer.pending, spells.push buffer.descriptor _ hashed.digest member,
    (List.append_nil _).symm⟩

theorem Holds.spells {added : List Bytes} {buffer : Buffer κ} {content : Bytes}
    (holds : buffer.Holds added content) (pending : buffer.pending = []) :
    Spells added buffer.manifest.entries content := by
  rcases holds with ⟨stored, spells, rfl⟩
  rwa [pending, List.append_nil]

end Buffer

/-- What stays true of the store while a buffer is on a course: it still holds what was added to
it, the messages are as they were, and nothing that was added is lost. -/
structure Kept (Represents : σ → Ledger → Prop) (before : Watched σ) (ledger : Ledger)
    (after : Watched σ) (later : Ledger) : Prop where
  stocked : Stocked Represents after later
  last : later.last = ledger.last
  messages : later.messages = ledger.messages
  grown : before.added ⊆ after.added

variable {Represents : σ → Ledger → Prop} {host : Host κ σ}

theorem Kept.refl {watched : Watched σ} {ledger : Ledger}
    (stocked : Stocked Represents watched ledger) : Kept Represents watched ledger watched ledger :=
  ⟨stocked, rfl, rfl, List.Subset.refl _⟩

theorem Kept.trans {first second third : Watched σ} {ledger later last : Ledger}
    (before : Kept Represents first ledger second later)
    (after : Kept Represents second later third last) :
    Kept Represents first ledger third last where
  stocked := after.stocked
  last := after.last.trans before.last
  messages := after.messages.trans before.messages
  grown := List.Subset.trans before.grown after.grown

/-- A deposit either is refused, or what was pending is among what was added. -/
theorem Buffer.Hashed.deposit (follows : host.Follows Represents) {buffer : Buffer κ}
    (hashed : buffer.Hashed) {watched after : Watched σ} {ledger : Ledger}
    {result : Except Store.Fault Unit} (stocked : Stocked Represents watched ledger)
    (deposited : buffer.deposit host.watch watched = (result, after)) :
    (∃ later, Kept Represents watched ledger after later) ∧
      (result = .ok () → buffer.pending ∈ after.added) := by
  unfold Buffer.deposit at deposited
  cases found : buffer.store with
  | none =>
      rw [found] at deposited
      cases deposited
      exact ⟨⟨ledger, .refl stocked⟩, fun ok => by cases ok⟩
  | some store =>
      rw [found, hashed.digest] at deposited
      rcases stocked.addChunk follows store buffer.pending with ⟨later, still, last, messages⟩
      have added : (host.watch.call store (.addChunk (Digest.of buffer.pending) buffer.pending)
          watched).2.added = watched.added ++ Store.addedBy
            (.addChunk (Digest.of buffer.pending) buffer.pending)
            (host.watch.call store (.addChunk (Digest.of buffer.pending) buffer.pending)
              watched).1 := rfl
      simp only at deposited
      rcases called : host.watch.call store
        (.addChunk (Digest.of buffer.pending) buffer.pending) watched with ⟨answer, now⟩
      rw [called] at deposited still added
      have grown : watched.added ⊆ now.added := by
        rw [added]
        exact List.subset_append_left _ _
      cases answer with
      | error fault =>
          cases deposited
          exact ⟨⟨later, still, last, messages, grown⟩, fun ok => by cases ok⟩
      | ok known =>
          cases deposited
          refine ⟨⟨later, still, last, messages, grown⟩, fun _ => ?_⟩
          rw [added]
          exact List.mem_append_right _ (List.mem_singleton.mpr rfl)

/-- Along every course the store keeps what it has, and the buffer holds what it held and the
bytes that were appended. -/
theorem Course.keeps (follows : host.Follows Represents) {buffer later : Buffer κ}
    {watched now : Watched σ} {taken : Bytes} {ledger : Ledger}
    (course : Course host.watch buffer watched taken later now) (hashed : buffer.Hashed)
    (stocked : Stocked Represents watched ledger) :
    (∃ after, Kept Represents watched ledger now after) ∧ later.Hashed ∧
      ∀ content, buffer.Holds watched.added content →
        later.Holds now.added (content ++ taken) := by
  induction course with
  | stay =>
      refine ⟨⟨ledger, .refl stocked⟩, hashed, fun content holds => ?_⟩
      rwa [List.append_nil]
  | append data _ _ inductionStep =>
      rcases inductionStep with ⟨kept, fresh, holds⟩
      refine ⟨kept, fresh.append data, fun content before => ?_⟩
      rw [← List.append_assoc]
      exact (holds content before).append data
  | refused _ deposited inductionStep =>
      rcases inductionStep with ⟨⟨middle, kept⟩, fresh, holds⟩
      rcases fresh.deposit follows kept.stocked deposited with ⟨⟨after, more⟩, _⟩
      exact ⟨⟨after, kept.trans more⟩, fresh,
        fun content before => (holds content before).later more.grown⟩
  | stored _ _ deposited inductionStep =>
      rcases inductionStep with ⟨⟨middle, kept⟩, fresh, holds⟩
      rcases fresh.deposit follows kept.stocked deposited with ⟨⟨after, more⟩, member⟩
      refine ⟨⟨after, kept.trans more⟩, Buffer.hashed_of_empty rfl rfl, fun content before => ?_⟩
      exact ((holds content before).later more.grown).flushed fresh (member rfl)
  | relabelled part _ inductionStep => exact inductionStep

end Transit
end MailVault
