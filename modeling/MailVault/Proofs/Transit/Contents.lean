import MailVault.Proofs.Transit.Orders

/-!
# What a buffer holds since it was emptied

A buffer keeps its pending bytes, their hash and the manifest apart, and a fault of the
store can stop it between any two chunks.  After every row of orders the three still
belong together, whatever the store answers and whichever stores there are.

The state of the store plays no part in this.  What is known of the buffer is compared
with how the orders since the last start were handled: the bytes that these have taken in
are those of the chunks followed by the pending ones, and each chunk is traced back to the
order under which it was stored and to one under which its bytes were in the buffer.
-/

namespace MailVault
namespace Transit

open Store (Fault Host)

variable {κ σ : Type}

namespace Buffer

/-- The descriptor is that of the piece, which has at least one byte. -/
structure Describes (piece : Bytes) (descriptor : Descriptor) : Prop where
  some : 1 ≤ descriptor.size
  size : descriptor.size = piece.length
  digest : descriptor.digest = Digest.of piece

/-- The chunk at a place of the manifest was stored in the course of one of the handlings, with the
label that was current then.  While bytes of it were in the buffer, there was a cap that it does
not exceed, so that it does not exceed the largest one. -/
def Traced (recent : List (Handling κ)) (place : Nat) (descriptor : Descriptor) : Prop :=
  ∃ earlier handling later, recent = earlier ++ handling :: later ∧ handling.Stores place ∧
    (⟨descriptor.part, descriptor.contentType⟩ : Label) = currentLabel earlier ∧
    ∃ building ∈ earlier ++ [handling],
      building.Builds place ∧ descriptor.size ≤ building.after.cap

/-- What is known of a buffer from the handlings since it was emptied. -/
structure Told (recent : List (Handling κ)) (buffer : Buffer κ) : Prop where
  hashed : buffer.Hashed
  label : buffer.label = currentLabel recent
  spelled : ∃ shares pieces, List.Forall₂ Handling.Takes recent shares ∧
    List.Forall₂ Describes pieces buffer.manifest.entries ∧
    shares.flatten = pieces.flatten ++ buffer.pending
  chunks : ∀ place descriptor, buffer.manifest.entries[place]? = some descriptor →
    Traced recent place descriptor
  pending : buffer.pending ≠ [] → ∃ building ∈ recent,
    building.Builds buffer.manifest.size ∧ buffer.pending.length ≤ building.after.cap

theorem told_of_empty {buffer : Buffer κ} (pending : buffer.pending = [])
    (hasher : buffer.hasher = .empty) (label : buffer.label = .none)
    (manifest : buffer.manifest = .empty) : Told [] buffer where
  hashed := hashed_of_empty hasher pending
  label := label
  spelled := by
    refine ⟨[], [], .nil, ?_, ?_⟩
    · rw [manifest]
      exact .nil
    · rw [pending]
      rfl
  chunks := by
    intro place descriptor found
    rw [manifest] at found
    cases found
  pending some := absurd pending some

theorem Traced.later {recent : List (Handling κ)} {place : Nat} {descriptor : Descriptor}
    (traced : Traced recent place descriptor) (handling : Handling κ) :
    Traced (recent ++ [handling]) place descriptor := by
  rcases traced with ⟨earlier, storing, later, rfl, stores⟩
  refine ⟨earlier, storing, later ++ [handling], ?_, stores⟩
  rw [List.append_assoc, List.cons_append]

section Step

variable {recent : List (Handling κ)} {handling : Handling κ} {taken : Bytes}
  {pieces : List Bytes}

theorem Filled.size_eq {before after : Buffer κ} (filled : Filled before taken pieces after) :
    after.manifest.size = before.manifest.size + pieces.length := by
  rw [Manifest.size, filled.entries, List.length_append, List.length_map, Manifest.size]

/-- A chunk that was stored just now is traced to this handling.  If it is over the cap, it has the
bytes that were pending before. -/
theorem Told.traced (told : Told recent handling.before)
    (filled : Filled handling.before taken pieces handling.after) {place : Nat} {piece : Bytes}
    (found : pieces[place]? = some piece) :
    Traced (recent ++ [handling]) (handling.before.manifest.size + place)
      (Draft.describe handling.before.label piece) := by
  have less : place < pieces.length := (List.getElem?_eq_some_iff.mp found).1
  have stores : handling.Stores (handling.before.manifest.size + place) := by
    refine ⟨Nat.le_add_right _ _, ?_⟩
    rw [filled.size_eq]
    omega
  refine ⟨recent, handling, [], rfl, stores, told.label, ?_⟩
  rcases filled.pieces_le place piece found with least | ⟨rfl, rfl⟩
  · exact ⟨handling, List.mem_append_right _ (List.mem_singleton.mpr rfl),
      ⟨stores.1, Or.inl stores.2⟩, least⟩
  · have some := filled.some _ (List.mem_of_getElem? found)
    rcases told.pending some with ⟨building, member, builds, least⟩
    exact ⟨building, List.mem_append_left _ member, builds, least⟩

/-- A handling that fills the buffer keeps everything accounted for. -/
theorem Told.filled (told : Told recent handling.before)
    (filled : Filled handling.before taken pieces handling.after)
    (label : handling.after.label = handling.order.labels handling.before.label)
    (takes : handling.Takes taken) : Told (recent ++ [handling]) handling.after where
  hashed := filled.hashed
  label := by rw [currentLabel_append, label, told.label]
  spelled := by
    rcases told.spelled with ⟨shares, before, shared, described, equal⟩
    refine ⟨shares ++ [taken], before ++ pieces, List.rel_append shared (.cons takes .nil), ?_, ?_⟩
    · rw [filled.entries]
      apply List.rel_append described
      apply List.forall₂_map_right_iff.mpr
      apply List.forall₂_same.mpr
      intro piece member
      exact ⟨List.length_pos_iff.mpr (filled.some piece member), rfl, rfl⟩
    · calc
        (shares ++ [taken]).flatten = shares.flatten ++ taken := by
          rw [List.flatten_append, List.flatten_singleton]
        _ = before.flatten ++ (handling.before.pending ++ taken) := by
          rw [equal, List.append_assoc]
        _ = (before ++ pieces).flatten ++ handling.after.pending := by
          rw [filled.joined, List.flatten_append, List.append_assoc]
  chunks := by
    intro place descriptor found
    rw [filled.entries] at found
    by_cases old : place < handling.before.manifest.entries.length
    · rw [List.getElem?_append_left old] at found
      exact (told.chunks place descriptor found).later handling
    · have behind := Nat.le_of_not_lt old
      rw [List.getElem?_append_right behind, List.getElem?_map] at found
      rcases Option.map_eq_some_iff.mp found with ⟨piece, stored, rfl⟩
      have traced := told.traced filled stored
      rwa [Manifest.size, Nat.add_sub_cancel' behind] at traced
  pending := by
    intro some
    have size := filled.size_eq
    rcases filled.pending_le with least | ⟨rfl, same⟩
    · refine ⟨handling, List.mem_append_right _ (List.mem_singleton.mpr rfl), ⟨?_, ?_⟩, least⟩
      · omega
      · exact Or.inr ⟨rfl, some⟩
    · rw [same] at some
      rcases told.pending some with ⟨building, member, builds, least⟩
      rw [same, size]
      exact ⟨building, List.mem_append_left _ member, builds, least⟩

end Step

/-- Every order keeps the buffer accounted for. -/
theorem Told.follow {buffer : Buffer κ} {earlier : List (Handling κ)}
    (told : Told (recent earlier) buffer) (host : Host κ σ) (state : σ) (order : Order κ) :
    Told (recent (earlier ++ [⟨buffer, order, (buffer.follow host state order).1,
      (buffer.follow host state order).2.1⟩])) (buffer.follow host state order).2.1 := by
  cases restarts : order.restarts with
  | true =>
      rw [recent_restart earlier restarts]
      cases order with
      | reset => exact told_of_empty rfl rfl rfl rfl
      | takeManifest => exact told_of_empty rfl rfl rfl rfl
      | _ => cases restarts
  | false =>
      rw [recent_append earlier restarts]
      rcases buffer.follow_filled host state restarts told.hashed with
        ⟨taken, pieces, filled, label, takes⟩
      exact told.filled filled label takes

theorem Told.run {buffer : Buffer κ} {earlier : List (Handling κ)}
    (told : Told (recent earlier) buffer) (host : Host κ σ) (state : σ)
    (orders : List (Order κ)) :
    Told (recent (earlier ++ buffer.handlings host state orders))
      (buffer.run host state orders).1 := by
  induction orders generalizing buffer state earlier with
  | nil =>
      rw [handlings, List.append_nil]
      exact told
  | cons order later inductionStep =>
      rw [handlings, List.append_cons]
      exact inductionStep (told.follow host state order) _

theorem told_run (host : Host κ σ) (state : σ) (orders : List (Order κ)) :
    Told (recent ((new : Buffer κ).handlings host state orders))
      ((new : Buffer κ).run host state orders).1 := by
  have told : Told (recent []) (new : Buffer κ) := told_of_empty rfl rfl rfl rfl
  exact told.run host state orders

theorem flush_eq_error {buffer after : Buffer κ} {host : Host κ σ} {state now : σ} {fault : Fault}
    (failed : buffer.flush host state = (.error fault, after, now)) :
    after = buffer ∧ buffer.pending ≠ [] := by
  rcases buffer.flush_cases host state with ⟨_, flushed⟩ | ⟨some, refused | stored⟩
  · rw [flushed] at failed
    cases failed
  · rcases refused with ⟨_, _, flushed⟩
    rw [flushed] at failed
    cases failed
    exact ⟨rfl, some⟩
  · rcases stored with ⟨_, _, flushed⟩
    rw [flushed] at failed
    cases failed

/-- What a flush that succeeds has done with the pending bytes of a buffer: the store got them under
their digest, they are recorded with the current label, and nothing is pending any more. -/
structure Commits (buffer : Buffer κ) (host : Host κ σ) (store : Option κ) (state : σ)
    (after : Buffer κ) (now : σ) : Prop where
  emptied : after.pending = []
  recorded : after.manifest = buffer.manifest.push (Draft.describe buffer.label buffer.pending)
  handed : ∃ chosen known, store = some chosen ∧
    host.call chosen (.addChunk (Digest.of buffer.pending) buffer.pending) state =
      (.ok known, now)

theorem Hashed.commits {buffer after : Buffer κ} (hashed : buffer.Hashed)
    (some : buffer.pending ≠ []) {host : Host κ σ} {state now : σ}
    (flushed : buffer.flush host state = (.ok (), after, now)) :
    buffer.Commits host buffer.store state after now := by
  rcases buffer.flush_cases host state with ⟨none, _⟩ | ⟨_, refused | stored⟩
  · exact absurd none some
  · rcases refused with ⟨_, _, failed⟩
    rw [failed] at flushed
    cases flushed
  · rcases stored with ⟨_, deposited, done⟩
    rw [done] at flushed
    cases flushed
    refine ⟨rfl, ?_, ?_⟩
    · change buffer.manifest.push buffer.descriptor = _
      rw [Shows.descriptor hashed]
    · rw [← hashed.digest]
      exact deposit_eq_ok deposited

/-- After a flush that failed, one that succeeds does what the first one would have done. -/
theorem Hashed.flush_again {buffer after : Buffer κ} (hashed : buffer.Hashed) {host : Host κ σ}
    {state now : σ} {fault : Fault}
    (failed : buffer.flush host state = (.error fault, after, now)) :
    after = buffer ∧
      ∀ again last later next, again = after ∨ (∃ store, again = after.setStore store) →
        again.flush host later = (.ok (), last, next) →
          buffer.Commits host again.store later last next := by
  rcases flush_eq_error failed with ⟨rfl, some⟩
  refine ⟨rfl, ?_⟩
  rintro again last later next (rfl | ⟨store, rfl⟩) flushed
  · exact hashed.commits some flushed
  · have same : (after.setStore store).Hashed := hashed
    rcases same.commits some flushed with ⟨emptied, recorded, handed⟩
    exact ⟨emptied, recorded, handed⟩

/-- A write that fails does so in a flush of the buffer that it leaves. -/
theorem Hashed.write_eq_error {buffer after : Buffer κ} (hashed : buffer.Hashed)
    {host : Host κ σ} {data : Bytes} {state now : σ} {fault : Fault}
    (failed : buffer.write host data state = (.error fault, after, now)) :
    ∃ middle, after.flush host middle = (.error fault, after, now) := by
  have written := buffer.write_filled host data state hashed
  rw [failed] at written
  rcases written with ⟨_, _, _, _, _, stopped⟩
  exact stopped fault rfl

end Buffer

open Buffer (Handling Order Traced Describes recent)

/-- A new buffer is told anything, with any stores behind it that answer as they like.  Then its
hasher has the digest of the pending bytes, the shares of the orders since it was emptied are the
bytes of its chunks followed by the pending ones, and each chunk is traced.

If a flush fails, the buffer is as before.  When the next flush succeeds, perhaps with another
store, it hands the same bytes to the store and records the same chunk as the first one would
have.  A write that fails does so in a flush of the buffer that it leaves. -/
theorem buffer_stays_accounted (host : Host κ σ) (state : σ) (orders : List (Order κ)) :
    let buffer := ((Buffer.new : Buffer κ).run host state orders).1
    let past := recent ((Buffer.new : Buffer κ).handlings host state orders)
    Digest.ofHasher buffer.hasher = Digest.of buffer.pending ∧
    (∃ shares pieces, List.Forall₂ Handling.Takes past shares ∧
      List.Forall₂ Describes pieces buffer.manifest.entries ∧
      shares.flatten = pieces.flatten ++ buffer.pending) ∧
    (∀ place descriptor, buffer.manifest.entries[place]? = some descriptor →
      Traced past place descriptor) ∧
    (∀ reached fault after now, buffer.flush host reached = (.error fault, after, now) →
      after = buffer ∧
      ∀ again last later next, again = after ∨ (∃ store, again = after.setStore store) →
        again.flush host later = (.ok (), last, next) →
          buffer.Commits host again.store later last next) ∧
    ∀ data reached fault after now,
      buffer.write host data reached = (.error fault, after, now) →
        ∃ middle, after.flush host middle = (.error fault, after, now) := by
  intro buffer past
  have told := Buffer.told_run host state orders
  refine ⟨told.hashed.digest, told.spelled, told.chunks, ?_, ?_⟩
  · intro reached fault after now failed
    exact told.hashed.flush_again failed
  · intro data reached fault after now failed
    exact told.hashed.write_eq_error failed

end Transit
end MailVault
