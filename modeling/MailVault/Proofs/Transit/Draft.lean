import MailVault.Proofs.Store.Refinement
import MailVault.Proofs.Transit.Custody

/-!
# What a buffer makes of bytes when no store fails

On an engine that does not fail, nothing that a buffer does depends on the store, on
the hasher or on where one slice ends and the next begins.  A draft is what remains:
the pending bytes, the label and the descriptors of the chunks so far.  It takes one
byte at a time, so the descriptors cannot depend on how the bytes are handed over.
-/

namespace MailVault
namespace Transit

open Store (Host Ledger)

variable {κ σ : Type}

/-- A buffer as far as its chunks are concerned; the pending bytes never reach the cap. -/
structure Draft (cap : Nat) where
  pending : Bytes
  label : Label
  entries : List Descriptor
  room : pending.length < cap

namespace Draft

variable {cap : Nat}

def describe (label : Label) (piece : Bytes) : Descriptor where
  digest := Digest.of piece
  size := piece.length
  part := label.node
  contentType := label.contentType

def blank (label : Label) (positive : 0 < cap) : Draft cap where
  pending := []
  label := label
  entries := []
  room := positive

/-- The draft with one more chunk and nothing pending. -/
def store (draft : Draft cap) (piece : Bytes) : Draft cap where
  pending := []
  label := draft.label
  entries := draft.entries ++ [describe draft.label piece]
  room := Nat.zero_lt_of_lt draft.room

/-- Make a chunk of the pending bytes, if there are any. -/
def flush (draft : Draft cap) : Draft cap :=
  if draft.pending = [] then draft else draft.store draft.pending

def relabel (draft : Draft cap) (label : Label) : Draft cap :=
  { draft with label := label }

/-- End a chunk here, and go on with another label. -/
def cut (draft : Draft cap) (label : Label) : Draft cap :=
  draft.flush.relabel label

/-- More bytes are pending, and still less than the cap. -/
def append (draft : Draft cap) (data : Bytes) (fits : draft.pending.length + data.length < cap) :
    Draft cap :=
  { draft with
    pending := draft.pending ++ data
    room := by rw [List.length_append]; exact fits }

/-- Take in one byte; it may fill up a chunk. -/
def put (draft : Draft cap) (byte : UInt8) : Draft cap :=
  if fits : draft.pending.length + [byte].length < cap then draft.append [byte] fits
  else draft.store (draft.pending ++ [byte])

def fed (draft : Draft cap) (data : Bytes) : Draft cap :=
  data.foldl put draft

@[ext] theorem ext {left right : Draft cap} (pending : left.pending = right.pending)
    (label : left.label = right.label) (entries : left.entries = right.entries) :
    left = right := by
  cases left
  cases right
  cases pending
  cases label
  cases entries
  rfl

@[simp] theorem fed_nil (draft : Draft cap) : draft.fed [] = draft := rfl

/-- It does not matter where one slice ends and the next begins. -/
theorem fed_append (draft : Draft cap) (first second : Bytes) :
    draft.fed (first ++ second) = (draft.fed first).fed second :=
  List.foldl_append

@[simp] theorem pending_flush (draft : Draft cap) : draft.flush.pending = [] := by
  unfold flush
  split
  · assumption
  · rfl

theorem flush_of_nil {draft : Draft cap} (none : draft.pending = []) : draft.flush = draft :=
  if_pos none

@[simp] theorem cut_cut (draft : Draft cap) (first second : Label) :
    (draft.cut first).cut second = draft.cut second := by
  have none : (draft.flush.relabel first).pending = [] := draft.pending_flush
  rw [cut, cut, flush_of_nil none]
  rfl

/-- A cut before the end adds no chunk to those that are there at the end. -/
@[simp] theorem entries_flush_cut (draft : Draft cap) (label : Label) :
    (draft.cut label).flush.entries = draft.flush.entries := by
  have none : (draft.flush.relabel label).pending = [] := draft.pending_flush
  rw [cut, flush_of_nil none]
  rfl

theorem append_append {draft : Draft cap} {first second : Bytes}
    (fits : draft.pending.length + first.length < cap)
    (more : (draft.append first fits).pending.length + second.length < cap) :
    (draft.append first fits).append second more =
      draft.append (first ++ second) (by
        simpa [append, Nat.add_assoc] using more) :=
  ext (List.append_assoc _ _ _) rfl rfl

theorem fed_of_fits (draft : Draft cap) (data : Bytes)
    (fits : draft.pending.length + data.length < cap) :
    draft.fed data = draft.append data fits := by
  induction data generalizing draft with
  | nil => exact ext (List.append_nil _).symm rfl rfl
  | cons byte data inductionStep =>
      have first : draft.pending.length + [byte].length < cap := by
        simp only [List.length_cons, List.length_nil] at fits ⊢
        omega
      have others : (draft.append [byte] first).pending.length + data.length < cap := by
        simp only [append, List.length_append, List.length_cons, List.length_nil] at fits ⊢
        omega
      change (draft.put byte).fed data = _
      rw [put, dif_pos first, inductionStep _ others, append_append]
      rfl

theorem fed_of_fills (draft : Draft cap) (data : Bytes)
    (fills : draft.pending.length + data.length = cap) :
    draft.fed data = draft.store (draft.pending ++ data) := by
  have room := draft.room
  have some : data ≠ [] := by
    intro none
    rw [none, List.length_nil] at fills
    omega
  rcases (List.eq_nil_or_concat' data).resolve_left some with ⟨before, byte, rfl⟩
  rw [List.length_append, List.length_singleton] at fills
  have fits : draft.pending.length + before.length < cap := by omega
  rw [fed_append, fed_of_fits draft before fits]
  have full : ¬ (draft.append before fits).pending.length + [byte].length < cap := by
    simp only [append, List.length_append, List.length_singleton]
    omega
  change (draft.append before fits).put byte = _
  rw [put, dif_neg full]
  exact ext rfl rfl (by simp [store, append])

end Draft
/-- A state of an engine whose messages are the given ones. -/
def Keeps (Represents : σ → Ledger → Prop) (messages : Table MessageId MessageRecord)
    (state : σ) : Prop :=
  ∃ ledger : Ledger, Represents state ledger ∧ ledger.messages = messages

namespace Buffer

/-- A buffer with a store shows a draft. -/
structure Shows {cap : Nat} (buffer : Buffer κ) (draft : Draft cap) : Prop where
  cap : buffer.cap = cap
  pending : buffer.pending = draft.pending
  label : buffer.label = draft.label
  entries : buffer.manifest.entries = draft.entries
  hashed : buffer.Hashed
  store : buffer.store.isSome

namespace Shows

variable {cap : Nat} {buffer : Buffer κ} {draft : Draft cap}

theorem relabel (shown : buffer.Shows draft) (part : Mime.Part) :
    (buffer.relabel part).Shows (draft.relabel (.ofPart part)) :=
  { shown with label := rfl }

theorem append (shown : buffer.Shows draft) (data : Bytes)
    (fits : draft.pending.length + data.length < cap) :
    (buffer.append data).Shows (draft.append data fits) where
  cap := shown.cap
  pending := congrArg (· ++ data) shown.pending
  label := shown.label
  entries := shown.entries
  hashed := shown.hashed.append data
  store := shown.store

theorem room (shown : buffer.Shows draft) : buffer.room = cap - draft.pending.length := by
  rw [Buffer.room, shown.cap, shown.pending]

theorem descriptor {buffer : Buffer κ} (hashed : buffer.Hashed) :
    buffer.descriptor = Draft.describe buffer.label buffer.pending := by
  rw [Buffer.descriptor, hashed.digest]
  rfl

/-- A buffer that stores its pending chunk shows the draft with one more chunk. -/
theorem flushed {full : Buffer κ} {piece : Bytes} (cap_eq : full.cap = cap)
    (pending : full.pending = piece) (label : full.label = draft.label)
    (entries : full.manifest.entries = draft.entries) (hashed : full.Hashed)
    (store : full.store.isSome) : full.flushed.Shows (draft.store piece) where
  cap := cap_eq
  pending := rfl
  label := label
  entries := by
    change full.manifest.entries ++ [full.descriptor] = _
    rw [entries, descriptor hashed, label, pending]
    rfl
  hashed := hashed_of_empty rfl rfl
  store := store

end Shows

/-- A buffer that starts anew shows a draft without chunks. -/
theorem reset_shows (buffer : Buffer κ) (store : buffer.store.isSome) :
    buffer.reset.Shows (Draft.blank .none buffer.cap_pos) where
  cap := rfl
  pending := rfl
  label := rfl
  entries := rfl
  hashed := hashed_of_empty rfl rfl
  store := store

variable {Represents : σ → Ledger → Prop} {host : Host κ σ}
  {messages : Table MessageId MessageRecord}

/-- An engine that does not fail takes every chunk, and its messages stay. -/
theorem deposit_ok (buffer : Buffer κ) (answers : host.Answers Represents)
    (store : buffer.store.isSome) {state : σ} (keeps : Keeps Represents messages state) :
    ∃ after, buffer.deposit host state = (.ok (), after) ∧ Keeps Represents messages after := by
  rcases keeps with ⟨ledger, represents, rfl⟩
  rcases Option.isSome_iff_exists.mp store with ⟨key, found⟩
  rcases answers key
    (.addChunk (Digest.ofHasher buffer.hasher) buffer.pending) state ledger represents with
      ⟨answered, still⟩
  rcases ledger.addChunk_ok (Digest.ofHasher buffer.hasher) buffer.pending with ⟨known, ok⟩
  have frame := ledger.addChunk_frame (Digest.ofHasher buffer.hasher) buffer.pending
  rw [Ledger.call, ok] at answered
  unfold deposit
  rw [found]
  simp only
  rcases called : host.call key (.addChunk (Digest.ofHasher buffer.hasher) buffer.pending)
    state with ⟨result, after⟩
  rw [called] at answered still
  simp only at answered
  subst answered
  exact ⟨after, rfl, _, still, frame.2⟩

theorem Shows.flush_ok (answers : host.Answers Represents) {cap : Nat} {buffer : Buffer κ}
    {draft : Draft cap} (shown : buffer.Shows draft) {state : σ}
    (keeps : Keeps Represents messages state) :
    ∃ later after, buffer.flush host state = (.ok (), later, after) ∧
      later.Shows draft.flush ∧ Keeps Represents messages after := by
  unfold flush Draft.flush
  by_cases none : buffer.pending = []
  · rw [if_pos none, if_pos (shown.pending.symm.trans none)]
    exact ⟨buffer, state, rfl, shown, keeps⟩
  · rcases buffer.deposit_ok answers shown.store keeps with ⟨after, deposited, still⟩
    rw [if_neg none, if_neg fun empty => none (shown.pending.trans empty), deposited]
    exact ⟨buffer.flushed, after, rfl,
      .flushed shown.cap shown.pending shown.label shown.entries shown.hashed shown.store,
      still⟩

theorem Shows.feed_ok (answers : host.Answers Represents) {cap : Nat} {buffer : Buffer κ}
    {draft : Draft cap} (shown : buffer.Shows draft) (data : Bytes) {state : σ}
    (keeps : Keeps Represents messages state) :
    ∃ later after, buffer.feed host data state = (.ok (), later, after) ∧
      later.Shows (draft.fed data) ∧ Keeps Represents messages after := by
  fun_induction feed buffer host data state generalizing draft with
  | case1 buffer state => exact ⟨buffer, state, rfl, shown, keeps⟩
  | case2 buffer data state some short =>
      have fits : draft.pending.length + data.length < cap := by
        rw [List.length_take, shown.room] at short
        omega
      refine ⟨buffer.append data, state, rfl, ?_, keeps⟩
      rw [draft.fed_of_fits data fits]
      exact shown.append data fits
  | case3 buffer data state some long full fault after =>
      rename_i deposited
      rcases full.deposit_ok answers shown.store keeps with ⟨_, ok, _⟩
      rw [deposited] at ok
      cases ok
  | case4 buffer data state some long full after deposited =>
      rename_i inductionStep
      have room := draft.room
      have length : (data.take buffer.room).length = buffer.room := by
        rw [List.length_take] at long ⊢
        omega
      have fills : draft.pending.length + (data.take buffer.room).length = cap := by
        rw [length, shown.room]
        omega
      rcases full.deposit_ok answers shown.store keeps with ⟨_, ok, still⟩
      rw [deposited] at ok
      cases ok
      have filled : full.flushed.Shows (draft.fed (data.take buffer.room)) := by
        rw [draft.fed_of_fills _ fills]
        exact .flushed shown.cap (congrArg (· ++ data.take buffer.room) shown.pending)
          shown.label shown.entries (shown.hashed.append _) shown.store
      rcases inductionStep filled still with ⟨later, finish, fed, whole, kept⟩
      refine ⟨later, finish, fed, ?_, kept⟩
      rwa [← Draft.fed_append, List.take_append_drop] at whole

theorem Shows.write_ok (answers : host.Answers Represents) {cap : Nat} {buffer : Buffer κ}
    {draft : Draft cap} (shown : buffer.Shows draft) (data : Bytes) {state : σ}
    (keeps : Keeps Represents messages state) :
    ∃ later after, buffer.write host data state = (.ok data.length, later, after) ∧
      later.Shows (draft.fed data) ∧ Keeps Represents messages after := by
  rcases shown.feed_ok answers data keeps with ⟨later, after, fed, still, kept⟩
  refine ⟨later, after, ?_, still, kept⟩
  unfold write
  rw [fed]

end Buffer
end Transit
end MailVault
