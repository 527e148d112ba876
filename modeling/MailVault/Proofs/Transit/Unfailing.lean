import MailVault.Proofs.Store.Dialogue
import MailVault.Proofs.Transit.Sessions

/-!
# Chunking over an engine that does not fail

If an engine takes every chunk, no slice fails to be chunked, whatever the parts are and
whatever the buffer holds.  The engine may answer other calls as it likes; what makes it
take chunks is a property of its state that no call breaks, and along the courses of a
buffer that property stays.
-/

namespace MailVault
namespace Store

variable {κ σ : Type}

/-- An engine that opens every message and takes every chunk, as long as something holds that no
call of it breaks. -/
structure Host.Unfailing (host : Host κ σ) (key : κ) (Sound : σ → Prop) : Prop where
  opens : ∀ (opening : Opening) (state : σ), Sound state →
    ∃ id, (host.call key (.openMessage opening) state).1 = .ok id
  takes : ∀ (digest : Digest) (data : Bytes) (state : σ), Sound state →
    ∃ known, (host.call key (.addChunk digest data) state).1 = .ok known
  keeps : ∀ (request : Request) (state : σ), Sound state →
    Sound (host.call key request.call state).2

/-- An engine that answers as a ledger does not fail in this way. -/
theorem Host.AnswersAt.unfailing {host : Host κ σ} {key : κ} {Represents : σ → Ledger → Prop}
    (answers : host.AnswersAt key Represents) :
    host.Unfailing key fun state => ∃ ledger, Represents state ledger where
  opens opening state sound := by
    rcases sound with ⟨ledger, represents⟩
    exact ⟨_, (answers ⟨.openMessage opening, rfl⟩ state ledger represents).1⟩
  takes digest data state sound := by
    rcases sound with ⟨ledger, represents⟩
    rcases ledger.addChunk_ok digest data with ⟨known, ok⟩
    exact ⟨known, (answers ⟨.addChunk digest data, rfl⟩ state ledger represents).1.trans ok⟩
  keeps request state sound := by
    rcases sound with ⟨ledger, represents⟩
    exact ⟨_, (answers request state ledger represents).2⟩

end Store

namespace Transit

open Store (Fault Host)

variable {κ σ : Type} {host : Host κ σ} {key : κ} {Sound : σ → Prop}
  (unfailing : host.Unfailing key Sound)

include unfailing

theorem Buffer.deposit_unfailing (buffer : Buffer κ) (store : buffer.store = some key) {state : σ}
    (sound : Sound state) :
    (buffer.deposit host state).1 = .ok () ∧ Sound (buffer.deposit host state).2 := by
  rcases unfailing.takes (Digest.ofHasher buffer.hasher) buffer.pending state sound with
    ⟨known, taken⟩
  have still : Sound (host.call key (.addChunk (Digest.ofHasher buffer.hasher) buffer.pending)
      state).2 :=
    unfailing.keeps ⟨.addChunk (Digest.ofHasher buffer.hasher) buffer.pending, rfl⟩ state sound
  unfold deposit
  simp only [store]
  rcases called : host.call key (.addChunk (Digest.ofHasher buffer.hasher) buffer.pending) state
    with ⟨result, after⟩
  rw [called] at taken still
  simp only at taken
  subst taken
  exact ⟨rfl, still⟩

theorem Course.sound {buffer later : Buffer κ} {state now : σ} {taken : Bytes}
    (course : Course host buffer state taken later now) (store : buffer.store = some key)
    (sound : Sound state) : Sound now := by
  have deposited : ∀ {later : Buffer κ} {now after : σ} {taken : Bytes}
      {answer : Except Fault Unit}, Course host buffer state taken later now →
      later.deposit host now = (answer, after) → Sound now → Sound after := by
    intro later now after taken answer before made sound
    have kept := (later.deposit_unfailing unfailing (before.fixed.2.trans store) sound).2
    rwa [made] at kept
  induction course with
  | stay => exact sound
  | append _ _ _ inductionStep => exact inductionStep
  | refused before made inductionStep => exact deposited before made inductionStep
  | stored before _ made inductionStep => exact deposited before made inductionStep
  | relabelled _ _ inductionStep => exact inductionStep

theorem Buffer.flush_unfailing (buffer : Buffer κ) (store : buffer.store = some key) {state : σ}
    (sound : Sound state) : (buffer.flush host state).1 = .ok () := by
  unfold flush
  by_cases none : buffer.pending = []
  · rw [if_pos none]
  · rw [if_neg none]
    have ok := (buffer.deposit_unfailing unfailing store sound).1
    rcases made : buffer.deposit host state with ⟨result, after⟩
    rw [made] at ok
    simp only at ok
    subst ok
    rfl

theorem Buffer.feed_unfailing (buffer : Buffer κ) (store : buffer.store = some key) (data : Bytes)
    {state : σ} (sound : Sound state) : (buffer.feed host data state).1 = .ok () := by
  fun_induction feed buffer host data state with
  | case1 buffer state => rfl
  | case2 buffer data state some short => rfl
  | case3 buffer data state some long full fault after made =>
      have ok := (full.deposit_unfailing unfailing store sound).1
      rw [made] at ok
      cases ok
  | case4 buffer data state some long full after made inductionStep =>
      have kept := (full.deposit_unfailing unfailing store sound).2
      rw [made] at kept
      exact inductionStep store kept

theorem Buffer.write_unfailing (buffer : Buffer κ) (store : buffer.store = some key) (data : Bytes)
    {state : σ} (sound : Sound state) :
    (buffer.write host data state).1 = .ok data.length := by
  have ok := buffer.feed_unfailing unfailing store data sound
  unfold write
  rcases fed : buffer.feed host data state with ⟨result, later, after⟩
  rw [fed] at ok
  simp only at ok
  subst ok
  rfl

namespace Splitter

/-- A splitter and its buffer use one engine, which is sound. -/
structure Served (key : κ) (Sound : σ → Prop) (splitter : Splitter κ) (state : σ) : Prop where
  store : splitter.store = key
  deposits : splitter.buffer.store = some key
  sound : Sound state

theorem Moves.served {taken : Bytes} {before after : Splitter κ} {state now : σ}
    (moves : Moves host taken before state after now) (served : before.Served key Sound state) :
    after.Served key Sound now where
  store := moves.store.trans served.store
  deposits := moves.course.fixed.2.trans served.deposits
  sound := moves.course.sound unfailing served.deposits served.sound

variable {splitter : Splitter κ} {state : σ}

theorem bufferUntil_unfailing (served : splitter.Served key Sound state) (target : Nat)
    (cursor : Cursor) :
    ∃ later, (splitter.bufferUntil host target cursor state).1 = .ok later := by
  have ok := splitter.buffer.write_unfailing unfailing served.deposits (cursor.upTo target)
    served.sound
  unfold bufferUntil
  rcases written : splitter.buffer.write host (cursor.upTo target) state with
    ⟨result, buffer, now⟩
  rw [written] at ok
  simp only at ok
  subst ok
  exact ⟨_, rfl⟩

theorem cutAt_unfailing (served : splitter.Served key Sound state) (part : Mime.Part)
    (boundary : Nat) (cursor : Cursor) :
    ∃ later, (splitter.cutAt host part boundary cursor state).1 = .ok later := by
  unfold cutAt
  by_cases skipped : boundary = 0 ∨ boundary < cursor.position
  · rw [if_pos skipped]
    exact ⟨cursor, rfl⟩
  · rw [if_neg skipped]
    rcases bufferUntil_unfailing unfailing served boundary cursor with ⟨reached, ok⟩
    rcases splitter.bufferUntil_moves host boundary cursor state with ⟨taken, _, moves⟩
    rcases buffered : splitter.bufferUntil host boundary cursor state with ⟨result, later, now⟩
    rw [buffered] at ok moves
    simp only at ok
    subst ok
    have still := moves.served unfailing served
    by_cases short : reached.position ≠ boundary
    · simp only [if_pos short]
      exact ⟨reached, rfl⟩
    · simp only [if_neg short]
      have ok := later.buffer.flush_unfailing unfailing still.deposits still.sound
      rcases flushed : later.buffer.flush host now with ⟨result, buffer, finish⟩
      rw [flushed] at ok
      simp only at ok
      subst ok
      exact ⟨reached, rfl⟩

theorem cutPart_unfailing (served : splitter.Served key Sound state) (part : Mime.Part)
    (cursor : Cursor) : ∃ later, (splitter.cutPart host part cursor state).1 = .ok later := by
  rcases cutAt_unfailing unfailing served part part.start cursor with ⟨reached, ok⟩
  rcases splitter.cutAt_moves host part part.start cursor state with ⟨taken, _, moves⟩
  unfold cutPart
  rcases cut : splitter.cutAt host part part.start cursor state with ⟨result, later, now⟩
  rw [cut] at ok moves
  simp only at ok
  subst ok
  exact cutAt_unfailing unfailing (moves.served unfailing served) part part.bodyStart reached

theorem scan_unfailing (waiting : List Mime.Part) (served : splitter.Served key Sound state)
    (cursor : Cursor) : ∃ later, (scan host waiting splitter cursor state).1 = .ok later := by
  induction waiting generalizing splitter cursor state with
  | nil => exact ⟨cursor, rfl⟩
  | cons part waiting inductionStep =>
      rcases cutPart_unfailing unfailing served part cursor with ⟨reached, ok⟩
      rcases splitter.cutPart_moves host part cursor state with ⟨taken, _, moves⟩
      rw [scan]
      rcases cut : splitter.cutPart host part cursor state with ⟨result, later, now⟩
      rw [cut] at ok moves
      simp only at ok
      subst ok
      have still := moves.served unfailing served
      by_cases spent : reached.rest = []
      · simp only [if_pos spent]
        exact ⟨reached, rfl⟩
      · by_cases last : waiting = []
        · simp only [if_neg spent, if_pos last]
          exact bufferUntil_unfailing unfailing still reached.last reached
        · simp only [if_neg spent, if_neg last]
          exact inductionStep still reached

/-- Whatever the parts of a write are, its bytes are chunked. -/
theorem chunk_unfailing (served : splitter.Served key Sound state) (first : Mime.Part)
    (others : List Mime.Part) (data : Bytes) :
    (splitter.chunk host first others data state).1 = .ok () := by
  have prepared := (splitter.prepare_moves host first state).served unfailing served
  rcases scan_unfailing unfailing
    ((first :: others).drop (min (splitter.prepare first).session.progress others.length))
    prepared ⟨(splitter.prepare first).session.position, data⟩ with ⟨reached, ok⟩
  unfold chunk
  simp only
  rcases scanned : scan host
    ((first :: others).drop (min (splitter.prepare first).session.progress others.length))
    (splitter.prepare first) ⟨(splitter.prepare first).session.position, data⟩ state with
    ⟨result, later, now⟩
  rw [scanned] at ok
  simp only at ok
  subst ok
  rfl

/-- Whatever parts are published, chunking succeeds. -/
theorem chunking_unfailing (served : splitter.Served key Sound state)
    (metadata : Option Metadata) (data : Bytes) :
    (splitter.chunking host metadata data state).1 = .ok () ∧
      (splitter.chunking host metadata data state).2.1.Served key Sound
        (splitter.chunking host metadata data state).2.2 := by
  unfold chunking
  cases publishedParts metadata with
  | nil => exact ⟨rfl, served⟩
  | cons first others =>
      rcases splitter.chunk_moves host first others data state with ⟨taken, _, _, moves⟩
      exact ⟨chunk_unfailing unfailing served first others data, moves.served unfailing served⟩

end Splitter

end Transit
end MailVault
