import MailVault.Proofs.Transit.Writes

/-!
# What a write does to the session

A write is taken in two steps.  It is turned away if no message is open or the envelope
has no metadata, and then nothing happens at all.  Otherwise its slice is chunked by the
published parts, if there are any, and only when this succeeds does the stream move on.

While a slice is chunked the session changes in what the first part shows, before the
first cut, and in the count of bytes, with every cut.  Where the stream is, how many parts
are settled, the phase and the message stay; so they are as before if the store fails in
the middle.
-/

namespace MailVault
namespace Transit

open Store (Fault Host)

variable {κ σ : Type}

namespace Session

/-- Sessions that differ at most in the count. -/
def Recounted (before after : Session) : Prop :=
  after = { before with written := after.written }

namespace Recounted

variable {first second third : Session}

theorem refl (session : Session) : session.Recounted session :=
  rfl

theorem trans (before : first.Recounted second) (after : second.Recounted third) :
    first.Recounted third := by
  rw [Recounted] at before after ⊢
  rw [after, before]

theorem count (session : Session) (written : Nat) :
    session.Recounted { session with written := written } :=
  rfl

theorem settle (recounted : first.Recounted second) (parts : List Mime.Part) (position : Nat) :
    second.settle parts position =
      { first with
        progress := passed first.progress parts position
        written := second.written } := by
  rw [settle_eq]
  rcases second with ⟨_, _, _, _, _, _, _, _, _⟩
  cases recounted
  rfl

end Recounted

/-- The session after the first published part was looked at. -/
def noticed (session : Session) (first : Mime.Part) : Session :=
  { session.capture first with labelled := true }

end Session

namespace Splitter

variable (host : Host κ σ)

theorem bufferUntil_recounted (splitter : Splitter κ) (target : Nat) (cursor : Cursor)
    (state : σ) :
    splitter.session.Recounted (splitter.bufferUntil host target cursor state).2.1.session := by
  unfold bufferUntil
  rcases splitter.buffer.write host (cursor.upTo target) state with ⟨result, buffer, now⟩
  cases result with
  | error fault => exact .count _ _
  | ok bytes => exact .count _ _

theorem cutAt_recounted (splitter : Splitter κ) (part : Mime.Part) (boundary : Nat)
    (cursor : Cursor) (state : σ) :
    splitter.session.Recounted (splitter.cutAt host part boundary cursor state).2.1.session := by
  unfold cutAt
  by_cases skipped : boundary = 0 ∨ boundary < cursor.position
  · rw [if_pos skipped]
    exact .refl _
  · rw [if_neg skipped]
    have recounted := splitter.bufferUntil_recounted host boundary cursor state
    rcases buffered : splitter.bufferUntil host boundary cursor state with ⟨result, later, now⟩
    rw [buffered] at recounted
    cases result with
    | error fault => exact recounted
    | ok reached =>
        by_cases short : reached.position ≠ boundary
        · simp only [if_pos short]
          exact recounted
        · simp only [if_neg short]
          rcases later.buffer.flush host now with ⟨result, buffer, finish⟩
          cases result with
          | error fault => exact recounted
          | ok _ => exact recounted

theorem cutPart_recounted (splitter : Splitter κ) (part : Mime.Part) (cursor : Cursor)
    (state : σ) :
    splitter.session.Recounted (splitter.cutPart host part cursor state).2.1.session := by
  unfold cutPart
  have recounted := splitter.cutAt_recounted host part part.start cursor state
  rcases cut : splitter.cutAt host part part.start cursor state with ⟨result, later, now⟩
  rw [cut] at recounted
  cases result with
  | error fault => exact recounted
  | ok reached =>
      exact recounted.trans (later.cutAt_recounted host part part.bodyStart reached now)

/-- Scanning any parts changes nothing of the session but the count. -/
theorem scan_recounted (waiting : List Mime.Part) (splitter : Splitter κ) (cursor : Cursor)
    (state : σ) :
    splitter.session.Recounted (scan host waiting splitter cursor state).2.1.session := by
  induction waiting generalizing splitter cursor state with
  | nil => exact .refl _
  | cons part waiting inductionStep =>
      rw [scan]
      have recounted := splitter.cutPart_recounted host part cursor state
      rcases cut : splitter.cutPart host part cursor state with ⟨result, later, now⟩
      rw [cut] at recounted
      cases result with
      | error fault => exact recounted
      | ok reached =>
          by_cases spent : reached.rest = []
          · simp only [if_pos spent]
            exact recounted
          · by_cases last : waiting = []
            · simp only [if_neg spent, if_pos last]
              exact recounted.trans (later.bufferUntil_recounted host reached.last reached now)
            · simp only [if_neg spent, if_neg last]
              exact recounted.trans (inductionStep later reached now)

theorem prepare_session (splitter : Splitter κ) (first : Mime.Part) :
    (splitter.prepare first).session = splitter.session.noticed first := by
  unfold prepare Session.noticed
  by_cases labelled : (splitter.session.capture first).labelled = true
  · simp only [if_pos labelled]
    rw [← labelled]
  · simp only [if_neg labelled]

/-- Chunking looks at the first part, counts bytes and, unless the store fails, settles parts. -/
theorem chunk_session (splitter : Splitter κ) (first : Mime.Part) (others : List Mime.Part)
    (data : Bytes) (state : σ) :
    ∃ progress written,
      (splitter.chunk host first others data state).2.1.session =
        { splitter.session.noticed first with progress := progress, written := written } ∧
      ∀ fault, (splitter.chunk host first others data state).1 = .error fault →
        progress = splitter.session.progress := by
  have recounted := scan_recounted host
    ((first :: others).drop (min (splitter.prepare first).session.progress others.length))
    (splitter.prepare first) ⟨(splitter.prepare first).session.position, data⟩ state
  unfold chunk
  simp only
  rcases scanned : scan host
    ((first :: others).drop (min (splitter.prepare first).session.progress others.length))
    (splitter.prepare first) ⟨(splitter.prepare first).session.position, data⟩ state with
    ⟨result, later, now⟩
  rw [scanned, prepare_session] at recounted
  cases result with
  | error fault =>
      exact ⟨splitter.session.progress, later.session.written, recounted, fun _ _ => rfl⟩
  | ok reached =>
      exact ⟨_, later.session.written, recounted.settle (first :: others) reached.position, nofun⟩

/-- Whether a write is about a message: one is open, and its envelope has metadata. -/
def hasContext (splitter : Splitter κ) (metadata : Option Metadata) : Bool :=
  splitter.session.message.isSome && metadata.any fun table => decide (table.size ≠ 0)

theorem publishedParts_of_no_context {splitter : Splitter κ} {metadata : Option Metadata}
    {id : MessageId} (opened : splitter.session.message = some id)
    (none : splitter.hasContext metadata = false) : publishedParts metadata = [] := by
  unfold hasContext at none
  cases metadata with
  | none => rfl
  | some table =>
      have vacant : table.size = 0 := by simpa [opened] using none
      cases published : table.parts? with
      | none => rw [publishedParts, Option.bind_some, published, Option.getD_none]
      | some parts => exact absurd vacant (Metadata.size_ne_zero published)

/-- What chunking makes of a slice.  Without published parts there is nothing to do. -/
def chunking (splitter : Splitter κ) (metadata : Option Metadata) (data : Bytes) (state : σ) :
    Except Fault Unit × Splitter κ × σ :=
  match publishedParts metadata with
  | [] => (.ok (), splitter, state)
  | first :: others => splitter.chunk host first others data state

theorem accept_of_no_context {splitter : Splitter κ} {metadata : Option Metadata}
    (none : splitter.hasContext metadata = false) (data : Bytes) (state : σ) :
    splitter.accept host metadata data state = (.error .missingContext, splitter, state) := by
  unfold accept
  unfold hasContext at none
  cases message : splitter.session.message with
  | none => rfl
  | some id =>
      cases metadata with
      | none => rfl
      | some table =>
          have vacant : table.size = 0 := by simpa [message] using none
          simp only [if_pos vacant]

/-- A write with context is accepted as soon as its slice is chunked. -/
theorem accept_of_context {splitter : Splitter κ} {metadata : Option Metadata}
    (context : splitter.hasContext metadata = true) (data : Bytes) (state : σ) :
    splitter.accept host metadata data state =
      match splitter.chunking host metadata data state with
      | (.error fault, splitter, state) => (.error (.storage fault), splitter, state)
      | (.ok (), splitter, state) => (.ok (), splitter.pass data.length, state) := by
  unfold hasContext at context
  unfold accept chunking
  cases message : splitter.session.message with
  | none => simp [message] at context
  | some id =>
      cases metadata with
      | none => simp at context
      | some table =>
          have some : table.size ≠ 0 := by simpa [message] using context
          simp only [if_neg some, publishedParts, Option.bind_some]
          rcases table.parts? with _ | _ | ⟨first, others⟩ <;> rfl

/-- After a write is chunked, or while it was, the message is the one before, and the stream is
where it was. -/
theorem chunking_session (splitter : Splitter κ) (metadata : Option Metadata) (data : Bytes)
    (state : σ) :
    (splitter.chunking host metadata data state).2.1.session.message = splitter.session.message ∧
      (splitter.chunking host metadata data state).2.1.session.position =
        splitter.session.position ∧
      (splitter.chunking host metadata data state).2.1.session.phase = splitter.session.phase ∧
      ∀ fault, (splitter.chunking host metadata data state).1 = .error fault →
        (splitter.chunking host metadata data state).2.1.session.progress =
          splitter.session.progress := by
  unfold chunking
  cases publishedParts metadata with
  | nil => exact ⟨rfl, rfl, rfl, nofun⟩
  | cons first others =>
      rcases splitter.chunk_session host first others data state with
        ⟨progress, written, session, unsettled⟩
      simp only
      rw [session]
      exact ⟨rfl, rfl, rfl, unsettled⟩

end Splitter
end Transit
end MailVault
