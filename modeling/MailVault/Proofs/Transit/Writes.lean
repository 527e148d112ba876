import MailVault.Proofs.Transit.Cuts

/-!
# Writes to an engine that does not fail

On an engine that answers as the ledger does, every call of a splitter succeeds until
its message is closed.  The buffer then shows the draft of the place where the scan
of each write ends, and the session keeps everything that the scans do not concern.
-/

namespace MailVault

theorem Metadata.size_ne_zero {metadata : Metadata} {parts : List Mime.Part}
    (published : metadata.parts? = some parts) : metadata.size ≠ 0 := by
  intro none
  have empty : metadata.entries = [] := List.length_eq_zero_iff.mp none
  rw [Metadata.parts?, Table.find?, empty] at published
  cases published

namespace Transit

open Store (Host Ledger)

variable {κ σ : Type} {cap : Nat}

/-- Visit a boundary of a part, if it is known. -/
def Place.visitAt (place : Place cap) (part : Mime.Part) (boundary : Nat) : Place cap :=
  if boundary = 0 then place else place.visit ⟨boundary, .ofPart part⟩

theorem Place.visits_marksOf (place : Place cap) (part : Mime.Part) :
    (marksOf part).foldl visit place =
      (place.visitAt part part.start).visitAt part part.bodyStart := by
  unfold marksOf visitAt
  by_cases first : part.start = 0
  · by_cases second : part.bodyStart = 0
    · simp [first, second]
    · simp [first, second]
  · by_cases second : part.bodyStart = 0
    · simp [first, second]
    · simp [first, second]

namespace Splitter

/-- The splitter with another buffer and another count. -/
def holding (splitter : Splitter κ) (buffer : Buffer κ) (written : Nat) : Splitter κ :=
  { splitter with buffer := buffer, session := { splitter.session with written := written } }

/-- What a scan leaves: the cursor and the draft of a place, and the engine as it was. -/
def Leaves (Represents : σ → Ledger → Prop) (messages : Table MessageId MessageRecord)
    (splitter : Splitter κ) (place : Place cap)
    (outcome : Except Store.Fault Cursor × Splitter κ × σ) : Prop :=
  ∃ buffer written, outcome.1 = .ok place.cursor ∧
    outcome.2.1 = splitter.holding buffer written ∧ buffer.Shows place.draft ∧
    Keeps Represents messages outcome.2.2

variable {Represents : σ → Ledger → Prop} {host : Host κ σ}
  {messages : Table MessageId MessageRecord} {splitter : Splitter κ} {place : Place cap}
  {state : σ}

theorem bufferUntil_leaves (answers : host.Answers Represents)
    (shown : splitter.buffer.Shows place.draft) (target : Nat)
    (keeps : Keeps Represents messages state) :
    Leaves Represents messages splitter (place.reach target)
      (splitter.bufferUntil host target place.cursor state) := by
  rcases shown.write_ok answers (place.cursor.upTo target) keeps with
    ⟨buffer, after, written, still, kept⟩
  unfold bufferUntil
  rw [written]
  exact ⟨buffer, _, rfl, rfl, still, kept⟩

theorem cutAt_leaves (answers : host.Answers Represents)
    (shown : splitter.buffer.Shows place.draft) (part : Mime.Part) (boundary : Nat)
    (keeps : Keeps Represents messages state) :
    Leaves Represents messages splitter (place.visitAt part boundary)
      (splitter.cutAt host part boundary place.cursor state) := by
  unfold cutAt Place.visitAt Place.visit
  by_cases unknown : boundary = 0
  · rw [if_pos (Or.inl unknown), if_pos unknown]
    exact ⟨splitter.buffer, splitter.session.written, rfl, rfl, shown, keeps⟩
  · by_cases passed : boundary < place.cursor.position
    · rw [if_pos (Or.inr passed), if_neg unknown, if_pos passed]
      exact ⟨splitter.buffer, splitter.session.written, rfl, rfl, shown, keeps⟩
    · rw [if_neg (not_or.mpr ⟨unknown, passed⟩), if_neg unknown, if_neg passed]
      rcases bufferUntil_leaves answers shown boundary keeps with
        ⟨buffer, written, ok, same, still, kept⟩
      rcases buffered : splitter.bufferUntil host boundary place.cursor state with
        ⟨result, later, after⟩
      rw [buffered] at ok same kept
      simp only at ok same
      subst ok same
      simp only
      by_cases short : (place.reach boundary).cursor.position ≠ boundary
      · rw [if_pos short, if_pos short]
        exact ⟨buffer, written, rfl, rfl, still, kept⟩
      · rw [if_neg short, if_neg short]
        rcases still.flush_ok answers kept with ⟨cut, finish, flushed, settled, done⟩
        have flush : (splitter.holding buffer written).buffer.flush host after =
            (.ok (), cut, finish) := flushed
        rw [flush]
        exact ⟨cut.relabel part, written, rfl, rfl, settled.relabel part, done⟩

theorem cutPart_leaves (answers : host.Answers Represents)
    (shown : splitter.buffer.Shows place.draft) (part : Mime.Part)
    (keeps : Keeps Represents messages state) :
    Leaves Represents messages splitter ((marksOf part).foldl Place.visit place)
      (splitter.cutPart host part place.cursor state) := by
  rcases cutAt_leaves answers shown part part.start keeps with
    ⟨buffer, written, ok, same, still, kept⟩
  rw [Place.visits_marksOf]
  unfold cutPart
  rcases cut : splitter.cutAt host part part.start place.cursor state with ⟨result, later, after⟩
  rw [cut] at ok same kept
  simp only at ok same
  subst ok same
  have shows : (splitter.holding buffer written).buffer.Shows
      (place.visitAt part part.start).draft := still
  have leaves := cutAt_leaves answers shows part part.bodyStart kept
  exact leaves

theorem scan_leaves (answers : host.Answers Represents) (waiting : List Mime.Part)
    (shown : splitter.buffer.Shows place.draft) (keeps : Keeps Represents messages state) :
    Leaves Represents messages splitter (place.scan waiting)
      (scan host waiting splitter place.cursor state) := by
  induction waiting generalizing splitter place state with
  | nil => exact ⟨splitter.buffer, splitter.session.written, rfl, rfl, shown, keeps⟩
  | cons part later inductionStep =>
      rcases cutPart_leaves answers shown part keeps with ⟨buffer, written, ok, same, still, kept⟩
      rw [scan, Place.scan]
      generalize (marksOf part).foldl Place.visit place = reached at ok still
      rcases cut : splitter.cutPart host part place.cursor state with ⟨result, next, after⟩
      rw [cut] at ok same kept
      simp only at ok same
      subst ok same
      have shows : (splitter.holding buffer written).buffer.Shows reached.draft := still
      simp only
      by_cases spent : reached.cursor.rest = []
      · rw [if_pos spent, if_pos spent]
        exact ⟨buffer, written, rfl, rfl, still, kept⟩
      · rw [if_neg spent, if_neg spent]
        by_cases final : later = []
        · rw [if_pos final, if_pos final]
          have leaves := bufferUntil_leaves answers shows reached.cursor.last kept
          exact leaves
        · rw [if_neg final, if_neg final]
          have leaves := inductionStep shows kept
          exact leaves

end Splitter

namespace Session

/-- The number of parts that need not be looked at again. -/
def passed (progress : Nat) (parts : List Mime.Part) (position : Nat) : Nat :=
  (settle { progress := progress } parts position).progress

theorem settle_eq (session : Session) (parts : List Mime.Part) (position : Nat) :
    session.settle parts position =
      { session with progress := passed session.progress parts position } := by
  unfold passed settle
  split <;> rfl

end Session

/-- The draft with the label of the first part, unless a part has labelled it before. -/
def Draft.prepared (draft : Draft cap) (labelled : Bool) (label : Label) : Draft cap :=
  if labelled then draft else draft.relabel label

/-- What a write makes of a draft. -/
def Draft.written (draft : Draft cap) (session : Session) (first : Mime.Part)
    (others : List Mime.Part) (data : Bytes) : Draft cap :=
  (Place.scan ((first :: others).drop (min session.progress others.length))
    ⟨draft.prepared session.labelled (.ofPart first), ⟨session.position, data⟩⟩).draft

/-- The session after a write, but for the count. -/
def Session.accepted (session : Session) (first : Mime.Part) (others : List Mime.Part)
    (bytes : Nat) : Session :=
  { session.capture first with
    labelled := true
    progress := passed session.progress (first :: others) (session.position + bytes)
    position := session.position + bytes
    phase := .streaming }

namespace Splitter

variable {Represents : σ → Ledger → Prop} {host : Host κ σ}
  {messages : Table MessageId MessageRecord} {splitter : Splitter κ} {draft : Draft cap}
  {state : σ}

theorem prepare_shows (shown : splitter.buffer.Shows draft) (first : Mime.Part) :
    ∃ buffer, splitter.prepare first =
        { splitter with
          buffer := buffer
          session := { splitter.session.capture first with labelled := true } } ∧
      buffer.Shows (draft.prepared splitter.session.labelled (.ofPart first)) := by
  unfold prepare Draft.prepared
  by_cases labelled : splitter.session.labelled = true
  · have same : (splitter.session.capture first).labelled = true := labelled
    simp only [if_pos same, if_pos labelled]
    refine ⟨splitter.buffer, ?_, shown⟩
    congr 1
    rw [← same]
  · have same : ¬ (splitter.session.capture first).labelled = true := labelled
    simp only [if_neg same, if_neg labelled]
    exact ⟨splitter.buffer.relabel first, rfl, shown.relabel first⟩

/-- Chunking succeeds, and the buffer shows what the write makes of the draft. -/
theorem chunk_ok (answers : host.Answers Represents) (shown : splitter.buffer.Shows draft)
    (keeps : Keeps Represents messages state) (first : Mime.Part) (others : List Mime.Part)
    (ordered : ∀ part ∈ first :: others, Ordered part) (data : Bytes) :
    ∃ buffer written after,
      splitter.chunk host first others data state =
        (.ok (), { splitter with
          buffer := buffer
          session :=
            { splitter.session.capture first with
              labelled := true
              progress := Session.passed splitter.session.progress (first :: others)
                (splitter.session.position + data.length)
              written := written } }, after) ∧
      buffer.Shows (draft.written splitter.session first others data) ∧
      Keeps Represents messages after := by
  rcases prepare_shows shown first with ⟨start, prepared, ready⟩
  let waiting := (first :: others).drop (min splitter.session.progress others.length)
  let place : Place cap := ⟨draft.prepared splitter.session.labelled (.ofPart first),
    ⟨splitter.session.position, data⟩⟩
  have leaves : Leaves Represents messages (splitter.prepare first) (place.scan waiting)
      (scan host ((first :: others).drop
          (min (splitter.prepare first).session.progress others.length))
        (splitter.prepare first) ⟨(splitter.prepare first).session.position, data⟩ state) := by
    have begun : Buffer.Shows start place.draft := ready
    rw [prepared]
    exact scan_leaves answers waiting begun keeps
  rcases Place.scan_eq waiting (waiting_ne_nil first others _)
    (fun part member => ordered part (List.mem_of_mem_drop member)) place rfl rfl with
      ⟨extras, _, scanned⟩
  have reached : (place.scan waiting).cursor.position =
      splitter.session.position + data.length := by
    rw [scanned, Place.position_finish, Place.last_through]
    rfl
  rcases leaves with ⟨buffer, written, ok, same, still, kept⟩
  unfold chunk
  simp only
  rcases run : scan host ((first :: others).drop
      (min (splitter.prepare first).session.progress others.length))
    (splitter.prepare first) ⟨(splitter.prepare first).session.position, data⟩ state with
    ⟨result, later, after⟩
  rw [run] at ok same kept
  simp only at ok same
  subst ok same
  refine ⟨buffer, written, after, ?_, still, kept⟩
  simp only [Session.settle_eq, reached, holding, prepared]
  rfl

/-- A write with published parts is accepted, and the buffer shows what it makes of the draft. -/
theorem accept_ok (answers : host.Answers Represents) (shown : splitter.buffer.Shows draft)
    (keeps : Keeps Represents messages state) {id : MessageId}
    (message : splitter.session.message = some id) {metadata : Metadata} {first : Mime.Part}
    {others : List Mime.Part} (published : metadata.parts? = some (first :: others))
    (ordered : ∀ part ∈ first :: others, Ordered part) (data : Bytes) :
    ∃ buffer written after,
      splitter.accept host (some metadata) data state =
        (.ok (), { splitter with
          buffer := buffer
          session :=
            { splitter.session.accepted first others data.length with written := written } },
          after) ∧
      buffer.Shows (draft.written splitter.session first others data) ∧
      Keeps Represents messages after := by
  have size := Metadata.size_ne_zero published
  rcases chunk_ok answers shown keeps first others ordered data with
    ⟨buffer, written, after, chunked, still, kept⟩
  refine ⟨buffer, written, after, ?_, still, kept⟩
  unfold accept
  simp only [message, if_neg size, published, chunked]
  rfl

/-- Opening makes a new record and starts the buffer anew. -/
theorem openMessage_ok (answers : host.Answers Represents) {ledger : Ledger}
    (represents : Represents state ledger) (splitter : Splitter κ) (opening : Opening) :
    ∃ after,
      splitter.openMessage host opening state =
        (.ok ⟨ledger.last + 1⟩, { splitter with
          buffer := splitter.buffer.reset
          session := .opened ⟨ledger.last + 1⟩ }, after) ∧
      Keeps Represents (ledger.messages.insert ⟨ledger.last + 1⟩
        (.opened ⟨ledger.last + 1⟩ opening)) after := by
  rcases answers splitter.store (.openMessage opening) state ledger represents with
    ⟨answered, still⟩
  refine ⟨(host.call splitter.store (.openMessage opening) state).2, ?_, _, still, rfl⟩
  rw [openMessage_eq, answered]
  rfl

/-- A message is recorded with the chunks of its draft, and with the number of their bytes. -/
theorem closeMessage_ok (answers : host.Answers Represents)
    (shown : splitter.buffer.Shows draft) (keeps : Keeps Represents messages state)
    (balanced : splitter.Balanced) {id : MessageId}
    (message : splitter.session.message = some id) {record : MessageRecord}
    (found : messages.find? id = some record) (queueId : String) :
    ∃ later after manifest, splitter.closeMessage host queueId state = (.ok (), later, after) ∧
      (host.call splitter.store (.getMessage id) after).1 =
        .ok (record.close manifest.totalSize manifest (splitter.session.summary queueId)) ∧
      manifest.entries = draft.flush.entries := by
  rcases shown.flush_ok answers keeps with ⟨buffer, now, flushed, still, ledger, represents, same⟩
  have course := splitter.buffer.flush_course host state
  rw [flushed] at course
  have total : splitter.session.written = buffer.manifest.totalSize := by
    have none : buffer.pending = [] := still.pending.trans draft.pending_flush
    have grown : buffer.taken = splitter.buffer.taken := course.taken_eq
    rw [Buffer.taken, none] at grown
    exact balanced.trans grown.symm
  rcases answers splitter.store
    (.closeMessage id splitter.session.written buffer.manifest (splitter.session.summary queueId))
    now ledger represents with ⟨answered, closed⟩
  rw [Ledger.call, Ledger.closeMessage, Store.checkTotal, if_pos total, same,
    found] at answered closed
  simp only at answered closed
  rcases answers splitter.store (.getMessage id) _ _ closed with ⟨read, _⟩
  rw [Ledger.call, Ledger.getMessage, Table.find?_insert, if_pos rfl] at read
  rcases call : host.call splitter.store (.closeMessage id splitter.session.written buffer.manifest
    (splitter.session.summary queueId)) now with ⟨result, after⟩
  rw [call] at answered read
  simp only at answered
  subst answered
  refine ⟨{ splitter with
      buffer := buffer.reset
      session := { Session.idle with phase := .closed } }, after, buffer.manifest, ?_, ?_,
    still.entries⟩
  · unfold closeMessage
    rw [flushed]
    simp only [Buffer.takeManifest, message, call]
  · rw [read, total]

end Splitter
end Transit
end MailVault
