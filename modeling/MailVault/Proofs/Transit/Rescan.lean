import MailVault.Proofs.Transit.Marker
import MailVault.Proofs.Transit.Sessions

/-!
# A message without a marker

The marker of a session saves work and does nothing else.  A splitter that is rewound
before each write scans all parts every time, and in the end it records the same message.

This holds as long as parts are only appended from write to write and keep what is known
of them, whether they are in order or not and whether they become known in time or not.
The store has to answer both splitters; the two of them never see each other's store.
-/

namespace MailVault
namespace Transit

open Store (Host Ledger)

variable {κ σ : Type} {cap : Nat}

/-! ## Parts that evolve -/

/-- The parts that a write with context comes with. -/
def shownBy (metadata : Option Metadata) : Option (List Mime.Part) :=
  metadata.bind fun table =>
    if table.size = 0 then none else some (publishedParts (some table))

theorem exists_of_shownBy {metadata : Option Metadata} {parts : List Mime.Part}
    (shown : shownBy metadata = some parts) :
    ∃ table, metadata = some table ∧ table.size ≠ 0 ∧ table.parts?.getD [] = parts := by
  cases metadata with
  | none => cases shown
  | some table =>
      rw [shownBy, Option.bind_some] at shown
      by_cases vacant : table.size = 0
      · rw [if_pos vacant] at shown
        cases shown
      · rw [if_neg vacant] at shown
        exact ⟨table, rfl, vacant, Option.some.inj shown⟩

/-- The parts that are shown after a write with this metadata. -/
def shownAfter (shown : List Mime.Part) (metadata : Option Metadata) : List Mime.Part :=
  (shownBy metadata).getD shown

/-- From write to write parts are only appended and boundaries of bodies become known, and no body
begins before its part. -/
def Evolving : List Mime.Part → List (Option Metadata × Bytes) → Prop
  | _, [] => True
  | shown, (metadata, _) :: later =>
    (∀ parts, shownBy metadata = some parts →
        Foretells shown parts ∧ ∀ part ∈ parts, Ordered part) ∧
      Evolving (shownAfter shown metadata) later

def shownLast (shown : List Mime.Part) (writes : List (Option Metadata × Bytes)) :
    List Mime.Part :=
  writes.foldl (fun shown write => shownAfter shown write.1) shown

theorem Evolving.split {shown : List Mime.Part} {earlier later : List (Option Metadata × Bytes)}
    (evolving : Evolving shown (earlier ++ later)) :
    Evolving shown earlier ∧ Evolving (shownLast shown earlier) later := by
  induction earlier generalizing shown with
  | nil => exact ⟨trivial, evolving⟩
  | cons write earlier inductionStep =>
      rcases write with ⟨metadata, data⟩
      rcases evolving with ⟨here, after⟩
      rcases inductionStep after with ⟨front, back⟩
      exact ⟨⟨here, front⟩, back⟩

/-! ## Writes with the marker and without -/

namespace Splitter

/-- The splitter with the marker at the first part. -/
def rewound (splitter : Splitter κ) : Splitter κ :=
  { splitter with session := { splitter.session with progress := 0 } }

/-- A splitter that is rewound scans all parts. -/
theorem chunk_rewound (splitter : Splitter κ) (host : Host κ σ) (first : Mime.Part)
    (others : List Mime.Part) (data : Bytes) (state : σ) :
    splitter.rewound.chunk host first others data state =
      match scan host (first :: others) (splitter.rewound.prepare first)
        ⟨splitter.session.position, data⟩ state with
      | (.error fault, splitter, state) => (.error fault, splitter, state)
      | (.ok cursor, splitter, state) =>
        (.ok (), { splitter with
          session := splitter.session.settle (first :: others) cursor.position }, state) := by
  have all : (first :: others).drop
      (min (splitter.rewound.prepare first).session.progress others.length) = first :: others := by
    rw [prepare_session]
    exact congrArg (fun count => (first :: others).drop count) (Nat.zero_min _)
  have position : (splitter.rewound.prepare first).session.position =
      splitter.session.position := by
    rw [prepare_session]
    rfl
  rcases scanned : scan host (first :: others) (splitter.rewound.prepare first)
    ⟨splitter.session.position, data⟩ state with ⟨result, later, now⟩
  cases result with
  | error fault => simp only [chunk, all, position, scanned]
  | ok cursor => simp only [chunk, all, position, scanned]

/-- A splitter and its store after a write, whatever the answer is. -/
def afterWrite (host : Host κ σ) (current : Splitter κ × σ) (write : Option Metadata × Bytes) :
    Splitter κ × σ :=
  (current.1.accept host write.1 write.2 current.2).2

theorem afterWrite_of_none (host : Host κ σ) (current : Splitter κ × σ)
    {metadata : Option Metadata} (unshown : shownBy metadata = none) (data : Bytes) :
    afterWrite host current (metadata, data) = current := by
  have lacking : current.1.hasContext metadata = false := by
    unfold hasContext
    cases metadata with
    | none => exact Bool.and_false _
    | some table =>
        rw [shownBy, Option.bind_some] at unshown
        by_cases vacant : table.size = 0
        · simp [vacant]
        · rw [if_neg vacant] at unshown
          cases unshown
  rw [afterWrite, accept_of_no_context host lacking]

/-- A splitter and its store after a write that scans all parts. -/
def afterRescan (host : Host κ σ) (current : Splitter κ × σ) (write : Option Metadata × Bytes) :
    Splitter κ × σ :=
  afterWrite host (current.1.rewound, current.2) write

end Splitter

/-- The session without its marker and without its count. -/
def Session.aside (session : Session) : Session :=
  { session with progress := 0, written := 0 }

/-- A splitter with a message whose chunks are those of a draft, on a store that does not fail. -/
structure Carries (Represents : σ → Ledger → Prop) (messages : Table MessageId MessageRecord)
    (store : κ) (id : MessageId) (draft : Draft cap) (current : Splitter κ × σ) : Prop where
  store : current.1.store = store
  message : current.1.session.message = some id
  balanced : current.1.Balanced
  keeps : Keeps Represents messages current.2
  shows : current.1.buffer.Shows draft

section Carrying

variable {Represents : σ → Ledger → Prop} {messages : Table MessageId MessageRecord} {store : κ}
  {id : MessageId} {draft : Draft cap} {current : Splitter κ × σ} {host : Host κ σ}

namespace Carries

theorem rewound (carries : Carries Represents messages store id draft current) :
    Carries Represents messages store id draft (current.1.rewound, current.2) :=
  ⟨carries.store, carries.message, carries.balanced, carries.keeps, carries.shows⟩

theorem afterWrite_of_nil (carries : Carries Represents messages store id draft current)
    {metadata : Option Metadata} (silent : shownBy metadata = some []) (data : Bytes) :
    Splitter.afterWrite host current (metadata, data) =
      (current.1.pass data.length, current.2) := by
  rcases exists_of_shownBy silent with ⟨table, rfl, filled, parts⟩
  have context : current.1.hasContext (some table) = true := by
    simp [Splitter.hasContext, carries.message, filled]
  have unpublished : publishedParts (some table) = [] := parts
  rw [Splitter.afterWrite, Splitter.accept_of_context host context, Splitter.chunking,
    unpublished]

/-- A write with parts makes of the draft what scanning from the marker does. -/
theorem afterWrite_of_cons (carries : Carries Represents messages store id draft current)
    (answers : host.Answers Represents) {metadata : Option Metadata} {first : Mime.Part}
    {others : List Mime.Part} (shown : shownBy metadata = some (first :: others))
    (ordered : ∀ part ∈ first :: others, Ordered part) (data : Bytes) :
    Carries Represents messages store id (draft.written current.1.session first others data)
        (Splitter.afterWrite host current (metadata, data)) ∧
      ∃ written, (Splitter.afterWrite host current (metadata, data)).1.session =
        { current.1.session.accepted first others data.length with written := written } := by
  rcases exists_of_shownBy shown with ⟨table, rfl, _, parts⟩
  have published : table.parts? = some (first :: others) := by
    cases found : table.parts? with
    | none =>
        rw [found] at parts
        cases parts
    | some list =>
        rw [found, Option.getD_some] at parts
        rw [parts]
  rcases Splitter.accept_ok answers carries.shows carries.keeps carries.message published
    ordered data with ⟨buffer, written, after, accepted, still, kept⟩
  rcases current.1.accept_moves host (some table) data current.2 with ⟨_, _, moves⟩
  rw [accepted] at moves
  rw [Splitter.afterWrite, accepted]
  exact ⟨⟨carries.store, carries.message, moves.balanced carries.balanced, kept, still⟩,
    written, rfl⟩

end Carries

variable {whole : Splitter κ × σ} {shown : List Mime.Part}

/-- A splitter that goes on from its marker, and one that scans all parts: on stores of their own
they have the same message, and their drafts are abreast. -/
structure Twins (Represents : σ → Ledger → Prop) (messages : Table MessageId MessageRecord)
    (store : κ) (id : MessageId) (cap : Nat) (shown : List Mime.Part)
    (whole current : Splitter κ × σ) : Prop where
  session : whole.1.session.aside = current.1.session.aside
  unlabelled : current.1.session.labelled = false → shown = []
  marker : Marker shown current.1.session.progress current.1.session.position
  drafts : ∃ draft marked : Draft cap,
    Carries Represents messages store id draft whole ∧
      Carries Represents messages store id marked current ∧
      Abreast shown current.1.session.progress current.1.session.position draft marked

/-- Before the first write both splitters are the same one. -/
theorem Carries.twins (carries : Carries Represents messages store id draft current)
    (outset : current.1.session.progress = 0) :
    Twins Represents messages store id cap [] current current where
  session := rfl
  unlabelled _ := rfl
  marker := by
    rw [outset]
    exact .zero _ _
  drafts := ⟨draft, draft, carries, carries, .same⟩

namespace Twins

theorem rewound (twins : Twins Represents messages store id cap shown whole current) :
    Twins Represents messages store id cap shown (whole.1.rewound, whole.2) current where
  session := twins.session
  unlabelled := twins.unlabelled
  marker := twins.marker
  drafts := by
    rcases twins.drafts with ⟨draft, marked, carries, others⟩
    exact ⟨draft, marked, carries.rewound, others⟩

/-- Before any part is known, both splitters let the bytes pass. -/
theorem pass (twins : Twins Represents messages store id cap [] whole current) (bytes : Nat) :
    Twins Represents messages store id cap [] (whole.1.pass bytes, whole.2)
      (current.1.pass bytes, current.2) where
  session := congrArg
    (fun session => { session with position := session.position + bytes, phase := .streaming })
    twins.session
  unlabelled _ := rfl
  marker := by
    have outset : current.1.session.progress = 0 := Nat.le_zero.mp twins.marker.within
    change Marker [] current.1.session.progress _
    rw [outset]
    exact .zero _ _
  drafts := by
    rcases twins.drafts with ⟨draft, marked, carries, carriesMarked, abreast⟩
    rw [abreast.eq_of_nil] at carriesMarked
    exact ⟨draft, draft, { carries with }, { carriesMarked with }, .same⟩

/-- A write with parts, after which the drafts are abreast again. -/
theorem chunk (twins : Twins Represents messages store id cap shown whole current)
    (begins : whole.1.session.progress = 0) (answers : host.Answers Represents)
    {metadata : Option Metadata} {first : Mime.Part} {others : List Mime.Part}
    (published : shownBy metadata = some (first :: others))
    (foretold : Foretells shown (first :: others))
    (ordered : ∀ part ∈ first :: others, Ordered part) (data : Bytes) :
    Twins Represents messages store id cap (first :: others)
        (Splitter.afterWrite host whole (metadata, data))
        (Splitter.afterWrite host current (metadata, data)) ∧
      current.1.session.progress ≤
        (Splitter.afterWrite host current (metadata, data)).1.session.progress := by
  rcases twins.drafts with ⟨draft, marked, carries, carriesMarked, abreast⟩
  rcases carries.afterWrite_of_cons answers published ordered data with ⟨still, count, session⟩
  rcases carriesMarked.afterWrite_of_cons answers published ordered data with
    ⟨stillMarked, countMarked, sessionMarked⟩
  have labels : whole.1.session.aside.labelled = current.1.session.aside.labelled :=
    congrArg Session.labelled twins.session
  have position : whole.1.session.aside.position = current.1.session.aside.position :=
    congrArg Session.position twins.session
  simp only [Session.aside] at labels position
  have marker := twins.marker.foretold foretold
  have prepared := abreast.prepared foretold twins.unlabelled (.ofPart first)
  have few : min current.1.session.progress others.length = current.1.session.progress := by
    have within := marker.within
    simp only [List.length_cons] at within
    omega
  have scanned := prepared.scan (List.cons_ne_nil _ _) marker ordered data
  rw [Draft.written, begins, Nat.zero_min, List.drop_zero, labels, position] at still
  rw [Draft.written, few] at stillMarked
  rw [sessionMarked]
  refine ⟨⟨?_, ?_, ?_, _, _, still, stillMarked, ?_⟩, ?_⟩
  · rw [session, sessionMarked]
    exact congrArg (fun session => (Session.accepted session first others data.length).aside)
      twins.session
  · rw [sessionMarked]
    exact fun unlabelled => Bool.noConfusion unlabelled
  · rw [sessionMarked]
    exact marker.passed (Nat.le_add_right _ _)
  · rw [sessionMarked]
    exact scanned
  · exact (Session.passed_within marker.within _).1

/-- The two splitters stay side by side at each write, and the marker does not go back. -/
theorem write (twins : Twins Represents messages store id cap shown whole current)
    (answers : host.Answers Represents) {metadata : Option Metadata}
    (evolves : ∀ parts, shownBy metadata = some parts →
      Foretells shown parts ∧ ∀ part ∈ parts, Ordered part) (data : Bytes) :
    Twins Represents messages store id cap (shownAfter shown metadata)
        (Splitter.afterRescan host whole (metadata, data))
        (Splitter.afterWrite host current (metadata, data)) ∧
      current.1.session.progress ≤
        (Splitter.afterWrite host current (metadata, data)).1.session.progress := by
  have rewound := twins.rewound
  unfold shownAfter Splitter.afterRescan
  cases published : shownBy metadata with
  | none =>
      rw [Splitter.afterWrite_of_none host _ published, Splitter.afterWrite_of_none host _ published]
      exact ⟨rewound, Nat.le_refl _⟩
  | some parts =>
      rcases evolves parts published with ⟨foretold, ordered⟩
      rw [Option.getD_some]
      cases parts with
      | nil =>
          have none : shown = [] := List.eq_nil_of_length_eq_zero (Nat.le_zero.mp foretold.length_le)
          subst none
          rcases rewound.drafts with ⟨_, _, carries, carriesMarked, _⟩
          rw [carries.afterWrite_of_nil published, carriesMarked.afterWrite_of_nil published]
          exact ⟨rewound.pass data.length, Nat.le_refl _⟩
      | cons first others => exact rewound.chunk rfl answers published foretold ordered data

theorem run (twins : Twins Represents messages store id cap shown whole current)
    (answers : host.Answers Represents) {writes : List (Option Metadata × Bytes)}
    (evolving : Evolving shown writes) :
    Twins Represents messages store id cap (shownLast shown writes)
      (writes.foldl (Splitter.afterRescan host) whole)
      (writes.foldl (Splitter.afterWrite host) current) := by
  induction writes generalizing shown whole current with
  | nil => exact twins
  | cons write later inductionStep =>
      rcases write with ⟨metadata, data⟩
      rcases evolving with ⟨evolves, others⟩
      exact inductionStep (twins.write answers evolves data).1 others

end Twins

/-! ## The record -/

/-- Closing the message leaves a record of it. -/
def Closes (host : Host κ σ) (queueId : String) (id : MessageId) (record : MessageRecord)
    (current : Splitter κ × σ) : Prop :=
  ∃ later after, current.1.closeMessage host queueId current.2 = (.ok (), later, after) ∧
    (host.call current.1.store (.getMessage id) after).1 = .ok record

theorem Carries.closes (carries : Carries Represents messages store id draft current)
    (answers : host.Answers Represents) {record : MessageRecord}
    (found : messages.find? id = some record) (queueId : String) :
    Closes host queueId id
      (record.close (Manifest.mk draft.flush.entries).totalSize ⟨draft.flush.entries⟩
        (current.1.session.summary queueId)) current := by
  rcases Splitter.closeMessage_ok answers carries.shows carries.keeps carries.balanced
    carries.message found queueId with ⟨later, after, manifest, closed, read, entries⟩
  cases manifest with
  | mk list =>
      subst entries
      exact ⟨later, after, closed, read⟩

/-- Drafts that are abreast have the same chunks in the end. -/
theorem Abreast.entries_flush {progress base : Nat} {marked : Draft cap}
    (abreast : Abreast shown progress base draft marked) :
    marked.flush.entries = draft.flush.entries := by
  cases abreast with
  | same => rfl
  | cut _ _ label => exact draft.entries_flush_cut label

theorem Twins.closes (twins : Twins Represents messages store id cap shown whole current)
    (answers : host.Answers Represents) {record : MessageRecord}
    (found : messages.find? id = some record) (queueId : String) :
    ∃ manifest summary,
      Closes host queueId id (record.close manifest.totalSize manifest summary) whole ∧
      Closes host queueId id (record.close manifest.totalSize manifest summary) current := by
  rcases twins.drafts with ⟨draft, marked, carries, carriesMarked, abreast⟩
  have summary : whole.1.session.aside.summary queueId = current.1.session.aside.summary queueId :=
    congrArg (Session.summary · queueId) twins.session
  refine ⟨⟨draft.flush.entries⟩, whole.1.session.summary queueId, ?_, ?_⟩
  · exact carries.closes answers found queueId
  · have closes := carriesMarked.closes answers found queueId
    rw [abreast.entries_flush] at closes
    have same : whole.1.session.summary queueId = current.1.session.summary queueId := summary
    rw [same]
    exact closes

end Carrying

/-- A message is recorded as if every write scanned all parts.  The marker never goes back, and it
never comes to the last two of the parts that are shown. -/
theorem marker_only_saves_work {Represents : σ → Ledger → Prop} {host : Host κ σ}
    (answers : host.Answers Represents) {state : σ} {ledger : Ledger}
    (represents : Represents state ledger) (splitter : Splitter κ)
    (stored : splitter.buffer.store.isSome) (opening : Opening) (queueId : String)
    {writes : List (Option Metadata × Bytes)} (evolving : Evolving [] writes) :
    ∃ id opened now, splitter.openMessage host opening state = (.ok id, opened, now) ∧
      (∃ manifest summary,
        Closes host queueId id
            ((MessageRecord.opened id opening).close manifest.totalSize manifest summary)
            (writes.foldl (Splitter.afterWrite host) (opened, now)) ∧
          Closes host queueId id
            ((MessageRecord.opened id opening).close manifest.totalSize manifest summary)
            (writes.foldl (Splitter.afterRescan host) (opened, now))) ∧
      ∀ earlier write later, writes = earlier ++ write :: later →
        let before := earlier.foldl (Splitter.afterWrite host) (opened, now)
        let after := Splitter.afterWrite host before write
        before.1.session.progress ≤ after.1.session.progress ∧
          after.1.session.progress ≤ (shownLast [] (earlier ++ [write])).length - 2 := by
  rcases Splitter.openMessage_ok answers represents splitter opening with ⟨now, opens, kept⟩
  have carries : Carries Represents _ splitter.store ⟨ledger.last + 1⟩
      (Draft.blank .none splitter.buffer.cap_pos)
      ({ splitter with
        buffer := splitter.buffer.reset
        session := .opened ⟨ledger.last + 1⟩ }, now) :=
    ⟨rfl, rfl, rfl, kept, splitter.buffer.reset_shows stored⟩
  have twins := carries.twins rfl
  refine ⟨_, _, now, opens, ?_, ?_⟩
  · have found : (ledger.messages.insert ⟨ledger.last + 1⟩
        (.opened ⟨ledger.last + 1⟩ opening)).find? ⟨ledger.last + 1⟩ =
        some (.opened ⟨ledger.last + 1⟩ opening) := by
      rw [Table.find?_insert, if_pos rfl]
    rcases (twins.run answers evolving).closes answers found queueId with
      ⟨manifest, summary, whole, current⟩
    exact ⟨manifest, summary, current, whole⟩
  · intro earlier write later split
    subst split
    rcases write with ⟨metadata, data⟩
    rcases evolving.split with ⟨front, evolves, _⟩
    rcases (twins.run answers front).write answers evolves data with ⟨step, further⟩
    refine ⟨further, ?_⟩
    rw [shownLast, List.foldl_append]
    exact step.marker.within

/-- Four parts that are out of order.  When the first one is settled, an empty write comes just
where the second one starts, and where its body begins becomes known only after that. -/
theorem marker_only_saves_work_late :
    let whole : Mime.Part := { node := "1", bodyStart := 1 }
    let inner : Mime.Part := { node := "1.1", start := 2 }
    let others : List Mime.Part :=
      [{ node := "1.3", start := 7 }, { node := "1.2", start := 1, bodyStart := 2 }]
    let publish : List Mime.Part → Option Metadata := fun parts =>
      some (Table.empty.insert Metadata.partsKey (.parts parts))
    let writes : List (Option Metadata × Bytes) :=
      [(publish [{ whole with bodyStart := 0 }], [1, 2]), (publish (whole :: inner :: others), []),
        (publish (whole :: inner :: others), []),
        (publish (whole :: { inner with bodyStart := 5 } :: others), [3, 4, 5, 6, 7, 8])]
    let splitter : Splitter Unit := .new () 3
    let host : Host Unit Store.Volatile := .of Store.Volatile.call
    ∃ id opened now, splitter.openMessage host {} (.new 6) = (.ok id, opened, now) ∧
      (∃ manifest summary,
        Closes host "q" id ((MessageRecord.opened id {}).close manifest.totalSize manifest summary)
            (writes.foldl (Splitter.afterWrite host) (opened, now)) ∧
          Closes host "q" id
            ((MessageRecord.opened id {}).close manifest.totalSize manifest summary)
            (writes.foldl (Splitter.afterRescan host) (opened, now))) ∧
      ∀ earlier write later, writes = earlier ++ write :: later →
        let before := earlier.foldl (Splitter.afterWrite host) (opened, now)
        let after := Splitter.afterWrite host before write
        before.1.session.progress ≤ after.1.session.progress ∧
          after.1.session.progress ≤ (shownLast [] (earlier ++ [write])).length - 2 := by
  intro whole inner others publish writes splitter host
  have step : ∀ (before : List Mime.Part) {parts : List Mime.Part}, Foretells before parts →
      (∀ part ∈ parts, Ordered part) → ∀ list, shownBy (publish parts) = some list →
        Foretells before list ∧ ∀ part ∈ list, Ordered part := by
    intro before parts foretold ordered list same
    cases same
    exact ⟨foretold, ordered⟩
  have same : List.Forall₂ Partial others others :=
    .cons (.refl _) (.cons (.refl _) .nil)
  have evolving : Evolving [] writes := by
    refine ⟨step [] ?_ (by decide), step [_] ?_ (by decide), step (_ :: _ :: _) ?_ (by decide),
      step (_ :: _ :: _) ?_ (by decide), trivial⟩
    · exact ⟨[], _, rfl, .nil⟩
    · exact ⟨[whole], inner :: others, rfl, .cons ⟨rfl, rfl, Or.inr rfl⟩ .nil⟩
    · exact ⟨_, [], (List.append_nil _).symm, .cons (.refl _) (.cons (.refl _) same)⟩
    · exact ⟨_, [], (List.append_nil _).symm,
        .cons (.refl _) (.cons ⟨rfl, rfl, Or.inr rfl⟩ same)⟩
  exact marker_only_saves_work Store.Volatile.answers (Store.Volatile.represents_new 6) splitter rfl
    {} "q" evolving

end Transit
end MailVault
