import MailVault.Proofs.Transit.Stream

/-!
# How a message is split into writes does not matter

When the published parts stay the same for a whole message, what is recorded of it
depends on its bytes alone: the parts fit to themselves at every write, so the chunks
are those of the message as a whole, and the headers that are captured are those of
the first part, however often it is looked at.
-/

namespace MailVault
namespace Transit

open Store (Host Ledger)

variable {κ σ : Type}

theorem fits_self {parts : List Mime.Part} (nonempty : parts ≠ []) (base last : Nat) :
    Fits parts base last parts where
  nonempty := nonempty
  known := by
    refine ⟨parts, [], (List.append_nil parts).symm, ?_⟩
    rw [List.forall₂_same]
    exact fun part _ => .refl part
  cuts := by
    rw [climb_of_le (Nat.zero_le base), List.filter_filter]
    apply List.filter_congr
    intro mark _
    rw [← Bool.decide_and, decide_eq_decide]
    omega
  atEnd := by
    intro mark member here
    rw [climb_of_le (Nat.zero_le base)] at member
    exact ⟨mark, (List.mem_filter.mp member).1, here⟩

theorem allFit_self {parts : List Mime.Part} (nonempty : parts ≠ [])
    {writes : List (Metadata × Bytes)}
    (published : ∀ write ∈ writes, write.1.parts? = some parts) (base : Nat) :
    AtEach (Fits parts) base writes := by
  induction writes generalizing base with
  | nil => trivial
  | cons write later inductionStep =>
      rcases write with ⟨metadata, data⟩
      refine ⟨⟨parts, published _ List.mem_cons_self, fits_self nonempty _ _⟩, ?_⟩
      exact inductionStep (fun other member => published other (List.mem_cons_of_mem _ member)) _

/-- Capturing from the same part again changes nothing. -/
theorem captured_captured (summary : Summary) (first : Mime.Part) :
    captured (captured summary first) first = captured summary first := by
  have subject : ∀ value, Session.captureSubject (Session.captureSubject value first) first =
      Session.captureSubject value first := by
    intro value
    unfold Session.captureSubject
    by_cases missing : value.isEmpty
    · rw [if_pos missing]
      cases first.header? "Subject" with
      | none => simp
      | some found => simp
    · rw [if_neg missing, if_neg missing]
  have address : ∀ name value,
      Session.captureAddress (Session.captureAddress value first name) first name =
        Session.captureAddress value first name := by
    intro name value
    unfold Session.captureAddress
    by_cases missing : value.isEmpty
    · rw [if_pos missing]
      cases first.header? name with
      | none => simp
      | some found =>
          cases read : Address.normalize found with
          | ok address => simp [read]
          | error fault => simp [read]
    · rw [if_neg missing, if_neg missing]
  unfold captured
  simp only [subject, address]

theorem capturedAll_self {first : Mime.Part} {others : List Mime.Part}
    {writes : List (Metadata × Bytes)} (some : writes ≠ [])
    (published : ∀ write ∈ writes, write.1.parts? = .some (first :: others))
    (summary : Summary) : capturedAll summary writes = captured summary first := by
  induction writes generalizing summary with
  | nil => exact absurd rfl some
  | cons write later inductionStep =>
      have step : capturedAll summary (write :: later) =
          capturedAll (captured summary first) later := by
        simp only [capturedAll, List.foldl_cons, published write List.mem_cons_self]
      rw [step]
      by_cases last : later = []
      · rw [last]
        rfl
      · rw [inductionStep last fun other member =>
          published other (List.mem_cons_of_mem _ member), captured_captured]

/-- The chunks of a message by the parts that are published all the time. -/
def fixedChunks (parts : List Mime.Part) (asked : Nat) (content : Bytes) : List Descriptor :=
  match parts with
  | [] => []
  | first :: others => wholeChunks first others asked content

/-- The header values of a message by the parts that are published all the time. -/
def fixedSummary (parts : List Mime.Part) (summary : Summary) : Summary :=
  match parts with
  | [] => summary
  | first :: _ => captured summary first

section Runs

variable {Represents : σ → Ledger → Prop} {host : Host κ σ} {state : σ}

/-- Without parts, writes only pass. -/
theorem Holding.acceptAll_silent {cap : Nat} {messages : Table MessageId MessageRecord}
    {id : MessageId} {final : List Mime.Part} {label : Label} {start : Place cap}
    {queueId : String} {summary : Summary} {splitter : Splitter κ} {base : Nat}
    (holding : Holding Represents messages id final label start queueId summary splitter state base)
    (host : Host κ σ) {writes : List (Metadata × Bytes)}
    (published : ∀ write ∈ writes, write.1.parts? = some []) :
    ∃ later, Splitter.acceptAll host writes splitter state = (.ok (), later, state) ∧
      later.store = splitter.store ∧
      Holding Represents messages id final label start queueId summary later state base := by
  induction writes generalizing splitter with
  | nil => exact ⟨splitter, rfl, rfl, holding⟩
  | cons write writes inductionStep =>
      rcases write with ⟨metadata, data⟩
      have none : metadata.parts? = some [] := published _ List.mem_cons_self
      have accepted : splitter.accept host (some metadata) data state =
          (.ok (), splitter.pass data.length, state) := by
        unfold Splitter.accept
        simp only [holding.message, if_neg (Metadata.size_ne_zero none), none]
      have passed : Holding Represents messages id final label start queueId summary
          (splitter.pass data.length) state base :=
        ⟨holding.keeps, holding.message, holding.balanced, holding.summary, holding.fresh,
          holding.draft⟩
      have others : ∀ other ∈ writes, other.1.parts? = some [] :=
        fun other member => published other (List.mem_cons_of_mem _ member)
      rcases inductionStep passed others with ⟨later, run, store, done⟩
      refine ⟨later, ?_, store, done⟩
      rw [Splitter.acceptAll, accepted]
      exact run

/-- What is recorded of a message whose published parts stay the same. -/
theorem records_of_fixed (answers : host.Answers Represents) {ledger : Ledger}
    (represents : Represents state ledger) (store : κ) (asked : Nat) (opening : Opening)
    (queueId : String) {parts : List Mime.Part} (ordered : ∀ part ∈ parts, Ordered part)
    {writes : List (Metadata × Bytes)} (nonempty : writes ≠ [])
    (published : ∀ write ∈ writes, write.1.parts? = some parts) :
    ∃ record manifest,
      Records host store asked opening queueId writes state
        (MessageRecord.close record manifest.totalSize manifest
          (fixedSummary parts { queueId := queueId })) ∧
      manifest.entries = fixedChunks parts asked (bytesOf writes) := by
  cases parts with
  | nil =>
      rcases along_opened answers represents store asked opening [({} : Mime.Part)] (.ofPart {}) []
          queueId with ⟨id, messages, record, start, now, opened, store_eq, found, along⟩
      rcases along.toHolding.acceptAll_silent host published with ⟨middle, accepted, kept, done⟩
      rcases done.closeMessage answers found with ⟨later, after, manifest, closed, read, entries⟩
      refine ⟨record, manifest, ⟨id, later, after, ?_, ?_⟩, entries⟩
      · unfold Splitter.transmit
        simp only [opened, accepted, closed]
      · rw [kept, store_eq] at read
        exact read
  | cons first others =>
      have allFit := allFit_self (List.cons_ne_nil first others) published 0
      rcases records_of_allFit answers represents store
        asked opening queueId ordered allFit with ⟨record, manifest, records, entries⟩
      rw [capturedAll_self nonempty published] at records
      exact ⟨record, manifest, records, entries⟩

/-- Two ways of splitting a message into writes lead to the same record, as far as the message
itself is concerned. -/
theorem records_split_invariant (answers : host.Answers Represents) {state other : σ}
    {ledger otherLedger : Ledger} (represents : Represents state ledger)
    (otherRepresents : Represents other otherLedger) (store otherStore : κ) (asked : Nat)
    (opening otherOpening : Opening) (queueId otherQueueId : String) (parts : List Mime.Part)
    (ordered : ∀ part ∈ parts, Ordered part) (first second : List (Metadata × Bytes))
    (firstNonempty : first ≠ []) (secondNonempty : second ≠ [])
    (firstPublished : ∀ write ∈ first, write.1.parts? = some parts)
    (secondPublished : ∀ write ∈ second, write.1.parts? = some parts)
    (same : bytesOf first = bytesOf second) :
    ∃ one two,
      Records host store asked opening queueId first state one ∧
      Records host otherStore asked otherOpening otherQueueId second other two ∧
      one.closed = true ∧ two.closed = true ∧
      one.manifest = two.manifest ∧ one.totalBytes = two.totalBytes ∧
      one.subject = two.subject ∧ one.headerTo = two.headerTo ∧
      one.headerFrom = two.headerFrom := by
  rcases records_of_fixed answers represents store asked
    opening queueId ordered firstNonempty firstPublished with ⟨record, manifest, records, entries⟩
  rcases records_of_fixed answers
    otherRepresents otherStore asked otherOpening otherQueueId ordered secondNonempty
    secondPublished with ⟨otherRecord, otherManifest, otherRecords, otherEntries⟩
  have manifests : manifest = otherManifest := by
    cases manifest
    cases otherManifest
    simp only at entries otherEntries
    rw [entries, otherEntries, same]
  subst manifests
  refine ⟨_, _, records, otherRecords, rfl, rfl, rfl, rfl, ?_⟩
  cases parts with
  | nil => exact ⟨rfl, rfl, rfl⟩
  | cons part others => exact ⟨rfl, rfl, rfl⟩

/-- A message in one write and in four, with boundaries that are out of order and at the edges of
the writes. -/
theorem records_split_invariant_out_of_order :
    let parts : List Mime.Part :=
      [{ node := "1", start := 3, bodyStart := 4 }, { node := "2", start := 1 }]
    let metadata : Metadata := Table.empty.insert Metadata.partsKey (.parts parts)
    ∃ one two,
      Records (Host.of Store.Volatile.call) () 2 {} "p" [(metadata, [1, 2, 3, 4, 5])]
        (Store.Volatile.new 6) one ∧
      Records (Host.of Store.Volatile.call) () 2 {} "q"
        [(metadata, [1]), (metadata, []), (metadata, [2, 3]), (metadata, [4, 5])]
        (Store.Volatile.new 0) two ∧
      one.closed = true ∧ two.closed = true ∧
      one.manifest = two.manifest ∧ one.totalBytes = two.totalBytes ∧
      one.subject = two.subject ∧ one.headerTo = two.headerTo ∧
      one.headerFrom = two.headerFrom := by
  intro parts metadata
  have ordered : ∀ part ∈ parts, Ordered part := by decide
  have published : ∀ data : List Bytes, ∀ write ∈ data.map fun bytes => (metadata, bytes),
      write.1.parts? = some parts := by
    intro data write member
    rcases List.mem_map.mp member with ⟨bytes, _, rfl⟩
    rfl
  exact records_split_invariant Store.Volatile.answers (Store.Volatile.represents_new 6)
    (Store.Volatile.represents_new 0) () () 2 {} {} "p" "q" parts ordered _ _
    (List.cons_ne_nil _ _) (List.cons_ne_nil _ _) (published [[1, 2, 3, 4, 5]])
    (published [[1], [], [2, 3], [4, 5]]) rfl

end Runs
end Transit
end MailVault
