import MailVault.Proofs.Transit.Ideal
import MailVault.Proofs.Transit.Writes

/-!
# A message from its opening to its close

The parts of a message become known while it goes by.  There is a final list of parts,
and what is published at a write fits to it: it tells the first parts of the list,
perhaps without the places where their bodies begin, and it leads to the same cuts in
the bytes of the write.  Then the chunks of the message are those of the message as a
whole, however it comes in.
-/

namespace MailVault
namespace Transit

open Store (Host Ledger)

variable {κ σ : Type} {cap : Nat}

/-- A published part tells nothing else than a final one, except that the place of its body may
not be known. -/
structure Partial (shown final : Mime.Part) : Prop where
  start : shown.start = final.start
  label : Label.ofPart shown = .ofPart final
  body : shown.bodyStart = final.bodyStart ∨ shown.bodyStart = 0

/-- The marks at which a message with the given final parts is cut. -/
def cutMarks (final : List Mime.Part) : List Mark :=
  climb 0 (marks final)

theorem sorted_cutMarks (final : List Mime.Part) :
    (cutMarks final).Pairwise fun first second => first.offset ≤ second.offset :=
  sorted_climb 0 (marks final)

/-- Published parts that tell the first of the final parts, and lead to the same cuts from an
offset on and before another one. -/
structure Fits (final : List Mime.Part) (base last : Nat) (shown : List Mime.Part) : Prop where
  nonempty : shown ≠ []
  known : ∃ front hidden, final = front ++ hidden ∧ List.Forall₂ Partial shown front
  cuts : ((climb base (marks shown)).filter fun mark => decide (mark.offset < last)) =
    between (cutMarks final) base last
  atEnd : ∀ mark ∈ climb base (marks shown), mark.offset = last →
    ∃ other ∈ cutMarks final, other.offset = last

/-- The first final parts, as many as need not be looked at again, lie before an offset. -/
def Behind (final : List Mime.Part) (progress base : Nat) : Prop :=
  ∀ index < progress, ∀ part, final[index]? = some part → ∀ mark ∈ marksOf part,
    mark.offset < base

theorem Behind.later {final : List Mime.Part} {progress base last : Nat}
    (behind : Behind final progress base) (order : base ≤ last) : Behind final progress last :=
  fun index before part found mark marked =>
    Nat.lt_of_lt_of_le (behind index before part found mark marked) order

theorem mem_marksOf {part : Mime.Part} {mark : Mark} :
    mark ∈ marksOf part ↔
      (mark.offset = part.start ∨ mark.offset = part.bodyStart) ∧ mark.offset ≠ 0 ∧
        mark.label = .ofPart part := by
  cases mark with
  | mk offset label =>
      simp only [marksOf, List.mem_map, List.mem_filter, List.mem_cons, List.not_mem_nil, or_false,
        decide_eq_true_eq, Mark.mk.injEq]
      constructor
      · rintro ⟨boundary, ⟨place, positive⟩, rfl, rfl⟩
        exact ⟨place, positive, rfl⟩
      · rintro ⟨place, positive, rfl⟩
        exact ⟨offset, ⟨place, positive⟩, rfl, rfl⟩

namespace Partial

variable {shown final : Mime.Part}

theorem refl (part : Mime.Part) : Partial part part :=
  ⟨rfl, rfl, Or.inl rfl⟩

theorem mem_marksOf (partly : Partial shown final) {mark : Mark}
    (member : mark ∈ marksOf shown) : mark ∈ marksOf final := by
  rw [Transit.mem_marksOf] at member ⊢
  rcases member with ⟨place, positive, label⟩
  refine ⟨?_, positive, label.trans partly.label⟩
  rcases place with first | second
  · exact Or.inl (first.trans partly.start)
  · rcases partly.body with known | unknown
    · exact Or.inr (second.trans known)
    · exact absurd (second.trans unknown) positive

theorem ordered (partly : Partial shown final) (ordered : Ordered final) : Ordered shown := by
  rcases partly.body with known | unknown
  · rw [Ordered, known, partly.start]
    exact ordered
  · exact Or.inl unknown

/-- A part that is settled is known as it is, so it stays settled. -/
theorem settled (partly : Partial shown final) {position : Nat}
    (settled : Session.isSettled position shown = true) :
    Session.isSettled position final = true := by
  have known : shown.bodyStart = final.bodyStart := by
    apply partly.body.resolve_right
    have positive := (of_decide_eq_true settled).2.1
    omega
  rw [Session.isSettled, ← partly.start, ← known]
  exact settled

end Partial

theorem lt_of_settled {part : Mime.Part} (ordered : Ordered part) {position : Nat}
    (settled : Session.isSettled position part = true) {mark : Mark} (marked : mark ∈ marksOf part) :
    mark.offset < position := by
  rcases of_decide_eq_true settled with ⟨_, positive, passed⟩
  have order : part.start ≤ part.bodyStart := by
    apply ordered.resolve_left
    omega
  rcases (mem_marksOf.mp marked).1 with first | second
  · rw [first]
    exact Nat.lt_of_le_of_lt order passed
  · rw [second]
    exact passed

/-- Lists that match have items at the same places. -/
theorem getElem?_of_forall₂ {α β : Type} {R : α → β → Prop} {left : List α} {right : List β}
    (matched : List.Forall₂ R left right) {index : Nat} {item : α}
    (found : left[index]? = some item) : ∃ other, right[index]? = some other ∧ R item other := by
  induction matched generalizing index with
  | nil => cases found
  | @cons first other left right related _ inductionStep =>
      cases index with
      | zero =>
          cases found
          exact ⟨other, rfl, related⟩
      | succ index => exact inductionStep found

/-- The shown parts tell the first of the final ones. -/
def Foretells (shown final : List Mime.Part) : Prop :=
  ∃ front hidden, final = front ++ hidden ∧ List.Forall₂ Partial shown front

/-- A part keeps its place when more is told. -/
theorem Foretells.exists_final {shown final : List Mime.Part} (foretold : Foretells shown final)
    {index : Nat} {part : Mime.Part} (found : shown[index]? = some part) :
    ∃ other, final[index]? = some other ∧ Partial part other := by
  rcases foretold with ⟨front, hidden, rfl, known⟩
  rcases getElem?_of_forall₂ known found with ⟨other, there, partly⟩
  refine ⟨other, ?_, partly⟩
  rcases List.getElem?_eq_some_iff.mp there with ⟨inside, _⟩
  rw [List.getElem?_append_left inside]
  exact there

namespace Session

theorem of_lt_length_takeWhile {α : Type} {keep : α → Bool} {list : List α} {index : Nat} {item : α}
    (inside : index < (list.takeWhile keep).length) (found : list[index]? = some item) :
    keep item = true := by
  induction list generalizing index with
  | nil => cases found
  | cons first later inductionStep =>
      rw [List.takeWhile_cons] at inside
      by_cases kept : keep first = true
      · rw [if_pos kept] at inside
        cases index with
        | zero =>
            cases found
            exact kept
        | succ index => exact inductionStep (Nat.lt_of_succ_lt_succ inside) found
      · rw [if_neg kept] at inside
        cases inside

theorem length_settled_le (parts : List Mime.Part) (first limit position : Nat) :
    (((parts.take limit).drop first).takeWhile (isSettled position)).length ≤ limit - first := by
  have bound := (List.takeWhile_sublist (isSettled position)
    (l := (parts.take limit).drop first)).length_le
  rw [List.length_drop, List.length_take] at bound
  omega

/-- A part that need not be looked at again was so before, or it is settled now. -/
theorem settled_of_lt_passed {progress : Nat} {parts : List Mime.Part} {position index : Nat}
    {part : Mime.Part} (before : index < passed progress parts position)
    (found : parts[index]? = some part) :
    index < progress ∨ isSettled position part = true := by
  unfold passed settle at before
  by_cases few : parts.length ≤ 2
  · rw [if_pos few] at before
    exact Or.inl before
  · rw [if_neg few] at before
    simp only at before
    by_cases early : index < min progress (parts.length - 2)
    · exact Or.inl (Nat.lt_of_lt_of_le early (Nat.min_le_left _ _))
    · have shifted : index - min progress (parts.length - 2) <
          ((((parts.take (parts.length - 2)).drop (min progress (parts.length - 2))).takeWhile
            (isSettled position)).length) := by omega
      refine Or.inr (of_lt_length_takeWhile shifted ?_)
      have bound := length_settled_le parts (min progress (parts.length - 2)) (parts.length - 2)
        position
      rw [List.getElem?_drop, List.getElem?_take_of_lt (by omega)]
      rw [← found]
      congr 1
      omega

theorem passed_le (progress : Nat) (parts : List Mime.Part) (position : Nat) :
    passed progress parts position = progress ∨
      passed progress parts position ≤ parts.length := by
  unfold passed settle
  by_cases few : parts.length ≤ 2
  · rw [if_pos few]
    exact Or.inl rfl
  · rw [if_neg few]
    have bound := length_settled_le parts (min progress (parts.length - 2)) (parts.length - 2)
      position
    simp only
    omega

end Session

namespace Fits

variable {final shown : List Mime.Part} {base last progress : Nat}

/-- A published part tells of the final part at the same place. -/
theorem exists_final (fits : Fits final base last shown) {index : Nat} {part : Mime.Part}
    (found : shown[index]? = some part) :
    ∃ other, final[index]? = some other ∧ Partial part other :=
  Foretells.exists_final fits.known found

theorem ordered (fits : Fits final base last shown) (ordered : ∀ part ∈ final, Ordered part)
    (part : Mime.Part) (member : part ∈ shown) : Ordered part := by
  rcases List.mem_iff_getElem?.mp member with ⟨index, found⟩
  rcases fits.exists_final found with ⟨other, there, partly⟩
  exact partly.ordered (ordered other (List.mem_of_getElem? there))

/-- Parts that need not be looked at again do not change the climb. -/
theorem climb_waiting (fits : Fits final base last shown) (behind : Behind final progress base)
    {count : Nat} (few : count ≤ progress) :
    climb base (marks (shown.drop count)) = climb base (marks shown) := by
  have split : marks shown = marks (shown.take count) ++ marks (shown.drop count) := by
    rw [marks, marks, marks, ← List.flatMap_append, List.take_append_drop]
  rw [split, climb_append_of_lt]
  intro mark member
  rcases List.mem_flatMap.mp member with ⟨part, early, marked⟩
  rcases List.mem_iff_getElem?.mp early with ⟨index, found⟩
  rw [List.getElem?_take] at found
  by_cases before : index < count
  · rw [if_pos before] at found
    rcases fits.exists_final found with ⟨other, there, partly⟩
    exact behind index (Nat.lt_of_lt_of_le before few) other there mark (partly.mem_marksOf marked)
  · rw [if_neg before] at found
    cases found

/-- A part is settled when the stream has passed its boundaries, so it stays behind. -/
theorem behind_passed (fits : Fits final base last shown)
    (ordered : ∀ part ∈ final, Ordered part) (behind : Behind final progress base)
    (order : base ≤ last) : Behind final (Session.passed progress shown last) last := by
  rcases Session.passed_le progress shown last with same | few
  · rw [same]
    exact behind.later order
  · intro index before part found mark marked
    have inside : index < shown.length := Nat.lt_of_lt_of_le before few
    have here : shown[index]? = some shown[index] := List.getElem?_eq_getElem inside
    rcases Session.settled_of_lt_passed before here with early | settled
    · exact behind.later order index early part found mark marked
    · rcases fits.exists_final here with ⟨other, there, partly⟩
      rw [found] at there
      cases there
      exact lt_of_settled (ordered part (List.mem_of_getElem? found)) (partly.settled settled) marked

end Fits
/-- The header values that are still missing are taken from a first part. -/
def captured (summary : Summary) (first : Mime.Part) : Summary :=
  { summary with
    subject := Session.captureSubject summary.subject first
    recipient := Session.captureAddress summary.recipient first "To"
    sender := Session.captureAddress summary.sender first "From" }

/-- The splitter and the store when some bytes of a message were chunked: the buffer is as if the
message had been cut as a whole, but for cuts that it may have been given just there. -/
structure Holding (Represents : σ → Ledger → Prop) (messages : Table MessageId MessageRecord)
    (id : MessageId) (final : List Mime.Part) (label : Label) (start : Place cap)
    (queueId : String) (summary : Summary) (splitter : Splitter κ) (state : σ) (base : Nat) :
    Prop where
  keeps : Keeps Represents messages state
  message : splitter.session.message = some id
  balanced : splitter.Balanced
  summary : splitter.session.summary queueId = summary
  fresh : splitter.session.labelled = false → splitter.buffer.pending = []
  draft : ∃ draft labels, splitter.buffer.Shows draft ∧
    draft.prepared splitter.session.labelled label =
      (start.ideal (cutMarks final) base).draft.recut labels ∧
    (labels ≠ [] → ∃ mark ∈ cutMarks final, mark.offset = base)

/-- The splitter and the store when a message has come to an offset, and all of it was chunked. -/
structure Along (Represents : σ → Ledger → Prop) (messages : Table MessageId MessageRecord)
    (id : MessageId) (final : List Mime.Part) (label : Label) (start : Place cap)
    (queueId : String) (summary : Summary) (splitter : Splitter κ) (state : σ) (base : Nat) : Prop
    extends Holding Represents messages id final label start queueId summary splitter state base
    where
  position : splitter.session.position = base
  behind : Behind final splitter.session.progress base

variable {Represents : σ → Ledger → Prop} {host : Host κ σ}
  {messages : Table MessageId MessageRecord} {id : MessageId} {final : List Mime.Part}
  {label : Label} {start : Place cap} {queueId : String} {summary : Summary}
  {splitter : Splitter κ} {state : σ} {base : Nat}

/-- A write with parts that fit brings the message further. -/
theorem Along.accept
    (along : Along Represents messages id final label start queueId summary splitter state base)
    (answers : host.Answers Represents) (ordered : ∀ part ∈ final, Ordered part)
    (labelled : final.head?.map Label.ofPart = some label) {metadata : Metadata}
    {first : Mime.Part} {others : List Mime.Part} {data after : Bytes}
    (published : metadata.parts? = some (first :: others))
    (fits : Fits final base (base + data.length) (first :: others))
    (cursor : (start.ideal (cutMarks final) base).cursor = ⟨base, data ++ after⟩) :
    ∃ later now, splitter.accept host (some metadata) data state = (.ok (), later, now) ∧
      later.store = splitter.store ∧
      Along Represents messages id final label start queueId (captured summary first) later now
        (base + data.length) := by
  rcases along.draft with ⟨draft, labels, shown, prepared, known⟩
  rcases Splitter.accept_ok answers shown
    along.keeps along.message published (fits.ordered ordered) data with
      ⟨buffer, written, now, accepted, still, kept⟩
  rcases splitter.accept_moves host (some metadata) data state with ⟨_, _, moves⟩
  rw [accepted] at moves
  refine ⟨_, now, accepted, rfl, ⟨kept, along.message, moves.balanced along.balanced, ?_,
    fun unlabelled => Bool.noConfusion unlabelled, ?_⟩, ?_, ?_⟩
  · rw [← along.summary]
    rfl
  · have first_label : Label.ofPart first = label := by
      rcases fits.exists_final (List.getElem?_cons_zero (l := others) (a := first)) with
        ⟨other, found, partly⟩
      rw [List.head?_eq_getElem?, found] at labelled
      cases labelled
      exact partly.label
    have within : ∀ part ∈ (first :: others).drop
        (min splitter.session.progress others.length), Ordered part :=
      fun part member => fits.ordered ordered part (List.mem_of_mem_drop member)
    have ends : (⟨splitter.session.position, data⟩ : Cursor).last = base + data.length :=
      congrArg (· + data.length) along.position
    rcases Place.scan_eq _
      (Splitter.waiting_ne_nil first others splitter.session.progress) within
      ⟨draft.prepared splitter.session.labelled (.ofPart first),
        ⟨splitter.session.position, data⟩⟩ along.position ends with ⟨extras, atEnd, scanned⟩
    rw [first_label, prepared, along.position] at scanned
    rw [fits.climb_waiting along.behind (Nat.min_le_left _ _)] at atEnd scanned
    rw [fits.cuts] at scanned
    rcases start.ideal_step (sorted_cutMarks final) cursor known
      (fun mark member => (atEnd mark member).1)
      (fun some => by
        obtain ⟨mark, member⟩ := List.exists_mem_of_ne_nil extras some
        exact fits.atEnd mark (atEnd mark member).2 (atEnd mark member).1) with ⟨more, same, also⟩
    refine ⟨_, more, still, ?_, also⟩
    rw [← same, Draft.written, first_label, prepared, along.position, scanned]
    rfl
  · exact congrArg (· + data.length) along.position
  · have behind := fits.behind_passed ordered along.behind (Nat.le_add_right _ _)
    rw [← along.position] at behind ⊢
    exact behind

/-- At each write parts are published, and they are as they should be for the offsets before and
behind the write. -/
def AtEach (Shown : Nat → Nat → List Mime.Part → Prop) : Nat → List (Metadata × Bytes) → Prop
  | _, [] => True
  | base, (metadata, data) :: later =>
    (∃ shown, metadata.parts? = some shown ∧ Shown base (base + data.length) shown) ∧
      AtEach Shown (base + data.length) later

theorem AtEach.imp {Shown Other : Nat → Nat → List Mime.Part → Prop}
    (implies : ∀ base last shown, Shown base last shown → Other base last shown) {base : Nat}
    {writes : List (Metadata × Bytes)} (atEach : AtEach Shown base writes) :
    AtEach Other base writes := by
  induction writes generalizing base with
  | nil => trivial
  | cons write later inductionStep =>
      rcases atEach with ⟨⟨shown, published, holds⟩, others⟩
      exact ⟨⟨shown, published, implies _ _ _ holds⟩, inductionStep others⟩

def bytesOf (writes : List (Metadata × Bytes)) : Bytes :=
  (writes.map Prod.snd).flatten

/-- The header values after writes: those of the first published parts, as long as they are
missing. -/
def capturedAll (summary : Summary) (writes : List (Metadata × Bytes)) : Summary :=
  writes.foldl
    (fun summary write =>
      match write.1.parts? with
      | some (first :: _) => captured summary first
      | _ => summary)
    summary

namespace Splitter

/-- Accept writes until one fails. -/
def acceptAll (host : Host κ σ) :
    List (Metadata × Bytes) → Splitter κ → σ → Except TransitFault Unit × Splitter κ × σ
  | [], splitter, state => (.ok (), splitter, state)
  | (metadata, data) :: later, splitter, state =>
    match splitter.accept host (some metadata) data state with
    | (.error fault, splitter, state) => (.error fault, splitter, state)
    | (.ok (), splitter, state) => acceptAll host later splitter state

/-- Open a message, accept its writes and close it; the answer is its number. -/
def transmit (splitter : Splitter κ) (host : Host κ σ) (opening : Opening) (queueId : String)
    (writes : List (Metadata × Bytes)) (state : σ) :
    Except TransitFault MessageId × Splitter κ × σ :=
  match splitter.openMessage host opening state with
  | (.error fault, splitter, state) => (.error (.storage fault), splitter, state)
  | (.ok id, splitter, state) =>
    match acceptAll host writes splitter state with
    | (.error fault, splitter, state) => (.error fault, splitter, state)
    | (.ok (), splitter, state) =>
      match splitter.closeMessage host queueId state with
      | (.error fault, splitter, state) => (.error (.storage fault), splitter, state)
      | (.ok (), splitter, state) => (.ok id, splitter, state)

end Splitter

/-- Writes that fit bring the message to its end. -/
theorem Along.acceptAll {label : Label} {positive : 0 < cap} {writes : List (Metadata × Bytes)}
    {before : Bytes}
    (along : Along Represents messages id final label
      (.outset label positive (before ++ bytesOf writes)) queueId summary splitter state
      before.length)
    (answers : host.Answers Represents) (ordered : ∀ part ∈ final, Ordered part)
    (labelled : final.head?.map Label.ofPart = some label)
    (allFit : AtEach (Fits final) before.length writes) :
    ∃ later now, Splitter.acceptAll host writes splitter state = (.ok (), later, now) ∧
      later.store = splitter.store ∧
      Along Represents messages id final label
        (.outset label positive (before ++ bytesOf writes)) queueId (capturedAll summary writes)
        later now (before ++ bytesOf writes).length := by
  induction writes generalizing splitter state summary before with
  | nil =>
      refine ⟨splitter, state, rfl, rfl, ?_⟩
      have same : before ++ bytesOf [] = before := List.append_nil before
      rw [same] at along ⊢
      exact along
  | cons write later inductionStep =>
      rcases write with ⟨metadata, data⟩
      rcases allFit with ⟨⟨shown, published, fits⟩, others⟩
      have split : before ++ bytesOf ((metadata, data) :: later) =
          (before ++ data) ++ bytesOf later := (List.append_assoc _ _ _).symm
      cases shown with
      | nil => exact absurd rfl fits.nonempty
      | cons first rest =>
          have cursor := Place.cursor_ideal label positive
          rcases along.accept answers ordered labelled published fits (cursor _) with
            ⟨middle, now, accepted, store, next⟩
          rw [split, ← List.length_append] at next
          rw [← List.length_append] at others
          rcases inductionStep next others with ⟨last, finish, run, kept, done⟩
          refine ⟨last, finish, ?_, kept.trans store, ?_⟩
          · rw [Splitter.acceptAll, accepted]
            exact run
          · rw [split]
            have same : capturedAll summary ((metadata, data) :: later) =
                capturedAll (captured summary first) later := by
              simp only [capturedAll, List.foldl_cons, published]
            rw [same]
            exact done

def wholeChunks (first : Mime.Part) (others : List Mime.Part) (asked : Nat) (content : Bytes) :
    List Descriptor :=
  ((Place.outset (.ofPart first) (capOf_pos asked) content).ideal (cutMarks (first :: others))
    content.length).draft.flush.entries

theorem Draft.entries_flush_prepared (draft : Draft cap) {labelled : Bool}
    (fresh : labelled = false → draft.pending = []) (label : Label) :
    (draft.prepared labelled label).flush.entries = draft.flush.entries := by
  unfold prepared
  cases labelled with
  | true => rfl
  | false =>
      have none : (draft.relabel label).pending = [] := fresh rfl
      rw [if_neg Bool.false_ne_true, flush_of_nil none, flush_of_nil (fresh rfl)]
      rfl

/-- A message that is just opened is at its beginning. -/
theorem along_opened (answers : host.Answers Represents) {ledger : Ledger}
    (represents : Represents state ledger) (store : κ) (asked : Nat) (opening : Opening)
    (final : List Mime.Part) (label : Label) (content : Bytes) (queueId : String) :
    ∃ id messages record later now,
      (Splitter.new store asked).openMessage host opening state = (.ok id, later, now) ∧
      later.store = store ∧ messages.find? id = some record ∧
      Along Represents messages id final label (.outset label (capOf_pos asked) content) queueId
        { queueId := queueId } later now 0 := by
  rcases Splitter.openMessage_ok answers represents (Splitter.new store asked) opening with
    ⟨now, opened, kept⟩
  refine ⟨⟨ledger.last + 1⟩, ledger.messages.insert ⟨ledger.last + 1⟩
    (.opened ⟨ledger.last + 1⟩ opening), .opened ⟨ledger.last + 1⟩ opening, _, now, opened, rfl,
    ?_, ?_⟩
  · rw [Table.find?_insert, if_pos rfl]
  · refine ⟨⟨kept, rfl, rfl, rfl, fun _ => rfl, ?_⟩, rfl, ?_⟩
    · refine ⟨.blank .none (capOf_pos asked), [], ?_, ?_, fun some => absurd rfl some⟩
      · exact Buffer.reset_shows (Splitter.new store asked).buffer rfl
      · have none : ((cutMarks final).filter fun mark => decide (mark.offset < 0)) = [] := by
          rw [List.filter_eq_nil_iff]
          intro mark _
          simp
        rw [Place.ideal, none]
        rfl
    · intro index before
      cases before

/-- A message is recorded with the chunks of the whole, and with the number of their bytes. -/
theorem Holding.closeMessage {first : Mime.Part} {others : List Mime.Part} {asked : Nat}
    {content : Bytes} {record : MessageRecord}
    (holding : Holding Represents messages id (first :: others) (.ofPart first)
      (.outset (.ofPart first) (capOf_pos asked) content) queueId summary splitter state
      content.length)
    (answers : host.Answers Represents) (found : messages.find? id = some record) :
    ∃ later after manifest, splitter.closeMessage host queueId state = (.ok (), later, after) ∧
      (host.call splitter.store (.getMessage id) after).1 =
        .ok (record.close manifest.totalSize manifest summary) ∧
      manifest.entries = wholeChunks first others asked content := by
  rcases holding.draft with ⟨draft, labels, shown, prepared, _⟩
  rcases Splitter.closeMessage_ok answers shown holding.keeps holding.balanced holding.message found
    queueId with ⟨later, after, manifest, closed, read, entries⟩
  rw [holding.summary] at read
  refine ⟨later, after, manifest, closed, read, ?_⟩
  have fresh : splitter.session.labelled = false → draft.pending = [] :=
    fun unlabelled => shown.pending.symm.trans (holding.fresh unlabelled)
  rw [entries, ← Draft.entries_flush_prepared draft fresh (.ofPart first), prepared,
    Draft.entries_flush_recut]
  rfl

/-- Transmitting writes through a new splitter leaves the record of a message. -/
def Records (host : Host κ σ) (store : κ) (asked : Nat) (opening : Opening) (queueId : String)
    (writes : List (Metadata × Bytes)) (state : σ) (record : MessageRecord) : Prop :=
  ∃ id later after,
    (Splitter.new store asked).transmit host opening queueId writes state =
      (.ok id, later, after) ∧
    (host.call store (.getMessage id) after).1 = .ok record

/-- A message whose published parts fit at each write is recorded with the chunks of the whole. -/
theorem records_of_allFit (answers : host.Answers Represents) {ledger : Ledger}
    (represents : Represents state ledger) (store : κ) (asked : Nat) (opening : Opening)
    (queueId : String) {first : Mime.Part} {others : List Mime.Part}
    (ordered : ∀ part ∈ first :: others, Ordered part) {writes : List (Metadata × Bytes)}
    (allFit : AtEach (Fits (first :: others)) 0 writes) :
    ∃ record manifest,
      Records host store asked opening queueId writes state
        (MessageRecord.close record manifest.totalSize manifest
          (capturedAll { queueId := queueId } writes)) ∧
      manifest.entries = wholeChunks first others asked (bytesOf writes) := by
  rcases along_opened answers represents store asked opening (first :: others) (.ofPart first)
      (bytesOf writes) queueId with
      ⟨id, messages, record, start, now, opened, store_eq, found, along⟩
  have outset : Along Represents messages id (first :: others) (.ofPart first)
      (.outset (.ofPart first) (capOf_pos asked) ([] ++ bytesOf writes)) queueId
      { queueId := queueId } start now ([] : Bytes).length := along
  rcases outset.acceptAll answers ordered rfl allFit with ⟨middle, next, accepted, kept, done⟩
  rcases done.toHolding.closeMessage answers found with
    ⟨later, after, manifest, closed, read, entries⟩
  refine ⟨record, manifest, ⟨id, later, after, ?_, ?_⟩, entries⟩
  · unfold Splitter.transmit
    simp only [opened, accepted, closed]
  · rw [kept, store_eq] at read
    exact read

end Transit
end MailVault
