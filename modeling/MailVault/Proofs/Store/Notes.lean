import Mathlib.Algebra.GroupWithZero.Nat
import Mathlib.Algebra.BigOperators.Group.Finset.Piecewise
import Mathlib.Algebra.Order.BigOperators.Group.List
import Mathlib.Algebra.Order.Group.Nat
import Mathlib.Data.Fintype.Basic
import MailVault.Proofs.Store.Equivalence

/-!
# Minutes of calls that are made in turn

Several makers call one engine, each whenever it likes, and the minutes tell who has
called, what, and with what answer.  Of these every maker knows only its own share.

What matters of a success is counted: additions of a digest, openings and closes of a
message, and how often the manifests of closes list a digest.  A count over all the
minutes is the sum of the counts over the shares, so what every maker knows of itself
can be put together without regard to the order of the calls.  What the engine
remembers can be read off the counts too.
-/

namespace MailVault

/-- How often a manifest lists a digest. -/
def Manifest.mentions (digest : Digest) (manifest : Manifest) : Nat :=
  manifest.entries.countP fun descriptor => decide (descriptor.digest = digest)

@[simp] theorem Manifest.mentions_empty (digest : Digest) : empty.mentions digest = 0 := rfl

@[simp] theorem Manifest.mentions_push (digest : Digest) (manifest : Manifest)
    (descriptor : Descriptor) : (manifest.push descriptor).mentions digest =
      manifest.mentions digest + if descriptor.digest = digest then 1 else 0 := by
  by_cases same : descriptor.digest = digest <;>
    simp [mentions, push, List.countP_append, same]

theorem Manifest.mentions_pos {manifest : Manifest} {descriptor : Descriptor}
    (listed : descriptor ∈ manifest.entries) : 0 < manifest.mentions descriptor.digest :=
  List.countP_pos_iff.mpr ⟨descriptor, listed, decide_eq_true rfl⟩

namespace Store

variable {κ σ ι : Type}

/-! ## Notes -/

def Entry.isFault : Entry → Bool
  | ⟨_, .error _⟩ => true
  | ⟨_, .ok _⟩ => false

/-- A call with its answer, as a value that a host can keep in its state. -/
inductive Note where
  | start (answer : Except Fault Unit)
  | stop (answer : Except Fault Unit)
  | openMessage (opening : Opening) (answer : Except Fault MessageId)
  | closeMessage (id : MessageId) (total : Nat) (manifest : Manifest) (summary : Summary)
      (answer : Except Fault Unit)
  | addChunk (digest : Digest) (data : Bytes) (answer : Except Fault Bool)
  | getMessage (id : MessageId) (answer : Except Fault MessageRecord)
  | getChunk (digest : Digest) (answer : Except Fault StoredChunk)
deriving DecidableEq

namespace Note

def of {β : Type} : Call β → Except Fault β → Note
  | .start, answer => start answer
  | .stop, answer => stop answer
  | .openMessage opening, answer => openMessage opening answer
  | .closeMessage id total manifest summary, answer => closeMessage id total manifest summary answer
  | .addChunk digest data, answer => addChunk digest data answer
  | .getMessage id, answer => getMessage id answer
  | .getChunk digest, answer => getChunk digest answer

def entry : Note → Entry
  | start answer => ⟨.start, answer⟩
  | stop answer => ⟨.stop, answer⟩
  | openMessage opening answer => ⟨.openMessage opening, answer⟩
  | closeMessage id total manifest summary answer =>
    ⟨.closeMessage id total manifest summary, answer⟩
  | addChunk digest data answer => ⟨.addChunk digest data, answer⟩
  | getMessage id answer => ⟨.getMessage id, answer⟩
  | getChunk digest answer => ⟨.getChunk digest, answer⟩

@[simp] theorem entry_of {β : Type} (call : Call β) (answer : Except Fault β) :
    (of call answer).entry = ⟨call, answer⟩ := by
  cases call <;> rfl

/-- Calls with their answers are the same if they are noted in the same way.  Notes can be compared
by computation, where the types of the answers stand in the way of comparing the calls. -/
theorem eq_of_map_of {left right : Chronicle}
    (same : left.map (fun entry => of entry.call entry.answer) =
      right.map fun entry => of entry.call entry.answer) : left = right := by
  have apart : Function.Injective fun entry : Entry => of entry.call entry.answer :=
    Function.HasLeftInverse.injective ⟨entry, fun told => entry_of told.call told.answer⟩
  exact List.map_injective_iff.mpr apart same

end Note

/-- A state with the notes of the calls that led to it. -/
structure Noted (σ : Type) where
  inner : σ
  notes : List Note

def Noted.chronicle (noted : Noted σ) : Chronicle :=
  noted.notes.map Note.entry

namespace Host

/-- The same host, which also notes every call with its answer. -/
def noted (host : Host κ σ) : Host κ (Noted σ) where
  call key call noted :=
    ((host.call key call noted.inner).1,
      ⟨(host.call key call noted.inner).2,
        noted.notes ++ [.of call (host.call key call noted.inner).1]⟩)

theorem chronicle_noted (host : Host κ σ) (key : κ) {β : Type} (call : Call β)
    (state : Noted σ) : (host.noted.call key call state).2.chronicle =
      state.chronicle ++ [⟨call, (host.noted.call key call state).1⟩] := by
  simp [noted, Noted.chronicle]

/-- A host that gives the answers of some notes, one after the other.  It fails when it is asked for
something else, and when there are no more answers. -/
def scripted : Host κ (List Note) where
  call _ call script :=
    match call, script with
    | .start, .start answer :: later => (answer, later)
    | .stop, .stop answer :: later => (answer, later)
    | .openMessage _, .openMessage _ answer :: later => (answer, later)
    | .closeMessage _ _ _ _, .closeMessage _ _ _ _ answer :: later => (answer, later)
    | .addChunk _ _, .addChunk _ _ answer :: later => (answer, later)
    | .getMessage _, .getMessage _ answer :: later => (answer, later)
    | .getChunk _, .getChunk _ answer :: later => (answer, later)
    | _, _ => (.error .notInitialized, [])

/-- What is noted while makers call an engine in turn. -/
def minutes (host : Host κ σ) (key : κ) : List (ι × Request) → σ → List (ι × Note)
  | [], _ => []
  | (maker, request) :: later, state =>
    (maker, .of request.call (host.call key request.call state).1) ::
      host.minutes key later (host.call key request.call state).2

end Host

/-- The calls with their answers, whoever has made them. -/
def told (minutes : List (ι × Note)) : Chronicle :=
  minutes.map fun minute => minute.2.entry

/-- Apart from who has called, the minutes are the dialogue. -/
theorem Host.told_minutes (host : Host κ σ) (key : κ) (turns : List (ι × Request)) (state : σ) :
    told (host.minutes key turns state) = host.dialogue key (turns.map Prod.snd) state := by
  induction turns generalizing state with
  | nil => rfl
  | cons turn later inductionStep =>
      rw [List.map_cons, dialogue, ← inductionStep, minutes, told, List.map_cons, Note.entry_of]
      rfl

theorem Host.minutes_append (host : Host κ σ) (key : κ) (first second : List (ι × Request))
    (state : σ) : host.minutes key (first ++ second) state =
      host.minutes key first state ++
        host.minutes key second (host.after key (first.map Prod.snd) state) := by
  induction first generalizing state with
  | nil => rfl
  | cons turn first inductionStep =>
      rw [List.cons_append, minutes, minutes, inductionStep]
      rfl

def shareOf [DecidableEq ι] (maker : ι) (minutes : List (ι × Note)) : List Note :=
  (minutes.filter fun minute => decide (minute.1 = maker)).map Prod.snd

theorem mem_told_iff [DecidableEq ι] {minutes : List (ι × Note)} {entry : Entry} :
    entry ∈ told minutes ↔ ∃ maker, ∃ note ∈ shareOf maker minutes, note.entry = entry := by
  simp only [told, shareOf, List.mem_map, List.mem_filter, decide_eq_true_eq]
  constructor
  · rintro ⟨⟨maker, note⟩, member, same⟩
    exact ⟨maker, note, ⟨(maker, note), ⟨member, rfl⟩, rfl⟩, same⟩
  · rintro ⟨maker, note, ⟨minute, ⟨member, _⟩, rfl⟩, same⟩
    exact ⟨minute, member, same⟩

/-- The share of the maker of the last call ends as all the minutes do. -/
theorem Host.told_ends [DecidableEq ι] {host : Host κ σ} {key : κ} {turns : List (ι × Request)}
    {state : σ} {maker : ι} {earlier : Chronicle} {entry : Entry}
    (called : turns.getLast?.map Prod.fst = some maker)
    (ended : (shareOf maker (host.minutes key turns state)).map Note.entry = earlier ++ [entry]) :
    ∃ before, told (host.minutes key turns state) = before ++ [entry] := by
  rcases Option.map_eq_some_iff.mp called with ⟨⟨_, request⟩, last, rfl⟩
  rcases List.getLast?_eq_some_iff.mp last with ⟨others, rfl⟩
  rw [minutes_append] at ended ⊢
  generalize host.minutes key others state = before at ended ⊢
  simp only [minutes, shareOf, List.filter_append, List.filter_cons_of_pos, decide_true,
    List.filter_nil, List.map_append, List.map_singleton] at ended
  refine ⟨told before, ?_⟩
  rw [told, minutes, minutes, List.map_append, List.map_singleton, told,
    List.append_inj_right' ended rfl]

/-- A note in a share is of a request that this maker has made. -/
theorem Host.request_of_mem_shareOf [DecidableEq ι] {host : Host κ σ} {key : κ}
    {turns : List (ι × Request)} {state : σ} {maker : ι} {note : Note}
    (member : note ∈ shareOf maker (host.minutes key turns state)) :
    ∃ request answer, (maker, request) ∈ turns ∧ note = .of request.call answer := by
  induction turns generalizing state with
  | nil => cases member
  | cons turn later inductionStep =>
      rcases turn with ⟨other, request⟩
      rw [minutes, shareOf, List.filter_cons] at member
      by_cases own : other = maker
      · simp only [own, decide_true, if_true, List.map_cons, List.mem_cons] at member
        rcases member with first | member
        · exact ⟨request, _, List.mem_cons.mpr (Or.inl (by rw [own])), first⟩
        · rcases inductionStep member with ⟨made, answer, listed, same⟩
          exact ⟨made, answer, List.mem_cons_of_mem _ listed, same⟩
      · simp only [own, decide_false, Bool.false_eq_true, if_false] at member
        rcases inductionStep member with ⟨made, answer, listed, same⟩
        exact ⟨made, answer, List.mem_cons_of_mem _ listed, same⟩

/-! ## Counts -/

/-- What successes are counted for. -/
inductive Item where
  | additions (digest : Digest)
  | openings (id : MessageId)
  | closes (id : MessageId)
  /-- Each descriptor of that digest in a manifest that a message is closed with. -/
  | records (digest : Digest)

/-- How often an entry counts. -/
def Item.measure : Item → Entry → Nat
  | .additions digest, ⟨.addChunk other _, .ok _⟩ => if other = digest then 1 else 0
  | .openings id, ⟨.openMessage _, .ok other⟩ => if other = id then 1 else 0
  | .closes id, ⟨.closeMessage other _ _ _, .ok _⟩ => if other = id then 1 else 0
  | .records digest, ⟨.closeMessage _ _ manifest _, .ok _⟩ => manifest.mentions digest
  | _, _ => 0

@[simp] theorem Item.measure_error (item : Item) {β : Type} (call : Call β) (fault : Fault) :
    item.measure ⟨call, .error fault⟩ = 0 := by
  cases item <;> cases call <;> rfl

theorem Item.measure_of_isFault (item : Item) {entry : Entry} (failed : entry.isFault = true) :
    item.measure entry = 0 := by
  rcases entry with ⟨call, answer⟩
  cases answer with
  | error fault => exact item.measure_error call fault
  | ok _ => cases failed

namespace Chronicle

/-- The count of an item over a row of calls. -/
def count (item : Item) (chronicle : Chronicle) : Nat :=
  (chronicle.map item.measure).sum

@[simp] theorem count_nil (item : Item) : count item [] = 0 := rfl

@[simp] theorem count_append (item : Item) (first second : Chronicle) :
    count item (first ++ second) = first.count item + second.count item := by
  simp [count]

theorem count_push (item : Item) (chronicle : Chronicle) (entry : Entry) :
    count item (chronicle ++ [entry]) = chronicle.count item + item.measure entry := by
  simp [count]

@[simp] theorem count_cons (item : Item) (entry : Entry) (later : Chronicle) :
    count item (entry :: later) = item.measure entry + later.count item := rfl

theorem count_of_faults (item : Item) {notes : List Note}
    (failed : ∀ note ∈ notes, note.entry.isFault = true) :
    count item (notes.map Note.entry) = 0 := by
  induction notes with
  | nil => rfl
  | cons note later inductionStep =>
      rw [List.map_cons, count_cons, item.measure_of_isFault (failed note List.mem_cons_self),
        inductionStep fun other member => failed other (List.mem_cons_of_mem _ member)]

/-- What counts over all the minutes counts in just one share. -/
theorem count_shares [Fintype ι] [DecidableEq ι] (item : Item) (minutes : List (ι × Note)) :
    (told minutes).count item =
      ∑ maker, count item ((shareOf maker minutes).map Note.entry) := by
  induction minutes with
  | nil => simp [told, shareOf]
  | cons minute later inductionStep =>
      have one : ∀ maker, count item ((shareOf maker (minute :: later)).map Note.entry) =
          (if minute.1 = maker then item.measure minute.2.entry else 0) +
            count item ((shareOf maker later).map Note.entry) := by
        intro maker
        by_cases own : minute.1 = maker <;> simp [shareOf, own]
      have first : count item (told (minute :: later)) =
          item.measure minute.2.entry + count item (told later) := rfl
      simp only [first, inductionStep, one, Finset.sum_add_distrib, Finset.sum_ite_eq,
        Finset.mem_univ, if_true]

theorem count_eq_length {α : Type} {item : Item} {pick : Entry → Option α}
    (each : ∀ entry, item.measure entry = (pick entry).toList.length) (chronicle : Chronicle) :
    chronicle.count item = (chronicle.filterMap pick).length := by
  induction chronicle with
  | nil => rfl
  | cons entry later inductionStep =>
      rw [count_cons, each, inductionStep, List.filterMap_cons]
      cases pick entry with
      | none => exact Nat.zero_add _
      | some _ => exact Nat.add_comm _ _

theorem count_additions (chronicle : Chronicle) (digest : Digest) :
    chronicle.count (.additions digest) = (chronicle.additions digest).length := by
  refine count_eq_length ?_ chronicle
  rintro ⟨call, answer⟩
  cases call <;> cases answer <;> try rfl
  simp only [Item.measure, Entry.addition?]
  split <;> rfl

theorem count_closes (chronicle : Chronicle) (id : MessageId) :
    chronicle.count (.closes id) = (chronicle.endings id).length := by
  refine count_eq_length ?_ chronicle
  rintro ⟨call, answer⟩
  cases call <;> cases answer <;> try rfl
  simp only [Item.measure, Entry.ending?]
  split <;> rfl

theorem count_openings (chronicle : Chronicle) (id : MessageId) :
    chronicle.count (.openings id) = chronicle.issued.count id := by
  have each : ∀ entry : Entry, (Item.openings id).measure entry =
      entry.issued?.toList.count id := by
    rintro ⟨call, answer⟩
    cases call <;> cases answer <;> try rfl
    rename_i opening other
    by_cases same : other = id <;> simp [Item.measure, Entry.issued?, same]
  induction chronicle with
  | nil => rfl
  | cons entry later inductionStep =>
      rw [count_cons, each, inductionStep, issued, issued, List.filterMap_cons]
      cases entry.issued? with
      | none => exact Nat.zero_add _
      | some other => rw [Option.toList_some, ← List.count_append, List.singleton_append]

/-- How often the manifests of some endings list a digest. -/
def listings (digest : Digest) (endings : List Ending) : Nat :=
  (endings.map fun ending => ending.manifest.mentions digest).sum

/-- A close is recorded for its message and for no other. -/
theorem sum_listings_ending? {ids : List MessageId} (nodup : ids.Nodup) {entry : Entry}
    (known : ∀ id, id ∉ ids → entry.ending? id = none) (digest : Digest) :
    (ids.map fun id => listings digest (entry.ending? id).toList).sum =
      (Item.records digest).measure entry := by
  rcases entry with ⟨call, answer⟩
  cases call with
  | closeMessage id total manifest summary =>
      cases answer with
      | error fault => simp [Entry.ending?, listings, Item.measure]
      | ok _ =>
          have member : id ∈ ids := by
            by_contra absent
            have none := known id absent
            rw [Entry.ending?, if_pos rfl] at none
            cases none
          rw [List.sum_map_eq_nsmul_single id _ fun other different _ => by
              simp [Entry.ending?, Ne.symm different, listings],
            List.count_eq_one_of_mem nodup member]
          simp [Entry.ending?, listings, Item.measure]
  | _ => simp [Entry.ending?, listings, Item.measure]

/-- What closes have recorded is the sum of what they have recorded for each message. -/
theorem count_records {chronicle : Chronicle} {ids : List MessageId} (nodup : ids.Nodup)
    (known : ∀ id, id ∉ ids → chronicle.endings id = []) (digest : Digest) :
    chronicle.count (.records digest) =
      (ids.map fun id => listings digest (chronicle.endings id)).sum := by
  induction chronicle with
  | nil => simp [endings, listings]
  | cons entry later inductionStep =>
      have split : ∀ id, endings (entry :: later) id =
          (entry.ending? id).toList ++ endings later id := by
        intro id
        rw [endings, endings, List.filterMap_cons]
        cases entry.ending? id <;> rfl
      have both : ∀ id, id ∉ ids → entry.ending? id = none ∧ endings later id = [] := by
        intro id absent
        rcases List.append_eq_nil_iff.mp ((split id).symm.trans (known id absent)) with
          ⟨first, rest⟩
        exact ⟨Option.toList_eq_nil_iff.mp first, rest⟩
      rw [count_cons, inductionStep fun id absent => (both id absent).2,
        ← sum_listings_ending? nodup fun id absent => (both id absent).1, ← List.sum_map_add]
      simp only [split, listings, List.map_append, List.sum_append]

end Chronicle

/-! ## What the engine remembers -/

/-- The number of additions of the chunk that was read. -/
def referencesIn : Except Fault StoredChunk → Nat
  | .ok chunk => chunk.references
  | .error _ => 0

/-- The manifest in the record that was read, if the message is closed. -/
def closedManifest : Except Fault MessageRecord → Manifest
  | .ok record => if record.closed then record.manifest else .empty
  | .error _ => .empty

namespace Ledger

variable {ledger : Ledger} {chronicle : Chronicle}

namespace Recalls

theorem referencesIn_getChunk (recalls : ledger.Recalls chronicle) (digest : Digest) :
    referencesIn (ledger.getChunk digest) = chronicle.count (.additions digest) := by
  rw [getChunk, recalls.chunks, Chronicle.held?, Chronicle.count_additions]
  cases chronicle.additions digest <;> rfl

/-- A message that was closed once at most has the manifest of its close. -/
theorem mentions_closedManifest (recalls : ledger.Recalls chronicle) {id : MessageId}
    (once : chronicle.count (.closes id) ≤ 1) (digest : Digest) :
    (closedManifest (ledger.getMessage id)).mentions digest =
      Chronicle.listings digest (chronicle.endings id) := by
  rw [Chronicle.count_closes] at once
  rw [getMessage, recalls.messages, Chronicle.record?]
  cases opening : chronicle.findSome? (Entry.opening? id) with
  | none =>
      have absent : id ∉ chronicle.issued := by
        rw [Chronicle.mem_issued_iff, Chronicle.record?, opening]
        exact Bool.false_ne_true
      rw [recalls.opened id absent]
      rfl
  | some opening =>
      rcases ended : chronicle.endings id with _ | ⟨ending, others⟩
      · rfl
      · rw [ended, List.length_cons] at once
        have none : others = [] := List.eq_nil_of_length_eq_zero (by omega)
        rw [none]
        exact (Nat.add_zero _).symm

theorem count_closes_pos (recalls : ledger.Recalls chronicle) {id : MessageId}
    {record : MessageRecord} (found : ledger.getMessage id = .ok record)
    (closed : record.closed = true) : 0 < chronicle.count (.closes id) := by
  rw [Chronicle.count_closes]
  rw [getMessage, recalls.messages, Chronicle.record?] at found
  cases opening : chronicle.findSome? (Entry.opening? id) with
  | none =>
      rw [opening] at found
      cases found
  | some opening =>
      rw [opening] at found
      rcases ended : chronicle.endings id with _ | ⟨ending, others⟩
      · rw [ended] at found
        cases found
        cases closed
      · exact Nat.succ_pos _

theorem getChunk_of_count_pos (recalls : ledger.Recalls chronicle) {digest : Digest}
    (added : 0 < chronicle.count (.additions digest)) :
    ∃ stored, ledger.getChunk digest = .ok stored := by
  rw [← recalls.referencesIn_getChunk] at added
  cases read : ledger.getChunk digest with
  | error fault =>
      rw [read] at added
      cases added
  | ok stored => exact ⟨stored, rfl⟩

/-- The messages that were opened are those that have a record. -/
theorem mem_issued_iff (recalls : ledger.Recalls chronicle) (id : MessageId) :
    id ∈ chronicle.issued ↔ ∃ record, ledger.getMessage id = .ok record := by
  rw [Chronicle.mem_issued_iff, ← recalls.messages, getMessage]
  cases ledger.messages.find? id <;> simp

end Recalls

namespace Matches

variable (same : ledger.Matches chronicle)

include same

theorem nodup_issued : chronicle.issued.Nodup :=
  same.issued ▸ MessageId.nodup_upTo ledger.last

theorem count_openings_le (id : MessageId) : chronicle.count (.openings id) ≤ 1 := by
  rw [Chronicle.count_openings]
  exact List.nodup_iff_count_le_one.mp same.nodup_issued id

/-- If no message is closed more often than it was opened, the closed records have the manifests of
all closes. -/
theorem sum_closedManifest
    (once : ∀ id, chronicle.count (.closes id) ≤ chronicle.count (.openings id))
    (digest : Digest) :
    (chronicle.issued.map fun id => (closedManifest (ledger.getMessage id)).mentions digest).sum =
      chronicle.count (.records digest) := by
  have each : ∀ id, (closedManifest (ledger.getMessage id)).mentions digest =
      Chronicle.listings digest (chronicle.endings id) := fun id =>
    same.recalls.mentions_closedManifest ((once id).trans (same.count_openings_le id)) digest
  simp only [each]
  exact (Chronicle.count_records same.nodup_issued same.recalls.opened digest).symm

/-- If every message that was opened has a closed record, then each was closed as often as it was
opened. -/
theorem count_closes_eq
    (once : ∀ id, chronicle.count (.closes id) ≤ chronicle.count (.openings id))
    (closed : ∀ id ∈ chronicle.issued, ∃ record, ledger.getMessage id = .ok record ∧
      record.closed = true) (id : MessageId) :
    chronicle.count (.closes id) = chronicle.count (.openings id) := by
  have least := once id
  have most := same.count_openings_le id
  by_cases opened : id ∈ chronicle.issued
  · rcases closed id opened with ⟨record, found, done⟩
    have positive := same.recalls.count_closes_pos found done
    omega
  · have never : chronicle.count (.openings id) = 0 :=
      (chronicle.count_openings id).trans (List.count_eq_zero.mpr opened)
    omega

/-- What the manifest of a closed record lists was recorded by closes. -/
theorem count_records_pos
    (once : ∀ id, chronicle.count (.closes id) ≤ chronicle.count (.openings id))
    {id : MessageId} {record : MessageRecord} {descriptor : Descriptor}
    (found : ledger.getMessage id = .ok record) (closed : record.closed = true)
    (listed : descriptor ∈ record.manifest.entries) :
    0 < chronicle.count (.records descriptor.digest) := by
  have opened : id ∈ chronicle.issued := (same.recalls.mem_issued_iff id).mpr ⟨record, found⟩
  calc 0 < record.manifest.mentions descriptor.digest := Manifest.mentions_pos listed
    _ = (closedManifest (ledger.getMessage id)).mentions descriptor.digest := by
      rw [found, closedManifest, if_pos closed]
    _ ≤ (chronicle.issued.map fun id =>
        (closedManifest (ledger.getMessage id)).mentions descriptor.digest).sum :=
      List.le_sum_of_mem (List.mem_map.mpr ⟨id, opened, rfl⟩)
    _ = chronicle.count (.records descriptor.digest) := same.sum_closedManifest once _

end Matches
end Ledger

/-- However many calls fail on their way, the engine matches the calls and answers that were
given. -/
theorem Host.FollowsAt.matches {host : Host κ σ} {key : κ} {Represents : σ → Ledger → Prop}
    (follows : host.FollowsAt key Represents) (requests : List Request) {state : σ}
    {ledger : Ledger} {chronicle : Chronicle} (represents : Represents state ledger)
    (same : ledger.Matches chronicle) :
    ∃ later, Represents (host.after key requests state) later ∧
      later.Matches (chronicle ++ host.dialogue key requests state) := by
  induction requests generalizing state ledger chronicle with
  | nil => exact ⟨ledger, represents, by rwa [dialogue, List.append_nil]⟩
  | cons request requests inductionStep =>
      rw [after, dialogue, List.append_cons]
      rcases follows request state ledger represents with ⟨fault, failed, still⟩ | ⟨equal, still⟩
      · rw [failed]
        exact inductionStep still (same.push_error request.call fault)
      · rw [equal]
        exact inductionStep still (same.push request.call)

end Store
end MailVault
