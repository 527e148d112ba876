import MailVault.Proofs.Store.Dialogue

/-!
# What a history of calls tells

A chronicle is a row of calls with their answers.  It tells, without any table, what a
store has to know: the bytes that were added under a digest, the first of which count;
the numbers that were given out; and for each of these the opening of its message and
the last close that succeeded.  So it tells what the next call has to be answered.

A ledger recalls a chronicle if its tables hold what the chronicle tells.  Then it
answers accordingly, and it recalls the chronicle also after the call is noted.  Only
the number of a new message is left open here, because callers who are interrupted by
others do not open their messages in the order of the numbers.
-/

namespace MailVault

universe u

theorem MessageRecord.close_close (record : MessageRecord) (total other : Nat)
    (manifest another : Manifest) (summary last : Summary) :
    (record.close total manifest summary).close other another last =
      record.close other another last := rfl

/-- Every member of a row is as it has to be after those before it. -/
def Throughout {α : Type u} (Holds : List α → α → Prop) (row : List α) : Prop :=
  ∀ (before : List α) (member : α) (after : List α), row = before ++ member :: after →
    Holds before member

section Throughout

variable {α : Type u} {Holds : List α → α → Prop}

theorem throughout_nil : Throughout Holds [] := by
  intro before member after split
  cases before <;> cases split

theorem Throughout.push {row : List α} {last : α} (earlier : Throughout Holds row)
    (here : Holds row last) : Throughout Holds (row ++ [last]) := by
  intro before member after split
  rcases List.eq_nil_or_concat after with rfl | ⟨rest, final, rfl⟩
  · rcases List.append_inj' split rfl with ⟨rfl, same⟩
    cases same
    exact here
  · have parts : row ++ [last] = (before ++ member :: rest) ++ [final] := by
      rw [split, List.append_assoc, List.cons_append, List.concat_eq_append]
    exact earlier before member rest (List.append_inj' parts rfl).1

end Throughout

namespace Store

/-- What a message is closed with. -/
structure Ending where
  total : Nat
  manifest : Manifest
  summary : Summary

namespace Entry

/-- The number that an entry gives out. -/
def issued? : Entry → Option MessageId
  | ⟨.openMessage _, .ok id⟩ => some id
  | _ => none

/-- The opening of a message, if the entry gives out its number. -/
def opening? (id : MessageId) : Entry → Option Opening
  | ⟨.openMessage opening, .ok other⟩ => if other = id then some opening else none
  | _ => none

/-- What an entry has closed a message with. -/
def ending? (id : MessageId) : Entry → Option Ending
  | ⟨.closeMessage other total manifest summary, .ok _⟩ =>
    if other = id then some ⟨total, manifest, summary⟩ else none
  | _ => none

/-- The bytes that an entry has added under a digest. -/
def addition? (digest : Digest) : Entry → Option Bytes
  | ⟨.addChunk other data, .ok _⟩ => if other = digest then some data else none
  | _ => none

theorem issued?_of_kind {β : Type} {call : Call β} (other : call.kind ≠ .openMessage)
    (answer : Except Fault β) : issued? ⟨call, answer⟩ = none := by
  cases call with
  | openMessage opening => exact absurd rfl other
  | _ => rfl

end Entry

/-- Calls with their answers, in their order. -/
abbrev Chronicle := List Entry

namespace Chronicle

def issued (chronicle : Chronicle) : List MessageId :=
  chronicle.filterMap Entry.issued?

/-- What a message was closed with, each time that this succeeded. -/
def endings (chronicle : Chronicle) (id : MessageId) : List Ending :=
  chronicle.filterMap (Entry.ending? id)

/-- The bytes that were added under a digest, each time. -/
def additions (chronicle : Chronicle) (digest : Digest) : List Bytes :=
  chronicle.filterMap (Entry.addition? digest)

/-- A record with the last of some endings, if there is one. -/
def conclude (record : MessageRecord) (endings : List Ending) : MessageRecord :=
  match endings.getLast? with
  | none => record
  | some ending => record.close ending.total ending.manifest ending.summary

/-- The record of a message: it is as it was opened, and then as it was closed last. -/
def record? (chronicle : Chronicle) (id : MessageId) : Option MessageRecord :=
  (chronicle.findSome? (Entry.opening? id)).map fun opening =>
    conclude (.opened id opening) (chronicle.endings id)

/-- A chunk: the bytes of its first addition and the number of all. -/
def held? (chronicle : Chronicle) (digest : Digest) : Option Held :=
  match chronicle.additions digest with
  | [] => none
  | first :: others => some ⟨first, others.length + 1⟩

/-- What the next call has to be answered. -/
def answerTo (chronicle : Chronicle) {β : Type} : Call β → Except Fault β
  | .start => .ok ()
  | .stop => .ok ()
  | .openMessage _ => .ok ⟨chronicle.issued.length + 1⟩
  | .closeMessage id total manifest _ =>
    if total ≠ manifest.totalSize then .error (.sizeMismatch total manifest.totalSize)
    else if id ∈ chronicle.issued then .ok ()
    else .error (.unknownMessage id)
  | .addChunk digest _ => .ok (decide (chronicle.additions digest ≠ []))
  | .getMessage id =>
    match chronicle.record? id with
    | none => .error (.unknownMessage id)
    | some record => .ok record
  | .getChunk digest =>
    match chronicle.held? digest with
    | none => .error (.unknownChunk digest)
    | some held => .ok ⟨digest, held.data, held.references⟩

/-- Every answer is the one that the calls before it determine. -/
def Exact (chronicle : Chronicle) : Prop :=
  Throughout (fun before (entry : Entry) => entry.answer = answerTo before entry.call) chronicle

/-! ## One more entry -/

theorem exact_nil : Exact [] := throughout_nil

theorem Exact.push {chronicle : Chronicle} (exact : chronicle.Exact) {entry : Entry}
    (answer : entry.answer = chronicle.answerTo entry.call) :
    Exact (chronicle ++ [entry]) :=
  Throughout.push exact answer

@[simp] theorem issued_push (chronicle : Chronicle) (entry : Entry) :
    issued (chronicle ++ [entry]) = chronicle.issued ++ entry.issued?.toList := by
  cases given : entry.issued? <;> simp [issued, given]

theorem endings_append (first second : Chronicle) (id : MessageId) :
    endings (first ++ second) id = first.endings id ++ second.endings id :=
  List.filterMap_append

@[simp] theorem endings_push (chronicle : Chronicle) (entry : Entry) (id : MessageId) :
    endings (chronicle ++ [entry]) id = chronicle.endings id ++ (entry.ending? id).toList := by
  cases given : entry.ending? id <;> simp [endings, given]

@[simp] theorem additions_push (chronicle : Chronicle) (entry : Entry) (digest : Digest) :
    additions (chronicle ++ [entry]) digest =
      chronicle.additions digest ++ (entry.addition? digest).toList := by
  cases given : entry.addition? digest <;> simp [additions, given]

theorem opening?_isSome_iff {entry : Entry} {id : MessageId} :
    (entry.opening? id).isSome = true ↔ entry.issued? = some id := by
  unfold Entry.issued? Entry.opening?
  split
  · rename_i opening other
    by_cases same : other = id <;> simp [same]
  · simp

/-- A number that was given out is one whose message has a record. -/
theorem mem_issued_iff {chronicle : Chronicle} {id : MessageId} :
    id ∈ chronicle.issued ↔ (chronicle.record? id).isSome = true := by
  rw [issued, List.mem_filterMap, record?, Option.isSome_map, List.findSome?_isSome_iff]
  simp only [opening?_isSome_iff]

/-- If no number is given out twice, a message has the opening that any entry tells. -/
theorem findSome?_opening {chronicle : Chronicle} (once : chronicle.issued.Nodup) {id : MessageId}
    {opening : Opening} (told : ⟨.openMessage opening, .ok id⟩ ∈ chronicle) :
    chronicle.findSome? (Entry.opening? id) = some opening := by
  have here : Entry.opening? id ⟨.openMessage opening, .ok id⟩ = some opening := if_pos rfl
  induction chronicle with
  | nil => cases told
  | cons entry later inductionStep =>
      rw [issued, List.filterMap_cons] at once
      rw [List.findSome?_cons]
      cases first : entry.opening? id with
      | none =>
          rcases List.mem_cons.mp told with same | told
          · rw [← same, here] at first
            cases first
          · apply inductionStep _ told
            cases given : entry.issued? with
            | none => rwa [given] at once
            | some other =>
                rw [given] at once
                exact once.of_cons
      | some other =>
          have given : entry.issued? = some id :=
            opening?_isSome_iff.mp (Option.isSome_of_eq_some first)
          rw [given] at once
          rcases List.mem_cons.mp told with same | told
          · rw [← same, here] at first
            exact first.symm
          · have again : id ∈ later.filterMap Entry.issued? :=
              List.mem_filterMap.mpr ⟨_, told, rfl⟩
            exact absurd again (List.nodup_cons.mp once).1

/-- A record tells how its message was opened and, if there was a close, what it was closed with
last. -/
theorem record?_cases {chronicle : Chronicle} {id : MessageId} {record : MessageRecord}
    (found : chronicle.record? id = some record) :
    ∃ opening, chronicle.findSome? (Entry.opening? id) = some opening ∧
      ((chronicle.endings id = [] ∧ record = .opened id opening) ∨
        ∃ ending ∈ chronicle.endings id, record =
          (MessageRecord.opened id opening).close ending.total ending.manifest
            ending.summary) := by
  rcases Option.map_eq_some_iff.mp found with ⟨opening, opened, rfl⟩
  refine ⟨opening, opened, ?_⟩
  rw [conclude]
  cases last : (chronicle.endings id).getLast? with
  | none => exact Or.inl ⟨List.getLast?_eq_none_iff.mp last, rfl⟩
  | some ending => exact Or.inr ⟨ending, List.mem_of_getLast? last, rfl⟩

/-- A message that was closed has the record of its last close, whatever it was closed with
before. -/
theorem record?_of_ended {chronicle : Chronicle} {id : MessageId} {opening : Opening}
    {ending : Ending} (opened : chronicle.findSome? (Entry.opening? id) = some opening)
    (last : (chronicle.endings id).getLast? = some ending) :
    chronicle.record? id = some
      ((MessageRecord.opened id opening).close ending.total ending.manifest ending.summary) := by
  rw [record?, opened, Option.map_some, conclude, last]

theorem record?_eq_none {chronicle : Chronicle} {id : MessageId}
    (fresh : id ∉ chronicle.issued) : chronicle.record? id = none := by
  rw [mem_issued_iff, Bool.not_eq_true, Option.isSome_eq_false_iff, Option.isNone_iff_eq_none]
    at fresh
  exact fresh

theorem record?_push_of_none {chronicle : Chronicle} {entry : Entry} {id : MessageId}
    (opening : entry.opening? id = none) (ending : entry.ending? id = none) :
    record? (chronicle ++ [entry]) id = chronicle.record? id := by
  rw [record?, record?, endings_push, ending, Option.toList_none, List.append_nil,
    List.findSome?_append, List.findSome?_singleton, opening, Option.or_none]

theorem record?_push_opening {chronicle : Chronicle} {id : MessageId}
    (fresh : id ∉ chronicle.issued) (unended : chronicle.endings id = []) (opening : Opening) :
    record? (chronicle ++ [⟨.openMessage opening, .ok id⟩]) id = some (.opened id opening) := by
  have absent : chronicle.findSome? (Entry.opening? id) = none :=
    Option.map_eq_none_iff.mp (record?_eq_none fresh)
  have here : Entry.opening? id ⟨.openMessage opening, .ok id⟩ = some opening := if_pos rfl
  rw [record?, endings_push, unended, List.findSome?_append, List.findSome?_singleton, absent,
    here]
  rfl

theorem record?_push_ending {chronicle : Chronicle} {id : MessageId} {record : MessageRecord}
    (found : chronicle.record? id = some record) (total : Nat) (manifest : Manifest)
    (summary : Summary) :
    record? (chronicle ++ [⟨.closeMessage id total manifest summary, .ok ()⟩]) id =
      some (record.close total manifest summary) := by
  have here : Entry.ending? id ⟨.closeMessage id total manifest summary, .ok ()⟩ =
      some ⟨total, manifest, summary⟩ := if_pos rfl
  rcases Option.map_eq_some_iff.mp found with ⟨opening, opened, rfl⟩
  rw [record?, endings_push, here, List.findSome?_append, opened, Option.some_or,
    Option.map_some, Option.toList_some, conclude, List.getLast?_concat, conclude]
  cases (chronicle.endings id).getLast? with
  | none => rfl
  | some earlier => rw [MessageRecord.close_close]

theorem held?_push_of_none {chronicle : Chronicle} {entry : Entry} {digest : Digest}
    (addition : entry.addition? digest = none) :
    held? (chronicle ++ [entry]) digest = chronicle.held? digest := by
  rw [held?, held?, additions_push, addition, Option.toList_none, List.append_nil]

theorem held?_push_addition (chronicle : Chronicle) (digest : Digest) (data : Bytes)
    (known : Bool) :
    held? (chronicle ++ [⟨.addChunk digest data, .ok known⟩]) digest =
      some (match chronicle.held? digest with
        | none => ⟨data, 1⟩
        | some held => ⟨held.data, held.references + 1⟩) := by
  have here : Entry.addition? digest ⟨.addChunk digest data, .ok known⟩ = some data := if_pos rfl
  rw [held?, held?, additions_push, here]
  cases chronicle.additions digest with
  | nil => rfl
  | cons first others => simp

theorem additions_eq_nil_iff {chronicle : Chronicle} {digest : Digest} :
    chronicle.additions digest = [] ↔ chronicle.held? digest = none := by
  rw [held?]
  cases chronicle.additions digest <;> simp

end Chronicle

/-! ## Ledgers that recall a chronicle -/

namespace Ledger

/-- The tables of a ledger hold what a chronicle tells. -/
structure Recalls (ledger : Ledger) (chronicle : Chronicle) : Prop where
  messages : ∀ id, ledger.messages.find? id = chronicle.record? id
  chunks : ∀ digest, ledger.chunks.find? digest = chronicle.held? digest
  /-- Only messages that were opened were closed. -/
  opened : ∀ id, id ∉ chronicle.issued → chronicle.endings id = []

theorem recalls_nil : Recalls Ledger.empty [] where
  messages _ := rfl
  chunks _ := rfl
  opened _ _ := rfl

namespace Recalls

variable {ledger : Ledger} {chronicle : Chronicle}

/-- A call that opens no message is answered as the chronicle determines. -/
theorem answer (recalls : ledger.Recalls chronicle) {β : Type} {call : Call β}
    (other : call.kind ≠ .openMessage) : (ledger.call call).1 = chronicle.answerTo call := by
  cases call with
  | start => rfl
  | stop => rfl
  | openMessage opening => exact absurd rfl other
  | closeMessage id total manifest summary =>
      simp only [Ledger.call, closeMessage, checkTotal, Chronicle.answerTo,
        Chronicle.mem_issued_iff, ← recalls.messages]
      by_cases right : total = manifest.totalSize
      · rw [if_pos right, if_neg (not_not_intro right)]
        cases ledger.messages.find? id <;> rfl
      · rw [if_neg right, if_pos right]
  | addChunk digest data =>
      simp only [Ledger.call, addChunk, Chronicle.answerTo, ne_eq,
        Chronicle.additions_eq_nil_iff, ← recalls.chunks]
      cases ledger.chunks.find? digest <;> rfl
  | getMessage id =>
      simp only [Ledger.call, getMessage, Chronicle.answerTo, ← recalls.messages]
      cases ledger.messages.find? id <;> rfl
  | getChunk digest =>
      simp only [Ledger.call, getChunk, Chronicle.answerTo, ← recalls.chunks]
      cases ledger.chunks.find? digest <;> rfl

/-- An entry that tells nothing changes nothing. -/
theorem push_silent (recalls : ledger.Recalls chronicle) {entry : Entry}
    (opening : ∀ id, entry.opening? id = none) (ending : ∀ id, entry.ending? id = none)
    (addition : ∀ digest, entry.addition? digest = none) :
    ledger.Recalls (chronicle ++ [entry]) where
  messages id := by
    rw [Chronicle.record?_push_of_none (opening id) (ending id)]
    exact recalls.messages id
  chunks digest := by
    rw [Chronicle.held?_push_of_none (addition digest)]
    exact recalls.chunks digest
  opened id fresh := by
    rw [Chronicle.issued_push, List.mem_append, not_or] at fresh
    rw [Chronicle.endings_push, recalls.opened id fresh.1, ending id]
    rfl

theorem push_opening (recalls : ledger.Recalls chronicle) {id : MessageId}
    (fresh : id ∉ chronicle.issued) (opening : Opening) (last : Nat) :
    Recalls
      { ledger with
        last := last
        messages := ledger.messages.insert id (.opened id opening) }
      (chronicle ++ [⟨.openMessage opening, .ok id⟩]) where
  messages other := by
    rw [Table.find?_insert]
    by_cases same : other = id
    · subst same
      rw [if_pos rfl]
      exact (Chronicle.record?_push_opening fresh (recalls.opened other fresh) opening).symm
    · have different : ¬ id = other := fun equal => same equal.symm
      have none : Entry.opening? other ⟨.openMessage opening, .ok id⟩ = none := if_neg different
      rw [if_neg same, Chronicle.record?_push_of_none none rfl]
      exact recalls.messages other
  chunks digest := by
    rw [Chronicle.held?_push_of_none rfl]
    exact recalls.chunks digest
  opened other fresh := by
    rw [Chronicle.issued_push, List.mem_append, not_or] at fresh
    rw [Chronicle.endings_push, recalls.opened other fresh.1]
    rfl

theorem push_ending (recalls : ledger.Recalls chronicle) {id : MessageId}
    {record : MessageRecord} (found : ledger.messages.find? id = some record) (total : Nat)
    (manifest : Manifest) (summary : Summary) :
    Recalls
      { ledger with
        messages := ledger.messages.insert id (record.close total manifest summary) }
      (chronicle ++ [⟨.closeMessage id total manifest summary, .ok ()⟩]) where
  messages other := by
    rw [Table.find?_insert]
    by_cases same : other = id
    · subst same
      rw [if_pos rfl]
      rw [recalls.messages] at found
      exact (Chronicle.record?_push_ending found total manifest summary).symm
    · have different : ¬ id = other := fun equal => same equal.symm
      have none : Entry.ending? other ⟨.closeMessage id total manifest summary, .ok ()⟩ = none :=
        if_neg different
      rw [if_neg same, Chronicle.record?_push_of_none rfl none]
      exact recalls.messages other
  chunks digest := by
    rw [Chronicle.held?_push_of_none rfl]
    exact recalls.chunks digest
  opened other fresh := by
    rw [Chronicle.issued_push, List.mem_append, not_or] at fresh
    have different : ¬ id = other := by
      rintro rfl
      apply fresh.1
      rw [Chronicle.mem_issued_iff, ← recalls.messages, found]
      rfl
    have none : Entry.ending? other ⟨.closeMessage id total manifest summary, .ok ()⟩ = none :=
      if_neg different
    rw [Chronicle.endings_push, recalls.opened other fresh.1, none]
    rfl

theorem push_addition (recalls : ledger.Recalls chronicle) (digest : Digest) (data : Bytes)
    (known : Bool) :
    (ledger.addChunk digest data).2.Recalls (chronicle ++ [⟨.addChunk digest data, .ok known⟩])
    where
  messages id := by
    rw [(ledger.addChunk_frame digest data).2, Chronicle.record?_push_of_none rfl rfl]
    exact recalls.messages id
  chunks other := by
    by_cases same : other = digest
    · subst same
      rw [Chronicle.held?_push_addition, ← recalls.chunks, addChunk]
      cases ledger.chunks.find? other <;> exact (Table.find?_insert _ _ _ _).trans (if_pos rfl)
    · have different : ¬ digest = other := fun equal => same equal.symm
      have none : Entry.addition? other ⟨.addChunk digest data, .ok known⟩ = none :=
        if_neg different
      rw [Chronicle.held?_push_of_none none, ← recalls.chunks, addChunk]
      cases ledger.chunks.find? digest <;> exact (Table.find?_insert _ _ _ _).trans (if_neg same)
  opened id fresh := by
    rw [Chronicle.issued_push, List.mem_append, not_or] at fresh
    rw [Chronicle.endings_push, recalls.opened id fresh.1]
    rfl

/-- After a call that opens no message, the ledger recalls the call with its answer. -/
theorem push (recalls : ledger.Recalls chronicle) {β : Type} {call : Call β}
    (other : call.kind ≠ .openMessage) :
    (ledger.call call).2.Recalls (chronicle ++ [⟨call, (ledger.call call).1⟩]) := by
  cases call with
  | start => exact recalls.push_silent (fun _ => rfl) (fun _ => rfl) fun _ => rfl
  | stop => exact recalls.push_silent (fun _ => rfl) (fun _ => rfl) fun _ => rfl
  | openMessage opening => exact absurd rfl other
  | closeMessage id total manifest summary =>
      simp only [Ledger.call]
      rcases ledger.closeMessage_cases id total manifest summary with
        ⟨fault, refused⟩ | ⟨record, right, found, closed⟩
      · rw [refused]
        exact recalls.push_silent (fun _ => rfl) (fun _ => rfl) fun _ => rfl
      · rw [closed]
        exact recalls.push_ending found total manifest summary
  | addChunk digest data =>
      rcases ledger.addChunk_ok digest data with ⟨known, ok⟩
      simp only [Ledger.call, ok]
      exact recalls.push_addition digest data known
  | getMessage id =>
      refine recalls.push_silent (fun _ => ?_) (fun _ => ?_) fun _ => ?_ <;>
        cases (ledger.call (.getMessage id)).1 <;> rfl
  | getChunk digest =>
      refine recalls.push_silent (fun _ => ?_) (fun _ => ?_) fun _ => ?_ <;>
        cases (ledger.call (.getChunk digest)).1 <;> rfl

end Recalls
end Ledger
end Store
end MailVault
