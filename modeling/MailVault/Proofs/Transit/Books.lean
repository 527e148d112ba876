import Mathlib.Algebra.Order.BigOperators.Group.Finset
import MailVault.Proofs.Store.Notes
import MailVault.Proofs.Transit.Calls

/-!
# The books of a shared engine

A chunk is counted in its engine and listed in the manifest of a buffer, and these are
two effects.  A manifest goes from its buffer into the record of a message when the
message is closed; it is lost if the close fails, if another message is opened in its
place, or if the splitter is dropped.

Splitters that share an engine may call it in any order, also while others are in the
middle of their own calls.  A party is one splitter with what it is asked to do.  It is
looked at alone, with the answers that it got: its additions are in its manifests, and
every message that it opened was closed, was given up or is still open.  Nothing about
the others is needed for this.  Since the answers are those of one engine, the counts of
all parties together are what the engine remembers.

The parties have only this engine, so it has no name for them.
-/

namespace MailVault
namespace Transit

open Store (Chronicle EngineKey Fault Host Item Ledger Note Noted Numbered Request Vault
  closedManifest referencesIn shareOf told)

variable {σ : Type}

/-! ## Parties -/

/-- Nothing is pending and nothing was stored. -/
def Buffer.IsVacant {κ : Type} (buffer : Buffer κ) : Prop :=
  buffer.pending = [] ∧ buffer.manifest = .empty

/-- One thing that a splitter is asked to do.  What the envelope of its message says at that moment
comes with it. -/
inductive Task where
  | openMessage (opening : Opening)
  | write (metadata : Option Metadata) (data : Bytes)
  | closeMessage (queueId : String)

/-- A manifest that goes to no record because the message is not closed any more, if there is a
message. -/
def Session.forgone (session : Session) (manifest : Manifest) : List Manifest :=
  match session.message with
  | none => []
  | some _ => [manifest]

/-- A splitter at work, with the notes of its calls. -/
structure Worker (σ : Type) where
  splitter : Splitter Unit
  memory : Noted σ
  /-- The manifests that have left the buffer and that no close has recorded. -/
  lost : List Manifest

namespace Worker

/-- Do a task.  An opening gives up what the open message has so far, and a close that fails gives
up what the flush has left. -/
def perform (worker : Worker σ) (host : Host Unit σ) : Task → Worker σ
  | .openMessage opening =>
    match worker.splitter.openMessage host.noted opening worker.memory with
    | (_, splitter, memory) =>
      ⟨splitter, memory,
        worker.lost ++ worker.splitter.session.forgone worker.splitter.buffer.manifest⟩
  | .write metadata data =>
    match worker.splitter.accept host.noted metadata data worker.memory with
    | (_, splitter, memory) => ⟨splitter, memory, worker.lost⟩
  | .closeMessage queueId =>
    match worker.splitter.closeMessage host.noted queueId worker.memory with
    | (.ok _, splitter, memory) => ⟨splitter, memory, worker.lost⟩
    | (.error _, splitter, memory) =>
      let flushed := (worker.splitter.buffer.flush host.noted worker.memory).2.1
      ⟨splitter, memory, worker.lost ++ worker.splitter.session.forgone flushed.manifest⟩

def run (worker : Worker σ) (host : Host Unit σ) (tasks : List Task) : Worker σ :=
  tasks.foldl (fun worker task => worker.perform host task) worker

end Worker

/-- A splitter that is built with a vacant buffer of its own, what it is asked to do, and whether it
is dropped in the end. -/
structure Party where
  buffer : Buffer Unit
  isVacant : buffer.IsVacant
  tasks : List Task
  isDropped : Bool

namespace Party

variable (party : Party) (share : List Note)

/-- The splitter after its tasks, if its calls get the answers in its share of the minutes. -/
def worker : Worker (List Note) :=
  Worker.run ⟨.withBuffer () party.buffer, ⟨share, []⟩, []⟩ .scripted party.tasks

/-- Answered in this way, the splitter makes just the calls in its share.  It may be in the middle
of a task: then it is seen as if all that it has still to ask for failed, which leaves its buffer as
it is now. -/
def TakesPart : Prop :=
  ∃ outstanding : List Note, (∀ note ∈ outstanding, note.entry.isFault = true) ∧
    (party.worker share).memory.notes = share ++ outstanding

/-- The manifest in the buffer of the splitter, if it is still there. -/
def live : Manifest :=
  if party.isDropped then .empty else (party.worker share).splitter.buffer.manifest

def discarded : List Manifest :=
  (party.worker share).lost ++
    if party.isDropped then [(party.worker share).splitter.buffer.manifest] else []

end Party

/-- How often some manifests list a digest. -/
def mentionsIn (digest : Digest) (manifests : List Manifest) : Nat :=
  (manifests.map fun manifest => manifest.mentions digest).sum

@[simp] theorem mentionsIn_append (digest : Digest) (first second : List Manifest) :
    mentionsIn digest (first ++ second) = mentionsIn digest first + mentionsIn digest second := by
  simp [mentionsIn]

@[simp] theorem mentionsIn_singleton (digest : Digest) (manifest : Manifest) :
    mentionsIn digest [manifest] = manifest.mentions digest := by
  simp [mentionsIn]

@[simp] theorem mentionsIn_nil (digest : Digest) : mentionsIn digest [] = 0 := rfl

/-! ## Additions along a course -/

/-- Between two chronicles, additions succeeded just as a manifest has grown, and no opening and no
close did. -/
structure Grows (before after : Manifest) (chronicle later : Chronicle) : Prop where
  additions : ∀ digest, later.count (.additions digest) + before.mentions digest =
    chronicle.count (.additions digest) + after.mentions digest
  others : ∀ item, (∀ digest, item ≠ .additions digest) →
    later.count item = chronicle.count item

namespace Grows

variable {before middle after : Manifest} {chronicle later last : Chronicle}

theorem refl (manifest : Manifest) (chronicle : Chronicle) :
    Grows manifest manifest chronicle chronicle :=
  ⟨fun _ => rfl, fun _ _ => rfl⟩

theorem trans (first : Grows before middle chronicle later)
    (second : Grows middle after later last) : Grows before after chronicle last where
  additions digest := by
    have earlier := first.additions digest
    have further := second.additions digest
    omega
  others item other := (second.others item other).trans (first.others item other)

theorem of_error (manifest : Manifest) (chronicle : Chronicle) {β : Type} (call : Store.Call β)
    (fault : Fault) : Grows manifest manifest chronicle (chronicle ++ [⟨call, .error fault⟩]) := by
  constructor <;> simp

/-- An addition that succeeds comes with the descriptor that lists it. -/
theorem of_addition (manifest : Manifest) (chronicle : Chronicle) (descriptor : Descriptor)
    (data : Bytes) (known : Bool) : Grows manifest (manifest.push descriptor) chronicle
      (chronicle ++ [⟨.addChunk descriptor.digest data, .ok known⟩]) where
  additions digest := by
    simp only [Chronicle.count_push, Item.measure, Manifest.mentions_push]
    omega
  others item other := by
    rw [Chronicle.count_push]
    cases item with
    | additions digest => exact absurd rfl (other digest)
    | _ => rfl

end Grows

/-- A deposit that succeeds adds the pending chunk, and one that fails adds nothing. -/
theorem Buffer.deposit_grows {κ : Type} (host : Host κ σ) (buffer : Buffer κ) (state : Noted σ)
    (manifest : Manifest) :
    (∃ fault, (buffer.deposit host.noted state).1 = .error fault ∧
      Grows manifest manifest state.chronicle
        (buffer.deposit host.noted state).2.chronicle) ∨
    ((buffer.deposit host.noted state).1 = .ok () ∧
      Grows manifest (manifest.push buffer.descriptor) state.chronicle
        (buffer.deposit host.noted state).2.chronicle) := by
  unfold deposit
  cases buffer.store with
  | none => exact Or.inl ⟨.notInitialized, rfl, .refl _ _⟩
  | some store =>
      have noted := host.chronicle_noted store
        (.addChunk (Digest.ofHasher buffer.hasher) buffer.pending) state
      simp only
      rcases called : host.noted.call store
        (.addChunk (Digest.ofHasher buffer.hasher) buffer.pending) state with ⟨result, now⟩
      rw [called] at noted
      cases result with
      | error fault =>
          refine Or.inl ⟨fault, rfl, ?_⟩
          rw [noted]
          exact .of_error _ _ _ fault
      | ok known =>
          refine Or.inr ⟨rfl, ?_⟩
          rw [noted]
          exact .of_addition manifest _ buffer.descriptor _ known

/-- What succeeds along a course is what the manifest of the buffer grows by. -/
theorem Course.grows {κ : Type} {host : Host κ σ} {buffer later : Buffer κ}
    {state now : Noted σ} {taken : Bytes}
    (course : Course host.noted buffer state taken later now) :
    Grows buffer.manifest later.manifest state.chronicle now.chronicle := by
  induction course with
  | stay => exact .refl _ _
  | append _ _ _ inductionStep => exact inductionStep
  | @refused taken later now after fault before deposited inductionStep =>
      have deposit := later.deposit_grows host now later.manifest
      rw [deposited] at deposit
      rcases deposit with ⟨_, _, grows⟩ | ⟨ok, _⟩
      · exact inductionStep.trans grows
      · cases ok
  | @stored taken later now after before some deposited inductionStep =>
      have deposit := later.deposit_grows host now later.manifest
      rw [deposited] at deposit
      rcases deposit with ⟨_, failed, _⟩ | ⟨_, grows⟩
      · cases failed
      · exact inductionStep.trans grows
  | relabelled _ _ inductionStep => exact inductionStep

/-! ## What a party knows of itself -/

/-- The books of one splitter.  What was added is in a manifest, and what was opened was closed,
was given up with its manifest or is still open. -/
structure Books (chronicle : Chronicle) (session : Session) (manifest : Manifest)
    (lost : List Manifest) : Prop where
  vacant : session.message = none → manifest = .empty
  additions : ∀ digest, chronicle.count (.additions digest) =
    chronicle.count (.records digest) + manifest.mentions digest + mentionsIn digest lost
  messages : ∃ forgone : List MessageId, forgone.length = lost.length ∧
    ∀ id, chronicle.count (.openings id) =
      chronicle.count (.closes id) + (forgone ++ session.message.toList).count id

namespace Books

variable {chronicle later : Chronicle} {session : Session} {manifest : Manifest}
  {lost : List Manifest}

theorem grow (books : Books chronicle session manifest lost) {after : Manifest}
    (grows : Grows manifest after chronicle later) {further : Session}
    (message : further.message = session.message)
    (vacant : session.message = none → after = .empty) : Books later further after lost where
  vacant none := vacant (message.symm.trans none)
  additions digest := by
    have earlier := books.additions digest
    have more := grows.additions digest
    have same := grows.others (.records digest) nofun
    omega
  messages := by
    rcases books.messages with ⟨forgone, length, counts⟩
    refine ⟨forgone, length, fun id => ?_⟩
    rw [grows.others (.openings id) nofun, grows.others (.closes id) nofun, message]
    exact counts id

theorem giveUp (books : Books chronicle session manifest lost) {idle : Session}
    (none : idle.message = none) :
    Books chronicle idle .empty (lost ++ session.forgone manifest) where
  vacant _ := rfl
  additions digest := by
    have earlier := books.additions digest
    rw [mentionsIn_append, Manifest.mentions_empty, Session.forgone]
    cases message : session.message with
    | none =>
        rw [books.vacant message, Manifest.mentions_empty] at earlier
        rw [mentionsIn_nil]
        omega
    | some id =>
        rw [mentionsIn_singleton]
        omega
  messages := by
    rcases books.messages with ⟨forgone, length, counts⟩
    refine ⟨forgone ++ session.message.toList, ?_, fun id => ?_⟩
    · rw [List.length_append, List.length_append, length, Session.forgone]
      cases session.message <;> rfl
    · rw [none, Option.toList_none, List.append_nil]
      exact counts id

/-- A new message is opened, if there is none and the store gives it a number. -/
theorem openMessage (books : Books chronicle session .empty lost)
    (none : session.message = none) (opening : Opening) (answer : Except Fault MessageId) :
    Books (chronicle ++ [⟨.openMessage opening, answer⟩]) (.started answer) .empty lost := by
  cases answer with
  | error fault => exact books.grow (.of_error _ _ _ fault) none.symm fun _ => rfl
  | ok id =>
      refine ⟨fun _ => rfl, fun digest => ?_, ?_⟩
      · simp only [Chronicle.count_push, Item.measure]
        exact books.additions digest
      · rcases books.messages with ⟨forgone, length, counts⟩
        refine ⟨forgone, length, fun other => ?_⟩
        have earlier := counts other
        rw [none, Option.toList_none, List.append_nil] at earlier
        have opened : (Session.started (.ok id)).message.toList = [id] := rfl
        simp only [Chronicle.count_push, Item.measure, opened, List.count_append,
          List.count_singleton, beq_iff_eq]
        omega

/-- The message is closed with its manifest. -/
theorem record (books : Books chronicle session manifest lost) {id : MessageId}
    (message : session.message = some id) (total : Nat) (summary : Summary) {idle : Session}
    (none : idle.message = none) :
    Books (chronicle ++ [⟨.closeMessage id total manifest summary, .ok ()⟩]) idle .empty lost where
  vacant _ := rfl
  additions digest := by
    have earlier := books.additions digest
    simp only [Chronicle.count_push, Item.measure, Manifest.mentions_empty]
    omega
  messages := by
    rcases books.messages with ⟨forgone, length, counts⟩
    refine ⟨forgone, length, fun other => ?_⟩
    have earlier := counts other
    simp only [message, Option.toList_some, List.count_append, List.count_singleton,
      beq_iff_eq] at earlier
    simp only [Chronicle.count_push, Item.measure, none, Option.toList_none, List.append_nil]
    omega

end Books

/-- The books of a worker are right, and its buffer is empty if it has no message. -/
structure Worker.InOrder (worker : Worker σ) : Prop where
  books : Books worker.memory.chronicle worker.splitter.session worker.splitter.buffer.manifest
    worker.lost
  pending : worker.splitter.session.message = none → worker.splitter.buffer.pending = []

namespace Worker.InOrder

variable {worker : Worker σ} (order : worker.InOrder) (host : Host Unit σ)

include order

theorem openMessage (opening : Opening) :
    (worker.perform host (.openMessage opening)).InOrder := by
  have givenUp : Books worker.memory.chronicle .idle .empty
      (worker.lost ++ worker.splitter.session.forgone worker.splitter.buffer.manifest) :=
    order.books.giveUp rfl
  simp only [perform, Splitter.openMessage_eq]
  refine ⟨?_, fun _ => rfl⟩
  rw [host.chronicle_noted]
  exact givenUp.openMessage rfl opening _

/-- A write lets the manifest grow if there is a message, and changes nothing otherwise. -/
theorem write (metadata : Option Metadata) (data : Bytes) :
    (worker.perform host (.write metadata data)).InOrder := by
  rcases worker.splitter.accept_moves host.noted metadata data worker.memory with
    ⟨taken, _, moves⟩
  cases message : worker.splitter.session.message with
  | none =>
      have still : worker.splitter.accept host.noted metadata data worker.memory =
          (.error .missingContext, worker.splitter, worker.memory) := by
        simp only [Splitter.accept, message]
      simp only [perform, still]
      exact order
  | some id =>
      have some := moves.message.trans message
      simp only [perform]
      refine ⟨order.books.grow moves.course.grows moves.message fun none => ?_, fun none => ?_⟩
      · rw [message] at none
        cases none
      · rw [some] at none
        cases none

theorem closeMessage (queueId : String) :
    (worker.perform host (.closeMessage queueId)).InOrder := by
  have grows := (worker.splitter.buffer.flush_course host.noted worker.memory).grows
  have vacant : worker.splitter.session.message = none →
      (worker.splitter.buffer.flush host.noted worker.memory).2.1.manifest = .empty := by
    intro none
    rw [Buffer.flush, if_pos (order.pending none)]
    exact order.books.vacant none
  rcases worker.splitter.closeMessage_flushed host.noted queueId worker.memory with
    ⟨closing, phase, after⟩
  simp only [perform]
  generalize worker.splitter.buffer.flush host.noted worker.memory = flushing at *
  generalize worker.splitter.closeMessage host.noted queueId worker.memory = done at *
  rcases flushing with ⟨_, buffer, now⟩
  rcases done with ⟨result, splitter, memory⟩
  simp only at closing after grows vacant
  subst after
  have flushed : Books now.chronicle worker.splitter.session buffer.manifest worker.lost :=
    order.books.grow grows rfl vacant
  cases closing with
  | given fault => exact ⟨flushed.giveUp rfl, fun _ => rfl⟩
  | without pending none =>
      rw [vacant none] at flushed
      exact ⟨flushed.grow (.refl _ _) none.symm fun _ => rfl, fun _ => rfl⟩
  | called id pending message =>
      have noted := host.chronicle_noted worker.splitter.store
        (.closeMessage id worker.splitter.session.written buffer.manifest
          (worker.splitter.session.summary queueId)) now
      generalize host.noted.call worker.splitter.store
        (.closeMessage id worker.splitter.session.written buffer.manifest
          (worker.splitter.session.summary queueId)) now = called at *
      rcases called with ⟨answer, finish⟩
      cases answer with
      | error fault =>
          refine ⟨?_, fun _ => rfl⟩
          simp only [noted]
          exact (flushed.grow (.of_error _ _ _ fault) rfl vacant).giveUp rfl
      | ok _ =>
          refine ⟨?_, fun _ => rfl⟩
          simp only [noted]
          exact flushed.record message _ _ rfl

/-- Every task leaves the books in order. -/
theorem perform (task : Task) : (worker.perform host task).InOrder := by
  cases task with
  | openMessage opening => exact order.openMessage host opening
  | write metadata data => exact order.write host metadata data
  | closeMessage queueId => exact order.closeMessage host queueId

theorem run (tasks : List Task) : (worker.run host tasks).InOrder := by
  induction tasks generalizing worker with
  | nil => exact order
  | cons task tasks inductionStep => exact inductionStep (order.perform host task)

end Worker.InOrder

namespace Party

variable (party : Party) (share : List Note)

theorem inOrder : (party.worker share).InOrder := by
  have start : Worker.InOrder
      ⟨.withBuffer () party.buffer, ⟨share, []⟩, ([] : List Manifest)⟩ := by
    refine ⟨⟨fun _ => party.isVacant.2, fun digest => ?_, [], rfl, fun _ => rfl⟩,
      fun _ => party.isVacant.1⟩
    have vacant : (Splitter.withBuffer () party.buffer).buffer.manifest = .empty :=
      party.isVacant.2
    rw [vacant]
    rfl
  exact start.run .scripted party.tasks

/-- The additions of a party are in the manifests of its closes, in its buffer or given up. -/
theorem additions_eq (digest : Digest) :
    (party.worker share).memory.chronicle.count (.additions digest) =
      (party.worker share).memory.chronicle.count (.records digest) +
        (party.live share).mentions digest + mentionsIn digest (party.discarded share) := by
  have books := (party.inOrder share).books.additions digest
  cases dropped : party.isDropped <;> simp [live, discarded, dropped] <;> omega

theorem closes_le (id : MessageId) :
    (party.worker share).memory.chronicle.count (.closes id) ≤
      (party.worker share).memory.chronicle.count (.openings id) := by
  rcases (party.inOrder share).books.messages with ⟨forgone, _, counts⟩
  rw [counts id]
  exact Nat.le_add_right _ _

/-- A party that has closed every message that it has opened has nothing in its buffer and has
given up nothing. -/
theorem nothing_left (closed : ∀ id,
    (party.worker share).memory.chronicle.count (.closes id) =
      (party.worker share).memory.chronicle.count (.openings id)) (digest : Digest) :
    (party.live share).mentions digest = 0 ∧ mentionsIn digest (party.discarded share) = 0 := by
  have books := (party.inOrder share).books
  rcases books.messages with ⟨forgone, length, counts⟩
  have none_open : forgone ++ (party.worker share).splitter.session.message.toList = [] := by
    apply List.eq_nil_iff_forall_not_mem.mpr
    intro id member
    have listed := List.count_pos_iff.mpr member
    have opened := counts id
    have same := closed id
    omega
  rcases List.append_eq_nil_iff.mp none_open with ⟨none_forgone, no_message⟩
  have vacant := books.vacant (Option.toList_eq_nil_iff.mp no_message)
  have lost : (party.worker share).lost = [] := by
    apply List.eq_nil_of_length_eq_zero
    rw [← length, none_forgone, List.length_nil]
  cases dropped : party.isDropped <;> simp [live, discarded, dropped, vacant, lost]

variable {party share}

theorem TakesPart.count_eq (takesPart : party.TakesPart share) (item : Item) :
    (party.worker share).memory.chronicle.count item =
      Chronicle.count item (share.map Note.entry) := by
  rcases takesPart with ⟨outstanding, failed, notes⟩
  rw [Noted.chronicle, notes, List.map_append, Chronicle.count_append,
    Chronicle.count_of_faults item failed, Nat.add_zero]

end Party

/-! ## What all parties know together -/

section Together

variable {ι : Type} [Fintype ι] [DecidableEq ι] {parties : ι → Party} {minutes : List (ι × Note)}
  (shared : ∀ maker, (parties maker).TakesPart (shareOf maker minutes))

include shared

theorem count_told (item : Item) : (told minutes).count item =
    ∑ maker, ((parties maker).worker (shareOf maker minutes)).memory.chronicle.count item := by
  rw [Chronicle.count_shares]
  exact Finset.sum_congr rfl fun maker _ => ((shared maker).count_eq item).symm

/-- All additions are in manifests that were recorded, are in a buffer or were given up. -/
theorem additions_told (digest : Digest) : (told minutes).count (.additions digest) =
    (told minutes).count (.records digest) +
      ∑ maker, ((parties maker).live (shareOf maker minutes)).mentions digest +
      ∑ maker, mentionsIn digest ((parties maker).discarded (shareOf maker minutes)) := by
  rw [count_told shared, count_told shared, ← Finset.sum_add_distrib, ← Finset.sum_add_distrib]
  exact Finset.sum_congr rfl fun maker _ => (parties maker).additions_eq _ digest

theorem closes_told_le (id : MessageId) :
    (told minutes).count (.closes id) ≤ (told minutes).count (.openings id) := by
  rw [count_told shared, count_told shared]
  exact Finset.sum_le_sum fun maker _ => (parties maker).closes_le _ id

/-- If every message that was opened was closed, then nothing is in a buffer and nothing was given
up: a party could not have closed the message of another. -/
theorem nothing_left_of_closed
    (closed : ∀ id, (told minutes).count (.closes id) = (told minutes).count (.openings id))
    (digest : Digest) :
    ∑ maker, ((parties maker).live (shareOf maker minutes)).mentions digest = 0 ∧
      ∑ maker, mentionsIn digest ((parties maker).discarded (shareOf maker minutes)) = 0 := by
  have each : ∀ maker, ((parties maker).live (shareOf maker minutes)).mentions digest = 0 ∧
      mentionsIn digest ((parties maker).discarded (shareOf maker minutes)) = 0 := by
    intro maker
    apply (parties maker).nothing_left
    intro id
    have sums := closed id
    rw [count_told shared, count_told shared] at sums
    exact (Finset.sum_eq_sum_iff_of_le fun other _ => (parties other).closes_le _ id).mp sums
      maker (Finset.mem_univ maker)
  exact ⟨Finset.sum_eq_zero fun maker _ => (each maker).1,
    Finset.sum_eq_zero fun maker _ => (each maker).2⟩

end Together

/-- Splitters share an engine that was new, and their calls reach it in any order, also while others
are in the middle of a task; any call may fail before it reaches the engine.  Then for every digest
the number of its additions is how often the closed records, the buffers and the manifests that were
given up list it.  Each message that was opened is counted once, and these are all that have a
record.  So no chunk that a closed record lists is missing, and once all records are closed, they
list each digest as often as it was added. -/
theorem references_accounted {ι : Type} [Fintype ι] [DecidableEq ι] (parties : ι → Party)
    (faults : Nat → Option Fault) (vault : Vault) (store : EngineKey)
    (blank : Vault.Keeps store vault .empty) (turns : List (ι × Request)) :
    let host := Vault.host.interrupted faults
    let minutes := host.minutes store turns ⟨0, vault⟩
    let engine := (host.after store (turns.map Prod.snd) ⟨0, vault⟩).inner
    let opened := (told minutes).issued
    let chunk := fun digest => (engine.call store (.getChunk digest)).1
    let record := fun id => (engine.call store (.getMessage id)).1
    let recorded := fun digest =>
      (opened.map fun id => (closedManifest (record id)).mentions digest).sum
    (∀ maker, (parties maker).TakesPart (shareOf maker minutes)) →
    (∀ digest, referencesIn (chunk digest) = recorded digest +
      ∑ maker, ((parties maker).live (shareOf maker minutes)).mentions digest +
      ∑ maker, mentionsIn digest ((parties maker).discarded (shareOf maker minutes))) ∧
    opened.Nodup ∧ (∀ id, id ∈ opened ↔ ∃ kept, record id = .ok kept) ∧
    (∀ id kept descriptor, record id = .ok kept → kept.closed = true →
      descriptor ∈ kept.manifest.entries → ∃ stored, chunk descriptor.digest = .ok stored) ∧
    ((∀ id ∈ opened, ∃ kept, record id = .ok kept ∧ kept.closed = true) →
      ∀ digest, referencesIn (chunk digest) = recorded digest) := by
  intro host minutes engine opened chunk record recorded shared
  have follows := (Vault.answersAt store).interrupted faults
  have start : Vault.Keeps store (⟨0, vault⟩ : Numbered Vault).inner .empty := blank
  rcases follows.matches (turns.map Prod.snd) start Ledger.matches_empty with
    ⟨ledger, keeps, same⟩
  rw [List.nil_append, ← Host.told_minutes] at same
  change ledger.Matches (told minutes) at same
  have chunks : ∀ digest, chunk digest = ledger.getChunk digest := fun digest =>
    (Vault.answersAt store ⟨.getChunk digest, rfl⟩ engine ledger keeps).1
  have records : ∀ id, record id = ledger.getMessage id := fun id =>
    (Vault.answersAt store ⟨.getMessage id, rfl⟩ engine ledger keeps).1
  have once := closes_told_le shared
  have sums : ∀ digest, recorded digest = (told minutes).count (.records digest) := by
    intro digest
    simp only [recorded, records]
    exact same.sum_closedManifest once digest
  have equation : ∀ digest, referencesIn (chunk digest) = recorded digest +
      ∑ maker, ((parties maker).live (shareOf maker minutes)).mentions digest +
      ∑ maker, mentionsIn digest ((parties maker).discarded (shareOf maker minutes)) := by
    intro digest
    rw [chunks, same.recalls.referencesIn_getChunk, sums]
    exact additions_told shared digest
  refine ⟨equation, same.nodup_issued, ?_, ?_, ?_⟩
  · intro id
    rw [records]
    exact same.recalls.mem_issued_iff id
  · intro id kept descriptor found closed listed
    rw [records] at found
    rw [chunks]
    apply same.recalls.getChunk_of_count_pos
    have listedOnce := same.count_records_pos once found closed listed
    rw [additions_told shared]
    omega
  · intro closed digest
    simp only [records] at closed
    rcases nothing_left_of_closed shared (same.count_closes_eq once closed) digest with
      ⟨live, discarded⟩
    rw [equation, live, discarded]
    rfl

def onePart : Option Metadata :=
  ((Envelope.new "a" "b").setParts [{ node := "1" }]).metadata

/-- Two splitters that cut chunks of two bytes.  The second opens three messages: it leaves the
first one open, cannot close the second one, and is in the middle of a write of the third one. -/
def pair (maker : Fin 2) : Party where
  buffer := Buffer.new.capTo 2
  isVacant := ⟨rfl, rfl⟩
  tasks :=
    if maker = 0 then [.openMessage {}, .write onePart [1, 2, 1, 2], .closeMessage "q"]
    else
      [.openMessage {}, .write onePart [1, 2], .openMessage {}, .write onePart [1, 2, 1],
        .closeMessage "r", .openMessage {}, .write onePart [1, 2, 1, 2]]
  isDropped := false

/-- Their calls as they reach the engine. -/
def crossing : List (Fin 2 × Request) :=
  let manifest : Manifest :=
    ⟨[⟨.of [1, 2], 2, "1", none⟩, ⟨.of [1, 2], 2, "1", none⟩]⟩
  [(0, ⟨.openMessage {}, rfl⟩), (1, ⟨.openMessage {}, rfl⟩),
    (0, ⟨.addChunk (.of [1, 2]) [1, 2], rfl⟩), (1, ⟨.addChunk (.of [1, 2]) [1, 2], rfl⟩),
    (0, ⟨.addChunk (.of [1, 2]) [1, 2], rfl⟩), (1, ⟨.openMessage {}, rfl⟩),
    (1, ⟨.addChunk (.of [1, 2]) [1, 2], rfl⟩), (1, ⟨.addChunk (.of [1]) [1], rfl⟩),
    (0, ⟨.closeMessage ⟨1⟩ 4 manifest { queueId := "q" }, rfl⟩), (1, ⟨.openMessage {}, rfl⟩),
    (1, ⟨.addChunk (.of [1, 2]) [1, 2], rfl⟩)]

/-- The eighth call fails.  The digest of two bytes that occur in every message is listed twice in
the closed record, once in a buffer, once in a manifest that an opening gave up and once in one that
a close gave up. -/
theorem references_accounted_crossing :
    let host := Vault.host.interrupted fun number =>
      if number = 7 then some .notInitialized else none
    let vault := (Vault.empty.add (.volatile (.new 6))).2
    let minutes := host.minutes ⟨0⟩ crossing ⟨0, vault⟩
    let engine := (host.after ⟨0⟩ (crossing.map Prod.snd) ⟨0, vault⟩).inner
    Vault.Keeps ⟨0⟩ vault .empty ∧
      (∀ maker, (pair maker).TakesPart (shareOf maker minutes)) ∧
      referencesIn (engine.call ⟨0⟩ (.getChunk (.of [1, 2]))).1 = 2 + 1 + 2 ∧
      (told minutes).issued = [⟨1⟩, ⟨2⟩, ⟨3⟩, ⟨4⟩] ∧
      ∃ record, (engine.call ⟨0⟩ (.getMessage ⟨1⟩)).1 = .ok record ∧ record.closed = true ∧
        ∀ descriptor ∈ record.manifest.entries,
          ∃ stored, (engine.call ⟨0⟩ (.getChunk descriptor.digest)).1 = .ok stored := by
  intro host vault minutes engine
  have blank : Vault.Keeps ⟨0⟩ vault .empty :=
    .memory (.new 6) rfl (Store.Volatile.represents_new 6)
  have shared : ∀ maker, (pair maker).TakesPart (shareOf maker minutes) := by
    intro maker
    match maker with
    | 0 => exact ⟨[], nofun, by decide +kernel⟩
    | 1 =>
        refine ⟨[.addChunk (.of [1, 2]) [1, 2] (.error .notInitialized)], ?_, by decide +kernel⟩
        intro note member
        rw [List.mem_singleton.mp member]
        rfl
  rcases references_accounted pair _ vault ⟨0⟩ blank crossing shared with
    ⟨equation, _, known, present, _⟩
  have issued : (told minutes).issued = [⟨1⟩, ⟨2⟩, ⟨3⟩, ⟨4⟩] := by decide +kernel
  have first : ⟨1⟩ ∈ (told minutes).issued := issued ▸ List.mem_cons_self
  rcases (known ⟨1⟩).mp first with ⟨record, found⟩
  change (engine.call ⟨0⟩ (.getMessage ⟨1⟩)).1 = .ok record at found
  have closed : (engine.call ⟨0⟩ (.getMessage ⟨1⟩)).1.toOption.map MessageRecord.closed =
      some true := by
    decide +kernel
  rw [found] at closed
  have done : record.closed = true := Option.some.inj closed
  refine ⟨blank, shared, ?_, issued, record, found, done, fun descriptor listed =>
    present ⟨1⟩ record descriptor found done listed⟩
  rw [equation]
  decide +kernel

end Transit
end MailVault
