import Mathlib.Data.Fintype.BigOperators
import MailVault.Proofs.Transit.Careers

/-!
# Splitters in company

Several splitters share an engine that was new, with callers of other kinds that do what
they like.  All their calls reach the engine in some order, also while others are in the
middle of a task, and any call may fail before it does.

Each splitter knows only its own share of the minutes.  It is looked at with the answers
in this share, and what its episodes tell of messages is what the engine was told by it.
Together the shares tell all that the engine was told, so the record of a message can be
found in the episodes.
-/

namespace MailVault
namespace Transit

open Store (Chronicle EngineKey Entry Fault Host Item Ledger Note Noted Numbered Request Vault
  shareOf told)

variable {ι τ : Type}

/-! ## One splitter among others -/

/-- A splitter that shares an engine: the buffer that it is built with, what follows it, and what it
is asked to do. -/
structure Agent (τ : Type) where
  buffer : Buffer Unit
  /-- What the next stage answers a slice. -/
  answer : Bytes → τ → Except TransitFault Nat × τ
  ahead : τ
  tasks : List Task

namespace Agent

variable (agent : Agent τ) (share : List Note)

def start : Leg Unit (Noted (List Note)) τ :=
  ⟨.withBuffer () agent.buffer, ⟨share, []⟩, agent.ahead⟩

def episodes : List (Episode Unit (Noted (List Note)) τ) :=
  (agent.start share).episodes Host.scripted.noted (.own agent.answer) agent.tasks

def notes : List Note :=
  ((agent.start share).run Host.scripted.noted (.own agent.answer) agent.tasks).engines.notes

/-- Answered in this way, the splitter makes just the calls in its share.  If it is in the middle of
a task, all that it has still to ask for is taken to fail. -/
def TakesPart : Prop :=
  ∃ outstanding : List Note, (∀ note ∈ outstanding, note.entry.isFault = true) ∧
    agent.notes share = share ++ outstanding

variable {agent share}

theorem TakesPart.marks (takesPart : agent.TakesPart share) :
    Chronicle.marks (share.map Note.entry) =
      (agent.episodes share).filterMap (Episode.mark? Host.scripted.noted) := by
  rcases takesPart with ⟨outstanding, failed, notes⟩
  have run := (agent.start share).marks_run .scripted agent.answer agent.tasks
  have made : ((agent.start share).run Host.scripted.noted (.own agent.answer)
      agent.tasks).engines.chronicle = (share ++ outstanding).map Note.entry :=
    congrArg (List.map Note.entry) notes
  rw [made, List.map_append, Chronicle.marks_append, Chronicle.marks_of_faults failed,
    List.append_nil] at run
  exact run

/-- If its last episode has left a mark, its share ends with this. -/
theorem TakesPart.share_ends (takesPart : agent.TakesPart share)
    {before : List (Episode Unit (Noted (List Note)) τ)}
    {last : Episode Unit (Noted (List Note)) τ} {entry : Entry}
    (ended : agent.episodes share = before ++ [last])
    (marked : last.mark? Host.scripted.noted = some entry) :
    ∃ earlier, share.map Note.entry = earlier ++ [entry] := by
  rcases takesPart with ⟨outstanding, failed, notes⟩
  have made : last = last.before.episode Host.scripted.noted (.own agent.answer) last.task :=
    Leg.eq_episode_of_mem _ _ _ (ended ▸ List.mem_append_right _ List.mem_cons_self)
  rcases last.before.chronicle_perform .scripted agent.answer last.task with ⟨earlier, _, told⟩
  have after : (share ++ outstanding).map Note.entry = earlier ++ [entry] := by
    rw [made] at marked
    rw [marked] at told
    rw [← notes, Agent.notes, Leg.run_eq_after _ _ _ ended, made]
    exact told
  rcases List.eq_nil_or_concat outstanding with rfl | ⟨others, note, rfl⟩
  · rw [List.append_nil] at after
    exact ⟨earlier, after⟩
  · -- Otherwise the last call would be one that fails, and not the mark.
    rw [List.concat_eq_append] at after failed
    rw [← List.append_assoc, List.map_append, List.map_singleton] at after
    cases List.append_inj_right' after rfl
    have fault := failed note List.mem_concat_self
    rw [Store.Entry.isFault_of_isMark (Episode.isMark_of_mark? marked)] at fault
    cases fault

/-- It is counted how often it has opened and closed each message. -/
theorem TakesPart.count (takesPart : agent.TakesPart share) (id : MessageId) :
    Chronicle.count (.openings id) (share.map Note.entry) =
        ((agent.episodes share).filterMap Episode.opened?).count id ∧
      Chronicle.count (.closes id) (share.map Note.entry) =
        ((agent.episodes share).filterMap Episode.closed?).count id := by
  rcases (agent.start share).count_marks Host.scripted.noted (.own agent.answer) agent.tasks id with
    ⟨openings, closes⟩
  rw [← Chronicle.count_openings_marks, ← Chronicle.count_closes_marks, takesPart.marks]
  exact ⟨openings, closes⟩

end Agent

/-! ## All of them together -/

/-- Splitters that share an engine that was new, also with callers without a name.  The turns are
the calls as they reach the engine, or fail on their way there. -/
structure Company (ι τ : Type) [DecidableEq ι] where
  agents : ι → Agent τ
  /-- The calls that fail, by their numbers. -/
  faults : Nat → Option Fault
  vault : Vault
  store : EngineKey
  blank : Vault.Keeps store vault .empty
  turns : List (Option ι × Request)
  takesPart : ∀ maker, (agents maker).TakesPart
    (shareOf (some maker) ((Vault.host.interrupted faults).minutes store turns ⟨0, vault⟩))

namespace Company

variable [DecidableEq ι] (company : Company ι τ)

/-- The engine with the faults on the way to it. -/
def host : Host EngineKey (Numbered Vault) :=
  Vault.host.interrupted company.faults

def minutes : List (Option ι × Note) :=
  company.host.minutes company.store company.turns ⟨0, company.vault⟩

def outcome : Numbered Vault :=
  company.host.after company.store (company.turns.map Prod.snd) ⟨0, company.vault⟩

/-- Some more calls with their answers. -/
def toldAfter (later : List Request) : Chronicle :=
  company.host.dialogue company.store later company.outcome

/-- What the engine has on a message after some more calls. -/
def recordAfter (later : List Request) (id : MessageId) : Except Fault MessageRecord :=
  ((company.host.after company.store later company.outcome).inner.call company.store
    (.getMessage id)).1

/-- What the engine has on a message now. -/
def record (id : MessageId) : Except Fault MessageRecord :=
  company.recordAfter [] id

/-- Callers without a name close no messages. -/
def Reserved : Prop :=
  ∀ request, (none, request) ∈ company.turns → request.call.kind ≠ .closeMessage

def episodes (maker : ι) : List (Episode Unit (Noted (List Note)) τ) :=
  (company.agents maker).episodes (shareOf (some maker) company.minutes)

def opened (maker : ι) : List MessageId :=
  (company.episodes maker).filterMap Episode.opened?

def closed (maker : ι) : List MessageId :=
  (company.episodes maker).filterMap Episode.closed?

/-- The engine has on every message what the minutes tell, and after some more calls what those tell
too. -/
theorem recordAfter_eq (later : List Request) :
    ∃ ledger : Ledger, ledger.Matches (told company.minutes ++ company.toldAfter later) ∧
      ∀ id, company.recordAfter later id = ledger.getMessage id := by
  have follows := (Vault.answersAt company.store).interrupted company.faults
  have start : Vault.Keeps company.store (⟨0, company.vault⟩ : Numbered Vault).inner .empty :=
    company.blank
  rcases follows.matches (company.turns.map Prod.snd ++ later) start Ledger.matches_empty with
    ⟨ledger, keeps, same⟩
  rw [List.nil_append, Host.dialogue_append, ← Host.told_minutes] at same
  rw [Host.after_append] at keeps
  exact ⟨ledger, same, fun id => (Vault.answersAt company.store ⟨.getMessage id, rfl⟩
    (company.host.after company.store later company.outcome).inner ledger keeps).1⟩

theorem record_eq : ∃ ledger : Ledger, ledger.Matches (told company.minutes) ∧
    ∀ id, company.record id = ledger.getMessage id := by
  rcases company.recordAfter_eq [] with ⟨ledger, same, record⟩
  rw [toldAfter, Host.dialogue, List.append_nil] at same
  exact ⟨ledger, same, record⟩

/-- The record of a message is the one that the calls tell. -/
theorem recordAfter_ok_iff (later : List Request) (id : MessageId) (kept : MessageRecord) :
    company.recordAfter later id = .ok kept ↔
      (told company.minutes ++ company.toldAfter later).record? id = some kept := by
  rcases company.recordAfter_eq later with ⟨ledger, same, record⟩
  rw [record, Ledger.getMessage, same.recalls.messages]
  cases (told company.minutes ++ company.toldAfter later).record? id <;> simp

theorem record_ok_iff (id : MessageId) (kept : MessageRecord) :
    company.record id = .ok kept ↔ (told company.minutes).record? id = some kept := by
  have after := company.recordAfter_ok_iff [] id kept
  rwa [toldAfter, Host.dialogue, List.append_nil] at after

theorem told_of_mark {maker : ι} {entry : Entry}
    (marked : entry ∈ (company.episodes maker).filterMap (Episode.mark? Host.scripted.noted)) :
    entry ∈ told company.minutes := by
  have marks := (company.takesPart maker).marks
  change _ = (company.episodes maker).filterMap (Episode.mark? Host.scripted.noted) at marks
  rw [← marks] at marked
  rcases List.mem_map.mp (List.mem_filter.mp marked).1 with ⟨note, listed, same⟩
  exact Store.mem_told_iff.mpr ⟨some maker, note, listed, same⟩

/-- The minutes tell the opening of a message that a splitter has opened. -/
theorem findSome?_opening {maker : ι} {id : MessageId}
    {episode : Episode Unit (Noted (List Note)) τ} (member : episode ∈ company.episodes maker)
    (opened : episode.opened? = some id) {opening : Opening}
    (task : episode.task = .openMessage opening) :
    (told company.minutes).findSome? (Entry.opening? id) = some opening := by
  rcases company.record_eq with ⟨ledger, same, _⟩
  apply Chronicle.findSome?_opening same.nodup_issued
  apply company.told_of_mark
  exact List.mem_filterMap.mpr ⟨episode, member, by rw [Episode.mark?, task, opened]; rfl⟩

/-- If a splitter has made the last call and its last episode has left a mark, the minutes end with
this. -/
theorem told_ends {maker : ι} {before : List (Episode Unit (Noted (List Note)) τ)}
    {last : Episode Unit (Noted (List Note)) τ} {entry : Entry}
    (called : company.turns.getLast?.map Prod.fst = some (some maker))
    (ended : company.episodes maker = before ++ [last])
    (marked : last.mark? Host.scripted.noted = some entry) :
    ∃ earlier, told company.minutes = earlier ++ [entry] := by
  rcases (company.takesPart maker).share_ends ended marked with ⟨earlier, share⟩
  exact Host.told_ends called share

theorem count_closed_le (maker : ι) (id : MessageId) :
    (company.closed maker).count id ≤ (company.opened maker).count id :=
  Nat.le_of_add_right_le (((company.agents maker).start
    (shareOf (some maker) company.minutes)).closed_le_opened_run _ _ _ id)

variable {company} in
/-- Nobody without a name has closed anything. -/
theorem Reserved.count_closes_unnamed (reserved : company.Reserved) (id : MessageId) :
    Chronicle.count (.closes id) ((shareOf none company.minutes).map Note.entry) = 0 := by
  apply List.sum_eq_zero
  intro measure listed
  rcases List.mem_map.mp listed with ⟨entry, noted, rfl⟩
  rcases List.mem_map.mp noted with ⟨note, member, rfl⟩
  rcases Host.request_of_mem_shareOf member with ⟨request, answer, turn, rfl⟩
  have other := reserved request turn
  rw [Note.entry_of]
  rcases request with ⟨call, isStorage⟩
  cases call with
  | closeMessage _ _ _ _ => exact absurd rfl other
  | _ => rfl

variable [Fintype ι]

variable {company} in
/-- The closes that were told are those of the splitters. -/
theorem Reserved.count_closes (reserved : company.Reserved) (id : MessageId) :
    (told company.minutes).count (.closes id) = ∑ maker, (company.closed maker).count id := by
  rw [Chronicle.count_shares, Fintype.sum_option, reserved.count_closes_unnamed, Nat.zero_add]
  exact Finset.sum_congr rfl fun maker _ => ((company.takesPart maker).count id).2

theorem count_openings_le (id : MessageId) :
    ∑ maker, (company.opened maker).count id ≤ (told company.minutes).count (.openings id) := by
  rw [Chronicle.count_shares, Fintype.sum_option]
  refine le_add_of_nonneg_of_le (Nat.zero_le _) (le_of_eq ?_)
  exact Finset.sum_congr rfl fun maker _ => ((company.takesPart maker).count id).1.symm

/-- No message is opened by two splitters, or twice. -/
theorem opened_once (id : MessageId) : ∑ maker, (company.opened maker).count id ≤ 1 := by
  rcases company.record_eq with ⟨ledger, same, _⟩
  exact (company.count_openings_le id).trans (same.count_openings_le id)

theorem closed_once (id : MessageId) : ∑ maker, (company.closed maker).count id ≤ 1 :=
  (Finset.sum_le_sum fun maker _ => company.count_closed_le maker id).trans (company.opened_once id)

variable {company} in
/-- The minutes tell an ending of a message just if the splitter that has opened it has closed
it. -/
theorem Reserved.endings_ne_nil_iff (reserved : company.Reserved) (id : MessageId) :
    (told company.minutes).endings id ≠ [] ↔
      ∃ maker, id ∈ company.opened maker ∧ id ∈ company.closed maker := by
  have count := reserved.count_closes id
  rw [Chronicle.count_closes] at count
  rw [← List.length_pos_iff, count]
  constructor
  · intro positive
    rcases Finset.exists_ne_zero_of_sum_ne_zero (Nat.ne_of_gt positive) with ⟨maker, _, closed⟩
    have ended : 0 < (company.closed maker).count id := Nat.pos_of_ne_zero closed
    have begun := Nat.lt_of_lt_of_le ended (company.count_closed_le maker id)
    exact ⟨maker, List.count_pos_iff.mp begun, List.count_pos_iff.mp ended⟩
  · rintro ⟨maker, _, closed⟩
    calc 0 < (company.closed maker).count id := List.count_pos_iff.mpr closed
      _ ≤ ∑ maker, (company.closed maker).count id :=
        Finset.single_le_sum (f := fun maker => (company.closed maker).count id)
          (fun _ _ => Nat.zero_le _) (Finset.mem_univ maker)

/-! ## Over a new engine in memory -/

def failingAt (numbers : List Nat) (number : Nat) : Option Fault :=
  if number ∈ numbers then some .notInitialized else none

/-- What is called over a new engine in memory while the calls with some numbers fail. -/
def minutesInMemory {ι : Type} (failing : List Nat) (turns : List (Option ι × Request)) :
    List (Option ι × Note) :=
  (Vault.host.interrupted (failingAt failing)).minutes ⟨0⟩ turns
    ⟨0, (Vault.empty.add (.volatile (.new 6))).2⟩

/-- Splitters over a new engine in memory while the calls with some numbers fail. -/
def inMemory {ι τ : Type} [DecidableEq ι] (agents : ι → Agent τ) (failing : List Nat)
    (turns : List (Option ι × Request))
    (takesPart : ∀ maker, (agents maker).TakesPart
      (shareOf (some maker) (minutesInMemory failing turns))) : Company ι τ where
  agents := agents
  faults := failingAt failing
  vault := (Vault.empty.add (.volatile (.new 6))).2
  store := ⟨0⟩
  blank := .memory (.new 6) rfl (Store.Volatile.represents_new 6)
  turns := turns
  takesPart := takesPart

end Company
end Transit
end MailVault
