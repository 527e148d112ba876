import Mathlib.Logic.Function.Basic
import MailVault.Proofs.Store.Notes

/-!
# Threads that share an engine

Any number of threads make calls on one engine in memory.  A call is one step where the
engine does all of it under its lock.  Two calls are more than that: the number of a
new message is taken before its record is published under the lock, and a payload that
was copied under the lock is inflated after the lock is free.  A schedule names the
thread that takes the next step, and nothing is assumed of it.

The log of the calls that have returned is kept apart from what the engine holds.  What
one step preserves ties the two together: the engine represents a ledger that recalls
the log, the numbers that threads hold are of nobody else, and what a thread has
copied is what it should answer.  So the log alone tells the answers, although the
messages may be opened in an order that is not that of their numbers.
-/

namespace MailVault
namespace Store

structure ThreadKey where
  index : Nat
deriving DecidableEq

/-- What a thread is in the middle of. -/
inductive Flight where
  | none
  /-- A number was taken, and the record of its message is not published yet. -/
  | publishing (id : MessageId) (opening : Opening)
  /-- A payload was copied when so many calls had returned, and it is not inflated yet. -/
  | unpacking (digest : Digest) (packed : Packed) (moment : Nat)

/-- A thread with the calls that it is still to begin. -/
structure Thread where
  flight : Flight
  ahead : List Request

structure Event where
  thread : ThreadKey
  request : Request
  answer : Except Fault request.Answer
  /-- How many calls had returned when this one had the lock. -/
  moment : Nat

/-- Threads, the engine that they share, and the calls that have returned, in their order. -/
structure Crew where
  engine : Volatile
  threads : ThreadKey → Thread
  log : List Event

namespace Crew

def new (level : Nat) (programs : ThreadKey → List Request) : Crew where
  engine := .new level
  threads key := ⟨.none, programs key⟩
  log := []

/-- What a thread is in the middle of after one of the threads has changed. -/
theorem update_cases {threads : ThreadKey → Thread} {key other : ThreadKey} {thread : Thread}
    {flight : Flight} (flies : (Function.update threads key thread other).flight = flight) :
    (other = key ∧ thread.flight = flight) ∨ (other ≠ key ∧ (threads other).flight = flight) := by
  by_cases here : other = key
  · rw [here, Function.update_self] at flies
    exact Or.inl ⟨here, flies⟩
  · rw [Function.update_of_ne here] at flies
    exact Or.inr ⟨here, flies⟩

/-- A thread frees the lock in the middle of a call. -/
def pause (crew : Crew) (key : ThreadKey) (engine : Volatile) (thread : Thread) : Crew :=
  { crew with engine := engine, threads := Function.update crew.threads key thread }

def finish (crew : Crew) (key : ThreadKey) (engine : Volatile) (ahead : List Request)
    (request : Request) (answer : Except Fault request.Answer) (moment : Nat) : Crew where
  engine := engine
  threads := Function.update crew.threads key ⟨.none, ahead⟩
  log := crew.log ++ [⟨key, request, answer, moment⟩]

/-- A call that has the lock for all that it does. -/
def pass (crew : Crew) (key : ThreadKey) (request : Request) (ahead : List Request) : Crew :=
  crew.finish key (crew.engine.call request.call).2 ahead request
    (crew.engine.call request.call).1 crew.log.length

def enter (crew : Crew) (key : ThreadKey) (request : Request) (ahead : List Request) : Crew :=
  match request with
  | ⟨.openMessage opening, _⟩ =>
    crew.pause key crew.engine.reserve.2 ⟨.publishing crew.engine.reserve.1 opening, ahead⟩
  | ⟨.getChunk digest, _⟩ =>
    match crew.engine.chunks.find? digest with
    | none => crew.pass key request ahead
    | some packed => crew.pause key crew.engine ⟨.unpacking digest packed crew.log.length, ahead⟩
  | _ => crew.pass key request ahead

/-- The next step of a thread; a thread that has finished takes none. -/
def step (crew : Crew) (key : ThreadKey) : Crew :=
  match crew.threads key with
  | ⟨.none, []⟩ => crew
  | ⟨.none, request :: ahead⟩ => crew.enter key request ahead
  | ⟨.publishing id opening, ahead⟩ =>
    crew.finish key (crew.engine.publish id opening) ahead ⟨.openMessage opening, rfl⟩ (.ok id)
      crew.log.length
  | ⟨.unpacking digest packed moment, ahead⟩ =>
    crew.finish key crew.engine ahead ⟨.getChunk digest, rfl⟩ (Volatile.unpack digest packed) moment

/-- The steps of the threads in the order of a schedule. -/
def run (crew : Crew) (schedule : List ThreadKey) : Crew :=
  schedule.foldl step crew

/-! ## What a step can be -/

/-- A step that does something, with what it needs. -/
inductive Move (crew : Crew) (key : ThreadKey) : Crew → Prop where
  | reserve (opening : Opening) (ahead : List Request)
      (found : crew.threads key = ⟨.none, ⟨.openMessage opening, rfl⟩ :: ahead⟩) :
      Move crew key
        (crew.pause key crew.engine.reserve.2 ⟨.publishing crew.engine.reserve.1 opening, ahead⟩)
  | publish (id : MessageId) (opening : Opening) (ahead : List Request)
      (found : crew.threads key = ⟨.publishing id opening, ahead⟩) :
      Move crew key
        (crew.finish key (crew.engine.publish id opening) ahead ⟨.openMessage opening, rfl⟩
          (.ok id) crew.log.length)
  | copy (digest : Digest) (packed : Packed) (ahead : List Request)
      (found : crew.threads key = ⟨.none, ⟨.getChunk digest, rfl⟩ :: ahead⟩)
      (held : crew.engine.chunks.find? digest = some packed) :
      Move crew key
        (crew.pause key crew.engine ⟨.unpacking digest packed crew.log.length, ahead⟩)
  | unpack (digest : Digest) (packed : Packed) (moment : Nat) (ahead : List Request)
      (found : crew.threads key = ⟨.unpacking digest packed moment, ahead⟩) :
      Move crew key
        (crew.finish key crew.engine ahead ⟨.getChunk digest, rfl⟩
          (Volatile.unpack digest packed) moment)
  | pass (request : Request) (ahead : List Request)
      (found : crew.threads key = ⟨.none, request :: ahead⟩)
      (other : request.call.kind ≠ .openMessage) : Move crew key (crew.pass key request ahead)

theorem enter_move {crew : Crew} {key : ThreadKey} {request : Request} {ahead : List Request}
    (found : crew.threads key = ⟨.none, request :: ahead⟩) :
    crew.Move key (crew.enter key request ahead) := by
  rcases request with ⟨call, storage⟩
  cases call with
  | openMessage opening => exact .reserve opening ahead found
  | getChunk digest =>
      cases held : crew.engine.chunks.find? digest with
      | none =>
          simp only [enter, held]
          exact .pass _ ahead found (by rintro ⟨⟩)
      | some packed =>
          simp only [enter, held]
          exact .copy digest packed ahead found held
  | start => cases storage
  | stop => cases storage
  | closeMessage id total manifest summary => exact .pass _ ahead found (by rintro ⟨⟩)
  | addChunk digest data => exact .pass _ ahead found (by rintro ⟨⟩)
  | getMessage id => exact .pass _ ahead found (by rintro ⟨⟩)

/-- A thread has finished and stays as it is, or it makes a move. -/
theorem step_cases (crew : Crew) (key : ThreadKey) :
    (crew.threads key = ⟨.none, []⟩ ∧ crew.step key = crew) ∨
      ∃ next, crew.Move key next ∧ crew.step key = next := by
  cases found : crew.threads key with
  | mk flight ahead =>
      cases flight with
      | none =>
          cases ahead with
          | nil => exact Or.inl ⟨rfl, by simp only [step, found]⟩
          | cons request ahead =>
              exact Or.inr ⟨_, enter_move found, by simp only [step, found]⟩
      | publishing id opening =>
          exact Or.inr ⟨_, .publish id opening ahead found, by simp only [step, found]⟩
      | unpacking digest packed moment =>
          exact Or.inr ⟨_, .unpack digest packed moment ahead found, by simp only [step, found]⟩

/-! ## Every thread makes its calls -/

end Crew

def Flight.requests : Flight → List Request
  | .none => []
  | .publishing _ opening => [⟨.openMessage opening, rfl⟩]
  | .unpacking digest _ _ => [⟨.getChunk digest, rfl⟩]

def Thread.requests (thread : Thread) : List Request :=
  thread.flight.requests ++ thread.ahead

/-- A bound on the steps that a thread has still to take. -/
def Thread.work (thread : Thread) : Nat :=
  thread.flight.requests.length + 2 * thread.ahead.length

theorem Thread.requests_of_work {thread : Thread} (none : thread.work = 0) :
    thread.requests = [] := by
  rcases Nat.add_eq_zero_iff.mp none with ⟨flight, ahead⟩
  have later : thread.ahead.length = 0 := by omega
  rw [requests, List.length_eq_zero_iff.mp flight, List.length_eq_zero_iff.mp later]
  rfl

namespace Crew

/-- The calls of a thread that have returned. -/
def returned (crew : Crew) (key : ThreadKey) : List Request :=
  (crew.log.filter fun event => decide (event.thread = key)).map Event.request

/-- All calls of a thread: those that have returned, and those that it has not finished. -/
def program (crew : Crew) (key : ThreadKey) : List Request :=
  crew.returned key ++ (crew.threads key).requests

variable {crew : Crew} {key : ThreadKey}

theorem program_pause {old thread : Thread} (found : crew.threads key = old)
    (same : thread.requests = old.requests) (engine : Volatile) (other : ThreadKey) :
    (crew.pause key engine thread).program other = crew.program other := by
  simp only [program, pause, returned]
  by_cases here : other = key
  · rw [here, Function.update_self, same, found]
  · rw [Function.update_of_ne here]

theorem program_finish {old : Thread} {request : Request} {ahead : List Request}
    (found : crew.threads key = old) (same : old.requests = request :: ahead) (engine : Volatile)
    (answer : Except Fault request.Answer) (moment : Nat) (other : ThreadKey) :
    (crew.finish key engine ahead request answer moment).program other = crew.program other := by
  simp only [program, finish, returned, List.filter_append, List.map_append]
  by_cases here : other = key
  · rw [here, Function.update_self, found, same, List.append_assoc]
    simp [Thread.requests, Flight.requests]
  · have elsewhere : ¬ key = other := fun equal => here equal.symm
    simp [Function.update_of_ne here, elsewhere]

/-- No step adds to the calls of a thread, drops one or changes their order. -/
theorem program_step (crew : Crew) (key other : ThreadKey) :
    (crew.step key).program other = crew.program other := by
  rcases crew.step_cases key with ⟨_, same⟩ | ⟨next, move, stepped⟩
  · rw [same]
  · rw [stepped]
    cases move with
    | reserve opening ahead found => exact program_pause found (by rfl) _ _
    | publish id opening ahead found => exact program_finish found rfl _ _ _ _
    | copy digest packed ahead found held => exact program_pause found (by rfl) _ _
    | unpack digest packed moment ahead found => exact program_finish found rfl _ _ _ _
    | pass request ahead found _ => exact program_finish found rfl _ _ _ _

theorem program_run (crew : Crew) (schedule : List ThreadKey) (key : ThreadKey) :
    (crew.run schedule).program key = crew.program key := by
  induction schedule generalizing crew with
  | nil => rfl
  | cons next schedule inductionStep =>
      exact (inductionStep (crew.step next)).trans (crew.program_step next key)

/-- Every step of a thread is a part of its work. -/
theorem work_step (crew : Crew) (key : ThreadKey) :
    ((crew.step key).threads key).work ≤ (crew.threads key).work - 1 := by
  rcases crew.step_cases key with ⟨idle, same⟩ | ⟨next, move, stepped⟩
  · rw [same, idle]
    exact Nat.le_refl _
  · rw [stepped]
    cases move with
    | reserve opening ahead found | publish id opening ahead found
    | copy digest packed ahead found held | unpack digest packed moment ahead found
    | pass request ahead found other =>
        simp only [pause, pass, finish, found, Function.update_self, Thread.work, Flight.requests,
          List.length_cons, List.length_nil]
        omega

theorem step_of_ne (crew : Crew) {key other : ThreadKey} (different : other ≠ key) :
    (crew.step key).threads other = crew.threads other := by
  rcases crew.step_cases key with ⟨_, same⟩ | ⟨next, move, stepped⟩
  · rw [same]
  · rw [stepped]
    cases move <;> exact Function.update_of_ne different _ _

theorem work_run (crew : Crew) (schedule : List ThreadKey) (key : ThreadKey) :
    ((crew.run schedule).threads key).work ≤ (crew.threads key).work - schedule.count key := by
  induction schedule generalizing crew with
  | nil => exact Nat.le_refl _
  | cons next schedule inductionStep =>
      have rest := inductionStep (crew.step next)
      rw [List.count_cons]
      by_cases here : next = key
      · have less := crew.work_step next
        rw [here] at less rest
        rw [here, beq_self_eq_true, if_pos rfl]
        exact Nat.le_trans rest (by omega)
      · have equal := crew.step_of_ne fun same : key = next => here same.symm
        rw [beq_eq_false_iff_ne.mpr here, if_neg Bool.false_ne_true, Nat.add_zero, ← equal]
        exact rest

end Crew

/-! ## What the log tells -/

/-- What an addition under a digest was answered. -/
def Entry.verdict? (digest : Digest) : Entry → Option (Except Fault Bool)
  | ⟨.addChunk other _, answer⟩ => if other = digest then some answer else none
  | _ => none

namespace Chronicle

/-- What the additions under a digest were answered, in their order. -/
def verdicts (chronicle : Chronicle) (digest : Digest) : List (Except Fault Bool) :=
  chronicle.filterMap (Entry.verdict? digest)

/-- The answers to so many additions, of which only the first one was new. -/
def onlyFirstNew : Nat → List (Except Fault Bool)
  | 0 => []
  | count + 1 => .ok false :: List.replicate count (.ok true)

theorem onlyFirstNew_succ (count : Nat) :
    onlyFirstNew (count + 1) = onlyFirstNew count ++ [.ok (decide (count ≠ 0))] := by
  cases count with
  | zero => rfl
  | succ count =>
      rw [onlyFirstNew, List.replicate_succ']
      rfl

/-- Of the additions under any digest only the first one was new. -/
def Deduplicates (chronicle : Chronicle) : Prop :=
  ∀ digest, chronicle.verdicts digest = onlyFirstNew (chronicle.additions digest).length

theorem Deduplicates.push {chronicle : Chronicle} (earlier : chronicle.Deduplicates)
    {entry : Entry}
    (right : entry.call.kind = .addChunk → entry.answer = chronicle.answerTo entry.call) :
    Deduplicates (chronicle ++ [entry]) := by
  intro digest
  rw [verdicts, List.filterMap_append, additions_push, List.length_append]
  have before : chronicle.filterMap (Entry.verdict? digest) = _ := earlier digest
  rw [before]
  rcases entry with ⟨call, answer⟩
  cases call with
  | addChunk other data =>
      have known : answer = .ok (decide (chronicle.additions other ≠ [])) := right rfl
      by_cases same : other = digest
      · have length : chronicle.additions digest ≠ [] ↔
            (chronicle.additions digest).length ≠ 0 :=
          not_congr List.length_eq_zero_iff.symm
        simp only [known, same, List.filterMap_cons, Entry.verdict?, Entry.addition?, if_pos,
          List.filterMap_nil, Option.toList_some, List.length_singleton, onlyFirstNew_succ, length]
      · simp [known, same, Entry.verdict?, Entry.addition?]
  | _ => simp [Entry.verdict?, Entry.addition?]

/-- If no number was given out twice, the record of an opened message is as it was opened there, and
then as it was closed last. -/
theorem record?_of_mem {chronicle : Chronicle} (nodup : chronicle.issued.Nodup)
    {opening : Opening} {id : MessageId}
    (member : ⟨.openMessage opening, .ok id⟩ ∈ chronicle) :
    chronicle.record? id = some (conclude (.opened id opening) (chronicle.endings id)) := by
  rw [record?, findSome?_opening nodup member, Option.map_some]

end Chronicle

/-- A call that has returned, without the thread that made it. -/
def Event.entry (event : Event) : Entry :=
  ⟨event.request.call, event.answer⟩

def entries (log : List Event) : Chronicle :=
  log.map Event.entry

theorem entries_push (log : List Event) (event : Event) :
    entries (log ++ [event]) = entries log ++ [event.entry] := by
  rw [entries, List.map_append]
  rfl

/-- A call that returns after some others is answered by what had returned when it had the lock;
only the number of a new message is older.  Only the call for a chunk may have given back the lock
before others returned. -/
structure Event.FitsAfter (before : List Event) (event : Event) : Prop where
  moment : event.moment ≤ before.length
  prompt : event.request.call.kind ≠ .getChunk → event.moment = before.length
  answer : event.request.call.kind ≠ .openMessage →
    event.answer = (entries (before.take event.moment)).answerTo event.request.call

/-! ## What a step preserves -/

namespace Crew

/-- The engine and the threads are in step with the log. -/
structure InStep (crew : Crew) (ledger : Ledger) : Prop where
  represents : crew.engine.Represents ledger
  recalls : ledger.Recalls (entries crew.log)
  fits : Throughout Event.FitsAfter crew.log
  unique : (entries crew.log).issued.Nodup
  dedup : (entries crew.log).Deduplicates
  /-- The numbers that were given out were taken before. -/
  taken : ∀ id ∈ (entries crew.log).issued, id.value ≤ ledger.last
  /-- A number that a thread has taken is not given out otherwise. -/
  reserved : ∀ key id opening, (crew.threads key).flight = .publishing id opening →
    id.value ≤ ledger.last ∧ id ∉ (entries crew.log).issued
  apart : ∀ key other id opening another, (crew.threads key).flight = .publishing id opening →
    (crew.threads other).flight = .publishing id another → key = other
  /-- What a thread has copied is what it should answer. -/
  copied : ∀ key digest packed moment,
    (crew.threads key).flight = .unpacking digest packed moment →
      moment ≤ crew.log.length ∧ Volatile.unpack digest packed =
        (entries (crew.log.take moment)).answerTo (.getChunk digest)

theorem inStep_new (level : Nat) (programs : ThreadKey → List Request) :
    (new level programs).InStep .empty where
  represents := Volatile.represents_new level
  recalls := Ledger.recalls_nil
  fits := throughout_nil
  unique := List.nodup_nil
  dedup _ := rfl
  taken _ := nofun
  reserved _ _ _ := nofun
  apart _ _ _ _ _ := nofun
  copied _ _ _ _ := nofun

namespace InStep

variable {crew : Crew} {ledger : Ledger}

/-- The next number is of nobody yet. -/
theorem reserve (inStep : crew.InStep ledger) (key : ThreadKey) (opening : Opening)
    (ahead : List Request) :
    (crew.pause key crew.engine.reserve.2
      ⟨.publishing crew.engine.reserve.1 opening, ahead⟩).InStep
        { ledger with last := ledger.last + 1 } := by
  have next : crew.engine.reserve.1.value = ledger.last + 1 := inStep.represents.next
  refine
    { represents :=
        ⟨congrArg (· + 1) inStep.represents.next, inStep.represents.messages,
          inStep.represents.chunks⟩
      recalls := ⟨inStep.recalls.messages, inStep.recalls.chunks, inStep.recalls.opened⟩
      fits := inStep.fits
      unique := inStep.unique
      dedup := inStep.dedup
      taken := fun id listed => Nat.le_succ_of_le (inStep.taken id listed)
      reserved := ?_
      apart := ?_
      copied := ?_ }
  · intro other id another flies
    rcases update_cases flies with ⟨_, equal⟩ | ⟨_, before⟩
    · cases equal
      refine ⟨Nat.le_of_eq next, fun listed => ?_⟩
      have old := inStep.taken _ listed
      omega
    · rcases inStep.reserved other id another before with ⟨below, fresh⟩
      exact ⟨Nat.le_succ_of_le below, fresh⟩
  · intro first second id one another firstFlies secondFlies
    rcases update_cases firstFlies with ⟨rfl, equal⟩ | ⟨_, firstBefore⟩
    · rcases update_cases secondFlies with ⟨rfl, _⟩ | ⟨_, secondBefore⟩
      · rfl
      · cases equal
        have old := (inStep.reserved second _ another secondBefore).1
        omega
    · rcases update_cases secondFlies with ⟨_, equal⟩ | ⟨_, secondBefore⟩
      · cases equal
        have old := (inStep.reserved first _ one firstBefore).1
        omega
      · exact inStep.apart first second id one another firstBefore secondBefore
  · intro other digest packed moment flies
    rcases update_cases flies with ⟨_, equal⟩ | ⟨_, before⟩
    · cases equal
    · exact inStep.copied other digest packed moment before

/-- A copy is what a chunk is at that moment. -/
theorem copy (inStep : crew.InStep ledger) (key : ThreadKey) {digest : Digest} {packed : Packed}
    (held : crew.engine.chunks.find? digest = some packed) (ahead : List Request) :
    (crew.pause key crew.engine
      ⟨.unpacking digest packed crew.log.length, ahead⟩).InStep ledger := by
  have reads : Volatile.unpack digest packed = crew.engine.getChunk digest := by
    rw [Volatile.getChunk, held]
  have answers : crew.engine.getChunk digest = (entries crew.log).answerTo (.getChunk digest) :=
    ((Volatile.answers : (Host.of Volatile.call : Host Unit Volatile).Answers _) ()
      (.getChunk digest) crew.engine ledger inStep.represents).1.trans
        (inStep.recalls.answer (by rintro ⟨⟩))
  refine { inStep with reserved := ?_, apart := ?_, copied := ?_ }
  · intro other id opening flies
    rcases update_cases flies with ⟨_, equal⟩ | ⟨_, before⟩
    · cases equal
    · exact inStep.reserved other id opening before
  · intro first second id one another firstFlies secondFlies
    rcases update_cases firstFlies with ⟨_, equal⟩ | ⟨_, firstBefore⟩
    · cases equal
    · rcases update_cases secondFlies with ⟨_, equal⟩ | ⟨_, secondBefore⟩
      · cases equal
      · exact inStep.apart first second id one another firstBefore secondBefore
  · intro other name content moment flies
    rcases update_cases flies with ⟨_, equal⟩ | ⟨_, before⟩
    · cases equal
      refine ⟨Nat.le_refl _, ?_⟩
      rw [reads, answers]
      simp only [pause, List.take_length]
    · exact inStep.copied other name content moment before

/-- A call may return if the engine is left in step with the longer log, if the answer is right,
and if the number it gives out was taken for it alone. -/
theorem finish (inStep : crew.InStep ledger) {later : Ledger} {engine : Volatile}
    {key : ThreadKey} {request : Request} {answer : Except Fault request.Answer} {moment : Nat}
    (represents : engine.Represents later)
    (recalls : later.Recalls (entries crew.log ++ [⟨request.call, answer⟩]))
    (last : later.last = ledger.last)
    (fits : Event.FitsAfter crew.log ⟨key, request, answer, moment⟩)
    (own : ∀ id, Entry.issued? ⟨request.call, answer⟩ = some id →
      ∃ opening, (crew.threads key).flight = .publishing id opening)
    (ahead : List Request) :
    (crew.finish key engine ahead request answer moment).InStep later := by
  have pushed : entries (crew.log ++ [⟨key, request, answer, moment⟩]) =
      entries crew.log ++ [⟨request.call, answer⟩] := entries_push _ _
  -- The number that is given out was reserved, so it was not given out before.
  have fresh : ∀ id, Entry.issued? ⟨request.call, answer⟩ = some id →
      id.value ≤ ledger.last ∧ id ∉ (entries crew.log).issued := by
    intro id given
    rcases own id given with ⟨opening, flies⟩
    exact inStep.reserved key id opening flies
  refine
    { represents := represents
      recalls := pushed ▸ recalls
      fits := inStep.fits.push fits
      unique := ?_
      dedup := ?_
      taken := ?_
      reserved := ?_
      apart := ?_
      copied := ?_ }
  · simp only [Crew.finish, pushed, Chronicle.issued_push]
    refine List.nodup_append.mpr ⟨inStep.unique, ?_, ?_⟩
    · cases Entry.issued? ⟨request.call, answer⟩ <;> simp
    · rintro id listed other given rfl
      exact (fresh id (Option.mem_toList.mp given)).2 listed
  · simp only [Crew.finish, pushed]
    refine inStep.dedup.push fun adds => ?_
    have here : moment = crew.log.length := fits.prompt fun gets => by
      have both := adds.symm.trans gets
      cases both
    have right := fits.answer fun opens => by
      have both := adds.symm.trans opens
      cases both
    simp only [here, List.take_length] at right
    exact right
  · intro id listed
    simp only [Crew.finish, pushed, Chronicle.issued_push, List.mem_append] at listed
    rw [last]
    rcases listed with before | given
    · exact inStep.taken id before
    · exact (fresh id (Option.mem_toList.mp given)).1
  · intro other id opening flies
    rcases update_cases flies with ⟨_, equal⟩ | ⟨different, before⟩
    · cases equal
    · rcases inStep.reserved other id opening before with ⟨below, absent⟩
      rw [last]
      refine ⟨below, fun listed => ?_⟩
      simp only [Crew.finish, pushed, Chronicle.issued_push, List.mem_append] at listed
      rcases listed with old | given
      · exact absent old
      · rcases own id (Option.mem_toList.mp given) with ⟨another, flew⟩
        exact different (inStep.apart other key id opening another before flew)
  · intro first second id one another firstFlies secondFlies
    rcases update_cases firstFlies with ⟨_, equal⟩ | ⟨_, firstBefore⟩
    · cases equal
    · rcases update_cases secondFlies with ⟨_, equal⟩ | ⟨_, secondBefore⟩
      · cases equal
      · exact inStep.apart first second id one another firstBefore secondBefore
  · intro other digest packed copyMoment flies
    rcases update_cases flies with ⟨_, equal⟩ | ⟨_, before⟩
    · cases equal
    · rcases inStep.copied other digest packed copyMoment before with ⟨bound, reads⟩
      simp only [Crew.finish, List.length_append, List.take_append_of_le_length bound]
      exact ⟨Nat.le_add_right_of_le bound, reads⟩

/-- The record of a message is published under the number that was taken for it. -/
theorem publish (inStep : crew.InStep ledger) {key : ThreadKey} {id : MessageId}
    {opening : Opening} {ahead : List Request}
    (found : crew.threads key = ⟨.publishing id opening, ahead⟩) :
    (crew.finish key (crew.engine.publish id opening) ahead ⟨.openMessage opening, rfl⟩ (.ok id)
      crew.log.length).InStep
        { ledger with messages := ledger.messages.insert id (.opened id opening) } := by
  have flies : (crew.threads key).flight = .publishing id opening := by rw [found]
  have fresh := (inStep.reserved key id opening flies).2
  have represents : (crew.engine.publish id opening).Represents
      { ledger with messages := ledger.messages.insert id (.opened id opening) } :=
    ⟨inStep.represents.next,
      congrArg (fun messages => messages.insert id (.opened id opening)) inStep.represents.messages,
      inStep.represents.chunks⟩
  have fits : Event.FitsAfter crew.log ⟨key, ⟨.openMessage opening, rfl⟩, .ok id, _⟩ :=
    ⟨Nat.le_refl _, fun _ => rfl, fun other => absurd rfl other⟩
  refine inStep.finish represents (inStep.recalls.push_opening fresh opening ledger.last) rfl fits
    ?_ ahead
  intro given same
  cases same
  exact ⟨opening, flies⟩

/-- A copy that is inflated later is answered as it was right when it was made. -/
theorem unpack (inStep : crew.InStep ledger) {key : ThreadKey} {digest : Digest}
    {packed : Packed} {moment : Nat} {ahead : List Request}
    (found : crew.threads key = ⟨.unpacking digest packed moment, ahead⟩) :
    (crew.finish key crew.engine ahead ⟨.getChunk digest, rfl⟩ (Volatile.unpack digest packed)
      moment).InStep ledger := by
  have flies : (crew.threads key).flight = .unpacking digest packed moment := by rw [found]
  rcases inStep.copied key digest packed moment flies with ⟨bound, reads⟩
  have fits : Event.FitsAfter crew.log
      ⟨key, ⟨.getChunk digest, rfl⟩, Volatile.unpack digest packed, moment⟩ :=
    ⟨bound, fun other => absurd rfl other, fun _ => reads⟩
  exact inStep.finish inStep.represents
    (inStep.recalls.push_silent (fun _ => rfl) (fun _ => rfl) fun _ => rfl) rfl fits
    (fun _ given => nomatch given) ahead

/-- A call that has the lock for all that it does is answered as the log tells. -/
theorem pass (inStep : crew.InStep ledger) (key : ThreadKey) {request : Request}
    (other : request.call.kind ≠ .openMessage) (ahead : List Request) :
    (crew.pass key request ahead).InStep (ledger.call request.call).2 := by
  rcases (Volatile.answers : (Host.of Volatile.call : Host Unit Volatile).Answers _) ()
    request.call crew.engine ledger inStep.represents with ⟨same, represents⟩
  have answer : (crew.engine.call request.call).1 = (ledger.call request.call).1 := same
  refine inStep.finish represents ?_ (ledger.last_of_kind other)
    ⟨Nat.le_refl _, fun _ => rfl, fun _ => ?_⟩ ?_ ahead
  · rw [answer]
    exact inStep.recalls.push other
  · simp only [List.take_length]
    exact answer.trans (inStep.recalls.answer other)
  · intro id given
    rw [Entry.issued?_of_kind other] at given
    cases given

/-- Every step of any thread leaves all in step. -/
theorem step (inStep : crew.InStep ledger) (key : ThreadKey) :
    ∃ later, (crew.step key).InStep later := by
  rcases crew.step_cases key with ⟨_, same⟩ | ⟨next, move, stepped⟩
  · rw [same]
    exact ⟨ledger, inStep⟩
  · rw [stepped]
    cases move with
    | reserve opening ahead found => exact ⟨_, inStep.reserve key opening ahead⟩
    | publish id opening ahead found => exact ⟨_, inStep.publish found⟩
    | copy digest packed ahead found held => exact ⟨_, inStep.copy key held ahead⟩
    | unpack digest packed moment ahead found => exact ⟨_, inStep.unpack found⟩
    | pass request ahead found other => exact ⟨_, inStep.pass key other ahead⟩

/-- So does every schedule. -/
theorem run (inStep : crew.InStep ledger) (schedule : List ThreadKey) :
    ∃ later, (crew.run schedule).InStep later := by
  induction schedule generalizing crew ledger with
  | nil => exact ⟨ledger, inStep⟩
  | cons next schedule inductionStep =>
      rcases inStep.step next with ⟨later, still⟩
      exact inductionStep still

/-! ## What every schedule leads to -/

theorem getMessage (inStep : crew.InStep ledger) {opening : Opening} {id : MessageId}
    (opened : ⟨.openMessage opening, .ok id⟩ ∈ entries crew.log) :
    crew.engine.getMessage id =
      .ok (Chronicle.conclude (.opened id opening) ((entries crew.log).endings id)) := by
  have record := Chronicle.record?_of_mem inStep.unique opened
  rw [Volatile.getMessage, inStep.represents.messages, inStep.recalls.messages, record]

theorem getChunk (inStep : crew.InStep ledger) {digest : Digest} {first : Bytes}
    {others : List Bytes} (added : (entries crew.log).additions digest = first :: others) :
    crew.engine.getChunk digest = .ok ⟨digest, first, others.length + 1⟩ := by
  rw [Volatile.getChunk, inStep.represents.chunks, inStep.recalls.chunks, Chronicle.held?, added]
  exact Volatile.unpack_pack digest crew.engine.level ⟨first, others.length + 1⟩

/-- A question for a chunk that came after the first addition was answered with the bytes of this
addition. -/
theorem answered (inStep : crew.InStep ledger) {digest : Digest} {first : Bytes}
    {others : List Bytes} (added : (entries crew.log).additions digest = first :: others)
    {key : ThreadKey} {answer : Except Fault StoredChunk} {moment : Nat}
    (returned : ⟨key, ⟨.getChunk digest, rfl⟩, answer, moment⟩ ∈ crew.log)
    (known : (entries (crew.log.take moment)).additions digest ≠ []) :
    answer = .ok ⟨digest, first,
      ((entries (crew.log.take moment)).additions digest).length⟩ := by
  rcases List.append_of_mem returned with ⟨before, after, split⟩
  have fits := inStep.fits before _ after split
  have earlier : crew.log.take moment = before.take moment := by
    rw [split, List.take_append_of_le_length fits.moment]
  have prior : (entries crew.log).additions digest =
      (entries (crew.log.take moment)).additions digest ++
        (entries (crew.log.drop moment)).additions digest := by
    rw [Chronicle.additions, Chronicle.additions, Chronicle.additions, ← List.filterMap_append,
      entries, entries, entries, ← List.map_append, List.take_append_drop]
  cases early : (entries (crew.log.take moment)).additions digest with
  | nil => exact absurd early known
  | cons one more =>
      rw [early, added, List.cons_append] at prior
      cases prior
      have right := fits.answer (by rintro ⟨⟩)
      simp only at right
      rw [← earlier, Chronicle.answerTo, Chronicle.held?, early] at right
      exact right

/-- A question for a message that came after its opening was answered with the record as it was
opened and then closed last. -/
theorem read (inStep : crew.InStep ledger) {opening : Opening} {id : MessageId}
    {before after : List Event} {key : ThreadKey} {answer : Except Fault MessageRecord}
    {moment : Nat}
    (split : crew.log = before ++ ⟨key, ⟨.getMessage id, rfl⟩, answer, moment⟩ :: after)
    (opened : ⟨.openMessage opening, .ok id⟩ ∈ entries before) :
    answer = .ok (Chronicle.conclude (.opened id opening) ((entries before).endings id)) := by
  have fits := inStep.fits before _ after split
  have here : moment = before.length := fits.prompt nofun
  have right := fits.answer nofun
  have unique : (entries before).issued.Nodup := by
    have all := inStep.unique
    rw [split, entries, List.map_append, Chronicle.issued, List.filterMap_append] at all
    exact (List.nodup_append.mp all).1
  simp only [here, List.take_length] at right
  rw [Chronicle.answerTo, Chronicle.record?_of_mem unique opened] at right
  exact right

end InStep
end Crew

/-- However the steps of any threads on a new engine are interleaved, and at every point, each thread
has made the calls of its program in their order, and has made all of them when it had its turn
often enough.  No number was given out twice, and a message whose opening has returned is read, now
and by every later call, as it was opened and then closed last.  Of the additions under a digest
only the first one was new, and the chunk is read with the bytes of this addition: now with the
number of all additions, by an earlier call with the number of those before it had the lock.  Every
other answer is what the calls before it determine. -/
theorem interleavings_tell (level : Nat) (programs : ThreadKey → List Request)
    (schedule : List ThreadKey) :
    let crew := (Crew.new level programs).run schedule
    let told := entries crew.log
    (∀ key, crew.program key = programs key ∧
      (2 * (programs key).length ≤ schedule.count key → crew.returned key = programs key)) ∧
    told.issued.Nodup ∧
    (∀ opening id, ⟨.openMessage opening, .ok id⟩ ∈ told →
      crew.engine.getMessage id =
        .ok (Chronicle.conclude (.opened id opening) (told.endings id))) ∧
    (∀ opening id before key answer moment after,
      crew.log = before ++ ⟨key, ⟨.getMessage id, rfl⟩, answer, moment⟩ :: after →
      ⟨.openMessage opening, .ok id⟩ ∈ entries before →
      answer = .ok (Chronicle.conclude (.opened id opening) ((entries before).endings id))) ∧
    told.Deduplicates ∧
    (∀ digest first others, told.additions digest = first :: others →
      crew.engine.getChunk digest = .ok ⟨digest, first, others.length + 1⟩ ∧
      ∀ key answer moment, ⟨key, ⟨.getChunk digest, rfl⟩, answer, moment⟩ ∈ crew.log →
        (entries (crew.log.take moment)).additions digest ≠ [] →
        answer = .ok ⟨digest, first,
          ((entries (crew.log.take moment)).additions digest).length⟩) ∧
    Throughout Event.FitsAfter crew.log := by
  intro crew told
  rcases (Crew.inStep_new level programs).run schedule with ⟨ledger, inStep⟩
  have program : ∀ key, crew.program key = programs key :=
    (Crew.new level programs).program_run schedule
  refine ⟨fun key => ⟨program key, fun often => ?_⟩, inStep.unique,
    fun opening id => inStep.getMessage,
    fun opening id before key answer moment after => inStep.read, inStep.dedup,
    fun digest first others added => ⟨inStep.getChunk added,
      fun key answer moment => inStep.answered added⟩, inStep.fits⟩
  have bound : (crew.threads key).work ≤ 2 * (programs key).length - schedule.count key := by
    have fresh : ((Crew.new level programs).threads key).work = 2 * (programs key).length :=
      Nat.zero_add _
    rw [← fresh]
    exact (Crew.new level programs).work_run schedule key
  rw [← program key, Crew.program, Thread.requests_of_work (by omega), List.append_nil]

/-- Two threads take their numbers in one order and publish in the other, both add a chunk, and the
copy that the first one makes of it is inflated after one more addition.  A third thread reads what
the second one has closed. -/
theorem interleavings_tell_crossed :
    let nines : Digest := ⟨List.replicate 32 9, rfl⟩
    let first : ThreadKey := ⟨0⟩
    let second : ThreadKey := ⟨1⟩
    let third : ThreadKey := ⟨2⟩
    let programs : ThreadKey → List Request := fun key =>
      if key = first then
        [⟨.openMessage {}, rfl⟩, ⟨.addChunk nines [1], rfl⟩, ⟨.getChunk nines, rfl⟩]
      else if key = second then
        [⟨.openMessage { tls := true }, rfl⟩, ⟨.addChunk nines [2], rfl⟩,
          ⟨.closeMessage ⟨2⟩ 0 .empty {}, rfl⟩, ⟨.addChunk nines [3], rfl⟩]
      else if key = third then [⟨.getMessage ⟨2⟩, rfl⟩]
      else []
    let schedule :=
      [first, second, second, first, second, first, first, second, second, first, third, third]
    let crew := (Crew.new 6 programs).run schedule
    let told : Chronicle :=
      [⟨.openMessage { tls := true }, .ok ⟨2⟩⟩, ⟨.openMessage {}, .ok ⟨1⟩⟩,
        ⟨.addChunk nines [2], .ok false⟩, ⟨.addChunk nines [1], .ok true⟩,
        ⟨.closeMessage ⟨2⟩ 0 .empty {}, .ok ()⟩, ⟨.addChunk nines [3], .ok true⟩,
        ⟨.getChunk nines, .ok ⟨nines, [2], 2⟩⟩,
        ⟨.getMessage ⟨2⟩,
          .ok ((MessageRecord.opened ⟨2⟩ { tls := true }).close 0 .empty {})⟩]
    entries crew.log = told ∧
      crew.returned third = programs third ∧
      crew.engine.getMessage ⟨1⟩ = .ok (.opened ⟨1⟩ {}) ∧
      crew.engine.getChunk nines = .ok ⟨nines, [2], 3⟩ := by
  intro nines first second third programs schedule crew told
  have log : entries crew.log = told := Note.eq_of_map_of (by decide +kernel)
  have added : (entries crew.log).additions nines = [[2], [1], [3]] := by
    rw [log]
    decide +kernel
  have ending : (entries crew.log).endings ⟨1⟩ = [] := by
    rw [log]
    rfl
  rcases interleavings_tell 6 programs schedule with
    ⟨made, _, opened, _, _, chunks, _⟩
  have record := opened {} ⟨1⟩ (log ▸ .tail _ (.head _))
  have chunk := (chunks nines [2] [[1], [3]] added).1
  rw [ending] at record
  exact ⟨log, (made third).2 (by decide), record, chunk⟩

end Store
end MailVault
