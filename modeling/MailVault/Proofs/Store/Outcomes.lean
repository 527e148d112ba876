import MailVault.Proofs.Message.Encoding
import MailVault.Store.Vault

/-!
# How calls can go

For every kind of engine it is said here once which ways a call can go, and what a
message looks like that was just closed.  Statements about all calls are then
proved by going through these ways, and need not look into the engines.

Calls may also fail before they reach an engine.  A host with such failures numbers the
calls, so that every pattern of failures is a function on numbers.
-/

namespace MailVault
namespace Store

variable {κ σ : Type}

theorem checkTotal_ok {total : Nat} {manifest : Manifest} {answer : Unit}
    (ok : checkTotal total manifest = .ok answer) : total = manifest.totalSize := by
  unfold checkTotal at ok
  by_cases right : total = manifest.totalSize
  · exact right
  · rw [if_neg right] at ok
    cases ok

theorem checkTotal_of_eq {total : Nat} {manifest : Manifest}
    (right : total = manifest.totalSize) : checkTotal total manifest = .ok () :=
  if_pos right

/-- What holds of the state is kept by every call. -/
def Host.Preserves (host : Host κ σ) (Holds : σ → Prop) : Prop :=
  ∀ {β : Type} (key : κ) (request : Call β) (state : σ), Holds state →
    Holds (host.call key request state).2

/-! ## Calls that fail on their way -/

/-- A state with the number of calls that were made before. -/
structure Numbered (σ : Type) where
  calls : Nat
  inner : σ

/-- The host of which any call may fail and then does not reach the engine; which ones do is told
by their numbers. -/
def Host.interrupted (host : Host κ σ) (faults : Nat → Option Fault) : Host κ (Numbered σ) where
  call key request numbered :=
    match faults numbered.calls with
    | some fault => (.error fault, ⟨numbered.calls + 1, numbered.inner⟩)
    | none =>
      ((host.call key request numbered.inner).1,
        ⟨numbered.calls + 1, (host.call key request numbered.inner).2⟩)

/-- A call fails on its way and changes nothing, or it reaches the engine. -/
theorem Host.interrupted_cases (host : Host κ σ) (faults : Nat → Option Fault) {β : Type}
    (key : κ) (request : Call β) (numbered : Numbered σ) :
    (∃ fault, faults numbered.calls = some fault ∧
      (host.interrupted faults).call key request numbered =
        (.error fault, ⟨numbered.calls + 1, numbered.inner⟩)) ∨
      (host.interrupted faults).call key request numbered =
        ((host.call key request numbered.inner).1,
          ⟨numbered.calls + 1, (host.call key request numbered.inner).2⟩) := by
  cases planned : faults numbered.calls with
  | some fault =>
      refine Or.inl ⟨fault, rfl, ?_⟩
      simp only [interrupted, planned]
  | none =>
      right
      simp only [interrupted, planned]

theorem Host.Preserves.interrupted {host : Host κ σ} {Holds : σ → Prop}
    (preserves : host.Preserves Holds) (faults : Nat → Option Fault) :
    (host.interrupted faults).Preserves fun numbered => Holds numbered.inner := by
  intro β key request numbered holds
  rcases host.interrupted_cases faults key request numbered with ⟨fault, _, failed⟩ | reached
  · rw [failed]
    exact holds
  · rw [reached]
    exact preserves key request numbered.inner holds

namespace Faulty

/-- How the plans of an engine treat the next call of a kind, and the plan that is left. -/
def upcoming (engine : Faulty σ) (kind : Call.Kind) : Option Fault × Plan :=
  ((engine.plans.find? kind).getD []).next

/-- A planned fault is answered and the engine behind stays as it was, or that engine answers. -/
theorem call_cases (engine : Faulty σ) (answer : {γ : Type} → σ → Call γ → Outcome σ γ)
    {β : Type} (request : Call β) :
    (∃ fault, (engine.upcoming request.kind).1 = some fault ∧
      engine.call answer request =
        (.error fault, engine.schedule request.kind (engine.upcoming request.kind).2)) ∨
      engine.call answer request =
        ((answer engine.inner request).1,
          { engine.schedule request.kind (engine.upcoming request.kind).2 with
            inner := (answer engine.inner request).2 }) := by
  unfold call upcoming
  rcases ((engine.plans.find? request.kind).getD []).next with ⟨fault, plan⟩
  cases fault with
  | some fault => exact Or.inl ⟨fault, rfl, rfl⟩
  | none => exact Or.inr rfl

end Faulty

/-! ## Messages that were just closed -/

namespace Volatile

theorem find?_of_closeMessage (engine : Volatile) {id : MessageId} {total : Nat}
    {manifest : Manifest} {summary : Summary} {answer : Unit}
    (ok : (engine.closeMessage id total manifest summary).1 = .ok answer) :
    total = manifest.totalSize ∧ ∃ record : MessageRecord,
      (engine.closeMessage id total manifest summary).2.messages.find? id =
        some (record.close total manifest summary) := by
  unfold closeMessage at ok ⊢
  cases checked : checkTotal total manifest with
  | error fault =>
      rw [checked] at ok
      cases ok
  | ok _ =>
      rw [checked] at ok
      refine ⟨checkTotal_ok checked, ?_⟩
      cases known : engine.messages.find? id with
      | none =>
          rw [known] at ok
          cases ok
      | some record =>
          refine ⟨record, ?_⟩
          simp only [Table.find?_insert, if_pos]

end Volatile

namespace Database

theorem getMessage_insert (database : Database) (id other : MessageId) (record : MessageRecord) :
    Database.getMessage
        { database with messages := database.messages.insert id record.toValue } other =
      if other = id then .ok record else database.getMessage other := by
  unfold getMessage
  rw [Table.find?_insert]
  by_cases same : other = id
  · rw [if_pos same, if_pos same]
    simp only [MessageRecord.ofValue_toValue]
  · rw [if_neg same, if_neg same]

/-- A close that succeeds leaves the record that it has filled in. -/
theorem getMessage_of_closeMessage (database : Database) {id : MessageId} {total : Nat}
    {manifest : Manifest} {summary : Summary} {answer : Unit}
    (ok : (database.call (.closeMessage id total manifest summary)).1 = .ok answer) :
    total = manifest.totalSize ∧ ∃ record : MessageRecord,
      (database.call (.closeMessage id total manifest summary)).2.getMessage id =
        .ok (record.close total manifest summary) := by
  simp only [call] at ok ⊢
  cases checked : checkTotal total manifest with
  | error fault =>
      rw [checked] at ok
      cases ok
  | ok _ =>
      rw [checked] at ok
      refine ⟨checkTotal_ok checked, ?_⟩
      simp only [closeMessage] at ok ⊢
      cases read : database.getMessage id with
      | error fault =>
          rw [read] at ok
          cases ok
      | ok record =>
          exact ⟨record, (database.getMessage_insert id id _).trans (if_pos rfl)⟩

end Database

/-- The engine in memory that an engine is, or that is behind it. -/
def Engine.memory? : Engine → Option Volatile
  | .volatile engine => some engine
  | .faulty engine => some engine.inner
  | .durable _ => none

namespace Vault

/-- The record under a number as the engine of that name keeps it. -/
def record? (vault : Vault) (key : EngineKey) (id : MessageId) : Option MessageRecord :=
  match vault.engines.find? key with
  | none => none
  | some (.durable engine) =>
    (vault.contents? engine).bind fun held => (held.2.getMessage id).toOption
  | some engine => engine.memory?.bind fun memory => memory.messages.find? id

theorem contents?_eq_some {vault : Vault} {engine : Durable} {file : FileName}
    {database : Database} :
    vault.contents? engine = some (file, database) ↔
      engine.file = some file ∧ vault.disk.find? file = some database := by
  unfold contents?
  simp only [Option.bind_eq_bind, Option.bind_eq_some_iff, Option.pure_def]
  constructor
  · rintro ⟨held, here, contents, found, equal⟩
    cases equal
    exact ⟨here, found⟩
  · rintro ⟨here, found⟩
    exact ⟨file, here, database, found, rfl⟩

theorem record?_put (vault : Vault) (key : EngineKey) (id : MessageId) {engine : Engine}
    {memory : Volatile} (kept : engine.memory? = some memory) :
    (vault.put key engine).record? key id = memory.messages.find? id := by
  unfold record? put
  rw [Table.find?_insert, if_pos rfl]
  cases engine with
  | volatile engine =>
      cases kept
      rfl
  | faulty engine =>
      cases kept
      rfl
  | durable engine => cases kept

/-- A close that succeeds states the total of the manifest and leaves the record that it has filled
in. -/
theorem record?_of_closeMessage (vault : Vault) (key : EngineKey) {id : MessageId}
    {total : Nat} {manifest : Manifest} {summary : Summary} {answer : Unit}
    (ok : (vault.call key (.closeMessage id total manifest summary)).1 = .ok answer) :
    total = manifest.totalSize ∧ ∃ record : MessageRecord,
      (vault.call key (.closeMessage id total manifest summary)).2.record? key id =
        some (record.close total manifest summary) := by
  unfold call at ok ⊢
  cases found : vault.engines.find? key with
  | none =>
      rw [found] at ok
      cases ok
  | some engine =>
      rw [found] at ok
      cases engine with
      | volatile engine =>
          rcases engine.find?_of_closeMessage ok with ⟨right, record, kept⟩
          exact ⟨right, record, (vault.record?_put key id rfl).trans kept⟩
      | durable engine =>
          simp only [callDurable] at ok ⊢
          cases held : vault.contents? engine with
          | none =>
              rw [held] at ok
              simp only [refuse] at ok
              cases checked : checkTotal total manifest with
              | error fault =>
                  rw [checked] at ok
                  cases ok
              | ok _ =>
                  rw [checked] at ok
                  cases ok
          | some pair =>
              rcases pair with ⟨file, database⟩
              rw [held] at ok
              rcases database.getMessage_of_closeMessage ok with ⟨right, record, kept⟩
              refine ⟨right, record, ?_⟩
              have still : Vault.contents?
                  { vault with
                    disk := vault.disk.insert file
                      (database.call (.closeMessage id total manifest summary)).2 } engine =
                    some (file, (database.call (.closeMessage id total manifest summary)).2) :=
                contents?_eq_some.mpr ⟨(contents?_eq_some.mp held).1,
                  (Table.find?_insert _ _ _ _).trans (if_pos rfl)⟩
              simp only [record?, found, still, Option.bind_some, kept]
              rfl
      | faulty engine =>
          simp only at ok ⊢
          rcases engine.call_cases Volatile.call (.closeMessage id total manifest summary) with
            ⟨fault, _, failed⟩ | reached
          · rw [failed] at ok
            cases ok
          · rw [reached] at ok ⊢
            rcases engine.inner.find?_of_closeMessage ok with ⟨right, record, kept⟩
            exact ⟨right, record, (vault.record?_put key id rfl).trans kept⟩

/-! ## Calls of a durable engine -/

/-- Starting an engine goes wrong and changes nothing, or the engine holds the file that its path
leads to and that was free. -/
theorem startDurable_cases (vault : Vault) (key : EngineKey) (engine : Durable) :
    (∃ fault, vault.startDurable key engine = (.error (.database fault), vault)) ∨
      ∃ file, FilePath.locate vault.disk.contains engine.path = .ok file ∧
        vault.isHeld file = false ∧ vault.startDurable key engine =
          (.ok (), { vault.put key (.durable { engine with file := some file }) with
            disk := vault.disk.insert file ((vault.disk.find? file).getD Database.empty) }) := by
  unfold startDurable
  cases FilePath.locate vault.disk.contains engine.path with
  | error fault => exact Or.inl ⟨_, rfl⟩
  | ok file =>
      simp only
      by_cases held : vault.isHeld file = true
      · rw [if_pos held]
        exact Or.inl ⟨_, rfl⟩
      · rw [if_neg held]
        exact Or.inr ⟨file, rfl, Bool.not_eq_true _ ▸ held, rfl⟩

theorem callDurable_of_none {vault : Vault} {engine : Durable}
    (none : vault.contents? engine = none) (key : EngineKey) {β : Type} {request : Call β}
    (started : request.kind ≠ .start) (stopped : request.kind ≠ .stop) :
    vault.callDurable key engine request = (refuse request, vault) := by
  cases request with
  | start => exact absurd rfl started
  | stop => exact absurd rfl stopped
  | openMessage opening => simp only [callDurable, none]
  | closeMessage id total manifest summary => simp only [callDurable, none]
  | addChunk digest data => simp only [callDurable, none]
  | getMessage id => simp only [callDurable, none]
  | getChunk digest => simp only [callDurable, none]

theorem callDurable_of_contents {vault : Vault} {engine : Durable} {file : FileName}
    {database : Database} (held : vault.contents? engine = some (file, database))
    (key : EngineKey) {β : Type} {request : Call β} (started : request.kind ≠ .start)
    (stopped : request.kind ≠ .stop) :
    vault.callDurable key engine request =
      ((database.call request).1,
        { vault with disk := vault.disk.insert file (database.call request).2 }) := by
  cases request with
  | start => exact absurd rfl started
  | stop => exact absurd rfl stopped
  | openMessage opening => simp only [callDurable, held]
  | closeMessage id total manifest summary => simp only [callDurable, held]
  | addChunk digest data => simp only [callDurable, held]
  | getMessage id => simp only [callDurable, held]
  | getChunk digest => simp only [callDurable, held]

theorem callDurable_through (vault : Vault) (key : EngineKey) (engine : Durable) {β : Type}
    {request : Call β} (started : request.kind ≠ .start) (stopped : request.kind ≠ .stop) :
    vault.callDurable key engine request = (refuse request, vault) ∨
      ∃ file database, vault.contents? engine = some (file, database) ∧
        vault.callDurable key engine request =
          ((database.call request).1,
            { vault with disk := vault.disk.insert file (database.call request).2 }) := by
  cases held : vault.contents? engine with
  | none => exact Or.inl (callDurable_of_none held key started stopped)
  | some pair =>
      exact Or.inr ⟨pair.1, pair.2, rfl, callDurable_of_contents held key started stopped⟩

/-- What a durable engine answers and leaves: it is started or stopped, or it refuses because it is
not open, or the contents of its file answer. -/
theorem callDurable_cases (vault : Vault) (key : EngineKey) (engine : Durable) {β : Type}
    (request : Call β) :
    (∃ fault, vault.callDurable key engine request = (.error (.database fault), vault)) ∨
      (∃ answer file contents, vault.callDurable key engine request =
        (.ok answer, { vault.put key (.durable { engine with file := file }) with
          disk := contents }) ∧
        ∀ name database, contents.find? name = some database →
          vault.disk.find? name = some database ∨ database = Database.empty) ∨
      vault.callDurable key engine request = (refuse request, vault) ∨
      ∃ file database, vault.contents? engine = some (file, database) ∧
        vault.callDurable key engine request =
          ((database.call request).1,
            { vault with disk := vault.disk.insert file (database.call request).2 }) := by
  cases request with
  | start =>
      rcases vault.startDurable_cases key engine with ⟨fault, failed⟩ | ⟨file, _, _, started⟩
      · exact Or.inl ⟨fault, failed⟩
      · refine Or.inr (Or.inl ⟨(), some file, _, started, ?_⟩)
        intro name database found
        rcases Table.find?_insert_cases found with ⟨rfl, rfl⟩ | ⟨_, before⟩
        · cases known : vault.disk.find? name with
          | none => exact Or.inr rfl
          | some contents => exact Or.inl rfl
        · exact Or.inl before
  | stop =>
      exact Or.inr (Or.inl ⟨(), none, vault.disk, rfl, fun name database => Or.inl⟩)
  | openMessage opening => exact Or.inr (Or.inr (vault.callDurable_through key engine nofun nofun))
  | closeMessage id total manifest summary =>
      exact Or.inr (Or.inr (vault.callDurable_through key engine nofun nofun))
  | addChunk digest data => exact Or.inr (Or.inr (vault.callDurable_through key engine nofun nofun))
  | getMessage id => exact Or.inr (Or.inr (vault.callDurable_through key engine nofun nofun))
  | getChunk digest => exact Or.inr (Or.inr (vault.callDurable_through key engine nofun nofun))

end Vault
end Store
end MailVault
