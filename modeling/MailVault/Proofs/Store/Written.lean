import MailVault.Proofs.Store.Dialogue
import MailVault.Proofs.Store.Outcomes

/-!
# Files that remember a ledger

The tables of a file hold what a ledger holds, but taken apart: the bytes of a chunk
and the count of its additions are in tables of their own, a record is there in its
written form, and the number that was given out last is missing until there is one.
Since every record is read as it was written, the contents of an open file answer
every call as the ledger does.
-/

namespace MailVault
namespace Store

variable {κ : Type}

namespace Database

/-- The tables of a file hold the ledger. -/
structure Represents (database : Database) (ledger : Ledger) : Prop where
  last : database.last.getD 0 = ledger.last
  messages : database.messages = ledger.messages.map MessageRecord.toValue
  payloads : ∀ digest, database.payloads.find? digest =
    (ledger.chunks.find? digest).map Held.data
  references : ∀ digest, database.references.find? digest =
    (ledger.chunks.find? digest).map Held.references

theorem represents_empty : Represents empty Ledger.empty where
  last := rfl
  messages := rfl
  payloads _ := rfl
  references _ := rfl

namespace Represents

variable {database : Database} {ledger : Ledger}

theorem getMessage (represents : database.Represents ledger) (id : MessageId) :
    database.getMessage id = ledger.getMessage id := by
  rw [Database.getMessage, Ledger.getMessage, represents.messages, Table.find?_map]
  cases ledger.messages.find? id with
  | none => rfl
  | some record => simp only [Option.map_some, MessageRecord.ofValue_toValue]

/-- The bytes and the count of a chunk are put together as the ledger has them. -/
theorem getChunk (represents : database.Represents ledger) (digest : Digest) :
    database.getChunk digest = ledger.getChunk digest := by
  rw [Database.getChunk, Ledger.getChunk, represents.payloads, represents.references]
  cases ledger.chunks.find? digest with
  | none => rfl
  | some held => rfl

theorem openMessage (represents : database.Represents ledger) (opening : Opening) :
    (database.openMessage opening).1 = (ledger.openMessage opening).1 ∧
      (database.openMessage opening).2.Represents (ledger.openMessage opening).2 := by
  simp only [Database.openMessage, Ledger.openMessage, represents.last, represents.messages,
    Table.insert_map]
  exact ⟨trivial, rfl, rfl, represents.payloads, represents.references⟩

/-- Closing fails as in the ledger, or writes the record that the ledger notes. -/
theorem closeMessage (represents : database.Represents ledger) (id : MessageId) (total : Nat)
    (manifest : Manifest) (summary : Summary) :
    (database.call (.closeMessage id total manifest summary)).1 =
        (ledger.closeMessage id total manifest summary).1 ∧
      (database.call (.closeMessage id total manifest summary)).2.Represents
        (ledger.closeMessage id total manifest summary).2 := by
  simp only [Database.call, Ledger.closeMessage]
  cases checkTotal total manifest with
  | error fault => exact ⟨rfl, represents⟩
  | ok _ =>
      simp only [Database.closeMessage, represents.getMessage, Ledger.getMessage]
      cases ledger.messages.find? id with
      | none => exact ⟨rfl, represents⟩
      | some record =>
          simp only [represents.messages, Table.insert_map]
          exact ⟨trivial, represents.last, rfl, represents.payloads, represents.references⟩

/-- An addition is known to the counts just when it is known to the ledger.  The payload of a known
digest stays as it was. -/
theorem addChunk (represents : database.Represents ledger) (digest : Digest) (data : Bytes) :
    (database.addChunk digest data).1 = (ledger.addChunk digest data).1 ∧
      (database.addChunk digest data).2.Represents (ledger.addChunk digest data).2 := by
  simp only [Database.addChunk, Ledger.addChunk, represents.references]
  cases found : ledger.chunks.find? digest with
  | none =>
      refine ⟨rfl, represents.last, represents.messages, fun other => ?_, fun other => ?_⟩
      · simp only [Option.map_none, Table.find?_insert, represents.payloads]
        split <;> rfl
      · simp only [Option.map_none, Table.find?_insert, represents.references]
        split <;> rfl
  | some held =>
      refine ⟨rfl, represents.last, represents.messages, fun other => ?_, fun other => ?_⟩
      · simp only [Option.map_some, Table.find?_insert, represents.payloads]
        by_cases same : other = digest
        · rw [if_pos same, same, found]
          rfl
        · rw [if_neg same]
      · simp only [Option.map_some, Table.find?_insert, represents.references]
        split <;> rfl

end Represents

/-- The contents of an open file answer every call as the ledger does. -/
theorem answers : (Host.of Database.call : Host κ Database).Answers Represents := by
  intro β key request database ledger represents
  cases request with
  | start => exact ⟨rfl, represents⟩
  | stop => exact ⟨rfl, represents⟩
  | openMessage opening => exact represents.openMessage opening
  | closeMessage id total manifest summary =>
      exact represents.closeMessage id total manifest summary
  | addChunk digest data => exact represents.addChunk digest data
  | getMessage id => exact ⟨represents.getMessage id, represents⟩
  | getChunk digest => exact ⟨represents.getChunk digest, represents⟩

end Database

/-! ## Engines of a vault -/

/-- A host of which any call may fail on its way follows what the host answers. -/
theorem Host.AnswersAt.interrupted {σ : Type} {host : Host κ σ} {key : κ}
    {Represents : σ → Ledger → Prop} (answers : host.AnswersAt key Represents)
    (faults : Nat → Option Fault) :
    (host.interrupted faults).FollowsAt key
      fun numbered ledger => Represents numbered.inner ledger := by
  intro request numbered ledger represents
  rcases host.interrupted_cases faults key request.call numbered with
    ⟨fault, _, failed⟩ | reached
  · rw [failed]
    exact Or.inl ⟨fault, rfl, represents⟩
  · rw [reached]
    exact Or.inr (answers request numbered.inner ledger represents)

namespace Vault

/-- The engine of that name is open and remembers the ledger, in memory or in its file. -/
inductive Keeps (key : EngineKey) (vault : Vault) (ledger : Ledger) : Prop where
  | memory (engine : Volatile) (found : vault.engines.find? key = some (.volatile engine))
      (represents : engine.Represents ledger)
  | file (engine : Durable) (file : FileName) (database : Database)
      (found : vault.engines.find? key = some (.durable engine))
      (contents : vault.contents? engine = some (file, database))
      (represents : database.Represents ledger)

/-- An open engine answers as the ledger does, and stays open. -/
theorem answersAt (key : EngineKey) : host.AnswersAt key (Keeps key) := by
  intro request vault ledger keeps
  rcases Call.kind_ne_of_isStorage request.isStorage with ⟨started, stopped⟩
  simp only [host, call]
  cases keeps with
  | memory engine found represents =>
      simp only [found]
      rcases (Volatile.answers : (Host.of Volatile.call : Host Unit Volatile).Answers _)
        () request.call engine ledger represents with ⟨same, still⟩
      exact ⟨same, .memory _ ((Table.find?_insert _ _ _ _).trans (if_pos rfl)) still⟩
  | file engine file database found contents represents =>
      simp only [found, callDurable_of_contents contents key started stopped]
      rcases (Database.answers : (Host.of Database.call : Host Unit Database).Answers _)
        () request.call database ledger represents with ⟨same, still⟩
      have held := contents?_eq_some.mp contents
      exact ⟨same, .file engine file _ found
        (contents?_eq_some.mpr ⟨held.1, (Table.find?_insert _ _ _ _).trans (if_pos rfl)⟩) still⟩

end Vault
end Store
end MailVault
