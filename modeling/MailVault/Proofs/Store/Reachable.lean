import MailVault.Proofs.Store.Lifecycle

/-!
# What a vault can come to

Engines of all kinds are made, are asked anything, are started and stopped, and are
dropped again.  However a vault has come about in this way, what an engine in memory or
a file holds is the account of a ledger, also behind an engine that lets calls fail.
In such a ledger every record has the total of its manifest, whether it is closed or not,
since a record that was only opened has no bytes and no chunks.

An open engine therefore always keeps a ledger of which that much is known.  What is
read from an engine need not be said of engines at all, but only of ledgers.

The numbers of engines are given out in their order and are never used again, so that a
new engine does not take the place of another one.
-/

namespace MailVault
namespace Store

/-- Every record has the total of its manifest. -/
def Ledger.Balanced (ledger : Ledger) : Prop :=
  ∀ id record, ledger.messages.find? id = some record →
    record.totalBytes = record.manifest.totalSize

/-- An engine that was just made. -/
inductive Engine.IsNew : Engine → Prop where
  | memory (level : Nat) : IsNew (.volatile (.new level))
  | durable (path : String) : IsNew (.durable (.new path))
  | faulty (level : Nat) (plans : Table Call.Kind Plan) : IsNew (.faulty ⟨.new level, plans⟩)

namespace Vault

/-- The vaults that come about when engines are made, called and dropped. -/
inductive Reachable : Vault → Prop where
  | empty : Reachable .empty
  | add {vault : Vault} (before : Reachable vault) {engine : Engine} (isNew : engine.IsNew) :
    Reachable (vault.add engine).2
  | call {vault : Vault} (before : Reachable vault) (key : EngineKey) {β : Type}
    (request : Call β) : Reachable (vault.call key request).2
  | retain {vault : Vault} (before : Reachable vault) (keys : List EngineKey) :
    Reachable (vault.retain keys)

/-- The engine of that name is in memory, or it was started and holds a file. -/
def IsOpen (vault : Vault) (key : EngineKey) : Prop :=
  (∃ engine, vault.engines.find? key = some (.volatile engine)) ∨
    ∃ file, vault.fileOf? key = some file

end Vault

/-! ## Ledgers -/

namespace Ledger.Balanced

variable {ledger : Ledger}

theorem empty : Ledger.empty.Balanced := nofun

/-- A record that has the total of its manifest may be written. -/
theorem write (balanced : ledger.Balanced) (id : MessageId) {record : MessageRecord}
    (right : record.totalBytes = record.manifest.totalSize) :
    Balanced { ledger with messages := ledger.messages.insert id record } := by
  intro other found here
  rcases Table.find?_insert_cases here with ⟨_, rfl⟩ | ⟨_, before⟩
  · exact right
  · exact balanced other found before

theorem call (balanced : ledger.Balanced) {β : Type} (request : Call β) :
    (ledger.call request).2.Balanced := by
  cases request with
  | start => exact balanced
  | stop => exact balanced
  | openMessage opening =>
      have right : (MessageRecord.opened ⟨ledger.last + 1⟩ opening).totalBytes =
          (MessageRecord.opened ⟨ledger.last + 1⟩ opening).manifest.totalSize := rfl
      exact balanced.write ⟨ledger.last + 1⟩ right
  | closeMessage id total manifest summary =>
      rcases ledger.closeMessage_cases id total manifest summary with
        ⟨fault, refused⟩ | ⟨record, right, _, closed⟩
      · rw [Ledger.call, refused]
        exact balanced
      · rw [Ledger.call, closed]
        exact balanced.write id right
  | addChunk digest data =>
      intro id record found
      rw [Ledger.call, (ledger.addChunk_frame digest data).2] at found
      exact balanced id record found
  | getMessage id => exact balanced
  | getChunk digest => exact balanced

end Ledger.Balanced

/-! ## Vaults -/

namespace Vault

/-- Every engine has one of the numbers that were given out. -/
def Orderly (vault : Vault) : Prop :=
  ∀ key engine, vault.engines.find? key = some engine → key.index < vault.made

/-- All that is held in memory and in files is the account of a balanced ledger. -/
structure Booked (vault : Vault) : Prop where
  memory : ∀ key engine memory, vault.engines.find? key = some engine →
    engine.memory? = some memory → ∃ ledger, memory.Represents ledger ∧ ledger.Balanced
  files : ∀ file database, vault.disk.find? file = some database →
    ∃ ledger, database.Represents ledger ∧ ledger.Balanced
  /-- A file that an engine holds exists. -/
  present : ∀ key engine file, vault.engines.find? key = some (.durable engine) →
    engine.file = some file → ∃ database, vault.disk.find? file = some database

/-- One more call of an engine that answers as a ledger does leaves it in step with a balanced
ledger. -/
theorem exists_ledger_of_call {ε : Type} {answer : {β : Type} → ε → Call β → Outcome ε β}
    {Represents : ε → Ledger → Prop} (answers : (Host.of answer : Host Unit ε).Answers Represents)
    {engine : ε} (known : ∃ ledger, Represents engine ledger ∧ ledger.Balanced) {β : Type}
    (request : Call β) :
    ∃ ledger, Represents (answer engine request).2 ledger ∧ ledger.Balanced := by
  rcases known with ⟨ledger, represents, balanced⟩
  exact ⟨_, (answers () request engine ledger represents).2, balanced.call request⟩

theorem find?_retain (vault : Vault) (keys : List EngineKey) (key : EngineKey) :
    (vault.retain keys).engines.find? key =
      if key ∈ keys then vault.engines.find? key else none := by
  rcases vault with ⟨⟨entries⟩, disk, made⟩
  simp only [retain, Table.find?]
  induction entries with
  | nil => rw [List.filter_nil, Table.findIn, ite_self]
  | cons entry rest inductionStep =>
      rcases entry with ⟨first, engine⟩
      rw [List.filter_cons]
      by_cases kept : first ∈ keys
      · rw [if_pos (decide_eq_true kept), Table.findIn, Table.findIn, inductionStep]
        by_cases here : first = key
        · rw [if_pos here, if_pos here, if_pos (here ▸ kept)]
        · rw [if_neg here, if_neg here]
      · rw [if_neg fun held => kept (of_decide_eq_true held), inductionStep, Table.findIn]
        by_cases here : first = key
        · rw [if_neg (here ▸ kept), if_neg (here ▸ kept)]
        · rw [if_neg here]

namespace Orderly

variable {vault : Vault}

theorem add (orderly : vault.Orderly) (engine : Engine) : (vault.add engine).2.Orderly := by
  intro key found listed
  rcases Table.find?_insert_cases listed with ⟨rfl, _⟩ | ⟨_, before⟩
  · exact Nat.lt_succ_self vault.made
  · exact Nat.lt_succ_of_lt (orderly key found before)

/-- The state of an engine that is there may be put back. -/
theorem put (orderly : vault.Orderly) {key : EngineKey} (old : key.index < vault.made)
    (engine : Engine) : (vault.put key engine).Orderly := by
  intro other found listed
  rcases Table.find?_insert_cases listed with ⟨rfl, _⟩ | ⟨_, before⟩
  · exact old
  · exact orderly other found before

theorem call (orderly : vault.Orderly) (key : EngineKey) {β : Type} (request : Call β) :
    (vault.call key request).2.Orderly := by
  unfold Vault.call
  cases found : vault.engines.find? key with
  | none => exact orderly
  | some engine =>
      have old := orderly key engine found
      cases engine with
      | volatile engine => exact orderly.put old _
      | faulty engine => exact orderly.put old _
      | durable engine =>
          dsimp only
          rcases vault.callDurable_cases key engine request with
            ⟨fault, failed⟩ | ⟨answer, file, contents, done, _⟩ | refused | ⟨_, _, _, answered⟩
          · rw [failed]
            exact orderly
          · rw [done]
            exact orderly.put old (.durable { engine with file := file })
          · rw [refused]
            exact orderly
          · rw [answered]
            exact orderly

theorem retain (orderly : vault.Orderly) (keys : List EngineKey) : (vault.retain keys).Orderly := by
  intro key engine here
  rw [find?_retain] at here
  exact orderly key engine (Option.ite_none_right_eq_some.mp here).2

end Orderly

namespace Booked

variable {vault : Vault}

theorem empty : Vault.empty.Booked where
  memory _ _ _ := nofun
  files _ _ := nofun
  present _ _ _ := nofun

/-- An engine may be put into the vault if what it has in memory is booked, and if the file that it
holds, if any, exists. -/
theorem put (booked : vault.Booked) (key : EngineKey) {engine : Engine}
    (known : ∀ memory, engine.memory? = some memory →
      ∃ ledger, memory.Represents ledger ∧ ledger.Balanced)
    (holds : ∀ file, engine.heldFile? = some file →
      ∃ database, vault.disk.find? file = some database) :
    (vault.put key engine).Booked where
  memory other found memory here kept := by
    rcases Table.find?_insert_cases here with ⟨_, rfl⟩ | ⟨_, before⟩
    · exact known memory kept
    · exact booked.memory other found memory before kept
  files := booked.files
  present other found file here held := by
    rcases Table.find?_insert_cases here with ⟨_, rfl⟩ | ⟨_, before⟩
    · exact holds file held
    · exact booked.present other found file before held

/-- A file may be made or written when its contents are booked. -/
theorem write (booked : vault.Booked) (file : FileName) {database : Database}
    (known : ∃ ledger, database.Represents ledger ∧ ledger.Balanced) :
    Booked { vault with disk := vault.disk.insert file database } where
  memory := booked.memory
  files other found here := by
    rcases Table.find?_insert_cases here with ⟨_, rfl⟩ | ⟨_, before⟩
    · exact known
    · exact booked.files other found before
  present key engine other here held := by
    rcases booked.present key engine other here held with ⟨contents, before⟩
    rw [Table.find?_insert]
    by_cases same : other = file
    · exact ⟨database, if_pos same⟩
    · exact ⟨contents, (if_neg same).trans before⟩

theorem add (booked : vault.Booked) {engine : Engine} (isNew : engine.IsNew) :
    (vault.add engine).2.Booked := by
  have known : ∀ memory, engine.memory? = some memory →
      ∃ ledger, memory.Represents ledger ∧ ledger.Balanced := by
    intro memory kept
    have blank (level : Nat) : ∃ ledger, (Volatile.new level).Represents ledger ∧
        ledger.Balanced := ⟨.empty, Volatile.represents_new level, .empty⟩
    cases isNew with
    | memory level =>
        cases kept
        exact blank level
    | durable path => cases kept
    | faulty level plans =>
        cases kept
        exact blank level
  have put := booked.put ⟨vault.made⟩ known fun file held => by cases isNew <;> cases held
  exact ⟨put.memory, put.files, put.present⟩

theorem retain (booked : vault.Booked) (keys : List EngineKey) : (vault.retain keys).Booked := by
  have found {key : EngineKey} {engine : Engine}
      (here : (vault.retain keys).engines.find? key = some engine) :
      vault.engines.find? key = some engine := by
    rw [find?_retain] at here
    exact (Option.ite_none_right_eq_some.mp here).2
  exact ⟨fun key engine memory here => booked.memory key engine memory (found here),
    booked.files, fun key engine file here => booked.present key engine file (found here)⟩

theorem startDurable (booked : vault.Booked) (key : EngineKey) (engine : Durable) :
    (vault.startDurable key engine).2.Booked := by
  rcases vault.startDurable_cases key engine with ⟨fault, failed⟩ | ⟨file, _, _, started⟩
  · rw [failed]
    exact booked
  · rw [started]
    have contents : ∃ ledger,
        ((vault.disk.find? file).getD Database.empty).Represents ledger ∧ ledger.Balanced := by
      cases here : vault.disk.find? file with
      | none => exact ⟨.empty, Database.represents_empty, .empty⟩
      | some database => exact booked.files file database here
    refine (booked.write file contents).put key nofun fun other held => ?_
    cases held
    exact ⟨_, (Table.find?_insert _ _ _ _).trans (if_pos rfl)⟩

theorem callDurable (booked : vault.Booked) (key : EngineKey) (engine : Durable) {β : Type}
    (request : Call β) : (vault.callDurable key engine request).2.Booked := by
  by_cases started : request.kind = .start
  · cases request with
    | start => exact booked.startDurable key engine
    | _ => cases started
  by_cases stopped : request.kind = .stop
  · cases request with
    | stop => exact booked.put key nofun nofun
    | _ => cases stopped
  rcases vault.callDurable_through key engine started stopped with
    refused | ⟨file, database, held, answered⟩
  · rw [refused]
    exact booked
  · rw [answered]
    have known := booked.files file database (contents?_eq_some.mp held).2
    exact booked.write file (exists_ledger_of_call Database.answers known request)

/-- Whatever is asked of an engine, all stays booked. -/
theorem call (booked : vault.Booked) (key : EngineKey) {β : Type} (request : Call β) :
    (vault.call key request).2.Booked := by
  unfold Vault.call
  cases found : vault.engines.find? key with
  | none => exact booked
  | some engine =>
      cases engine with
      | volatile engine =>
          have known := booked.memory key _ engine found rfl
          refine booked.put key (fun memory same => ?_) nofun
          cases same
          exact exists_ledger_of_call Volatile.answers known request
      | durable engine => exact booked.callDurable key engine request
      | faulty engine =>
          have known := booked.memory key _ engine.inner found rfl
          rcases engine.call_cases Volatile.call request with ⟨fault, _, failed⟩ | reached
          · simp only [failed]
            refine booked.put key (fun memory same => ?_) nofun
            cases same
            exact known
          · simp only [reached]
            refine booked.put key (fun memory same => ?_) nofun
            cases same
            exact exists_ledger_of_call Volatile.answers known request

end Booked

theorem Reachable.after {vault : Vault} (reachable : vault.Reachable) (key : EngineKey)
    (requests : List Request) : (host.after key requests vault).Reachable := by
  induction requests generalizing vault with
  | nil => exact reachable
  | cons request later inductionStep => exact inductionStep (reachable.call key request.call)

/-- In every vault that comes about, all is booked. -/
theorem Reachable.booked {vault : Vault} (reachable : vault.Reachable) : vault.Booked := by
  induction reachable with
  | empty => exact .empty
  | add before isNew inductionStep => exact inductionStep.add isNew
  | call before key request inductionStep => exact inductionStep.call key request
  | retain before keys inductionStep => exact inductionStep.retain keys

theorem Reachable.orderly {vault : Vault} (reachable : vault.Reachable) : vault.Orderly := by
  induction reachable with
  | empty => exact nofun
  | @add before _ engine _ inductionStep => exact inductionStep.add engine
  | call before key request inductionStep => exact inductionStep.call key request
  | retain before keys inductionStep => exact inductionStep.retain keys

/-- An open engine of a vault that comes about remembers a balanced ledger. -/
theorem Reachable.keeps {vault : Vault} (reachable : vault.Reachable) {key : EngineKey}
    (isOpen : vault.IsOpen key) : ∃ ledger, vault.Keeps key ledger ∧ ledger.Balanced := by
  have booked := reachable.booked
  rcases isOpen with ⟨engine, found⟩ | ⟨file, holds⟩
  · rcases booked.memory key _ engine found rfl with ⟨ledger, represents, balanced⟩
    exact ⟨ledger, .memory engine found represents, balanced⟩
  · rcases Option.bind_eq_some_iff.mp holds with ⟨engine, found, held⟩
    cases engine with
    | durable engine =>
        rcases booked.present key engine file found held with ⟨database, here⟩
        rcases booked.files file database here with ⟨ledger, represents, balanced⟩
        exact ⟨ledger, .file engine file database found (contents?_eq_some.mpr ⟨held, here⟩)
          represents, balanced⟩
    | volatile engine => cases held
    | faulty engine => cases held

end Vault
end Store
end MailVault
