import MailVault.Proofs.Store.Outcomes

/-!
# Totals that are those of their manifests

Closing a message is the only call that looks at a total, and it refuses a total that
is not the sum of the sizes in the manifest.  So an engine speaks of sizes that differ
only to a caller that has counted wrong, and a closed record always has the total of its
manifest, in memory as well as in a file that outlives the engine.
-/

namespace MailVault

/-- If the record is closed, its total is that of its manifest. -/
def MessageRecord.Settled (record : MessageRecord) : Prop :=
  record.closed = true → record.totalBytes = record.manifest.totalSize

namespace Store

variable {κ σ : Type}

def Fault.isMismatch : Fault → Bool
  | .sizeMismatch _ _ => true
  | _ => false

/-- An answer that says nothing of sizes that differ. -/
def Plain {β : Type} (answer : Except Fault β) : Prop :=
  ∀ fault, answer = .error fault → fault.isMismatch = false

theorem plain_ok {β : Type} (value : β) : Plain (.ok value : Except Fault β) := by
  intro fault equal
  cases equal

theorem plain_error {β : Type} {fault : Fault} (other : fault.isMismatch = false) :
    Plain (.error fault : Except Fault β) := by
  intro same equal
  cases equal
  exact other

/-- A total that a call states is the one of the manifest that it comes with. -/
def Call.Exact {β : Type} : Call β → Prop
  | .closeMessage _ total manifest _ => total = manifest.totalSize
  | _ => True

/-- Only wrong totals are answered with sizes that differ, as long as the state is calm, which it
stays. -/
structure Host.Strict (host : Host κ σ) (Calm : σ → Prop) : Prop where
  calm : host.Preserves Calm
  plain : ∀ {β : Type} (key : κ) (request : Call β) (state : σ), Calm state → request.Exact →
    Plain (host.call key request state).1

theorem Host.Strict.interrupted {host : Host κ σ} {Calm : σ → Prop} (strict : host.Strict Calm)
    {faults : Nat → Option Fault}
    (plain : ∀ number fault, faults number = some fault → fault.isMismatch = false) :
    (host.interrupted faults).Strict fun numbered => Calm numbered.inner where
  calm := Host.Preserves.interrupted strict.calm faults
  plain key request numbered calm right := by
    rcases host.interrupted_cases faults key request numbered with
      ⟨fault, planned, failed⟩ | reached
    · rw [failed]
      exact plain_error (plain numbered.calls fault planned)
    · rw [reached]
      exact strict.plain key request numbered.inner calm right

def Plan.Calm (plan : Plan) : Prop :=
  ∀ stretch ∈ plan, ∀ fault, stretch.fault = some fault → fault.isMismatch = false

theorem Plan.Calm.next {plan : Plan} (calm : plan.Calm) :
    plan.next.2.Calm ∧ ∀ fault, plan.next.1 = some fault → fault.isMismatch = false := by
  induction plan with
  | nil => exact ⟨calm, fun fault none => by cases none⟩
  | cons stretch rest inductionStep =>
      rcases stretch with ⟨count, planned⟩
      have first := calm ⟨count, planned⟩ List.mem_cons_self
      have others : Plan.Calm rest := fun other listed =>
        calm other (List.mem_cons_of_mem _ listed)
      cases count with
      | zero => exact inductionStep others
      | succ count =>
          refine ⟨?_, first⟩
          intro other listed
          rcases List.mem_cons.mp listed with rfl | later
          · exact first
          · exact others other later

namespace Faulty

/-- All plans of an engine are without faults about sizes. -/
def Calm (engine : Faulty σ) : Prop :=
  ∀ kind plan, engine.plans.find? kind = some plan → plan.Calm

theorem Calm.upcoming {engine : Faulty σ} (calm : engine.Calm) (kind : Call.Kind) :
    (engine.schedule kind (engine.upcoming kind).2).Calm ∧
      ∀ fault, (engine.upcoming kind).1 = some fault → fault.isMismatch = false := by
  have planned : Plan.Calm ((engine.plans.find? kind).getD []) := by
    cases known : engine.plans.find? kind with
    | none => exact fun stretch listed => by cases listed
    | some plan => exact calm kind plan known
  refine ⟨?_, planned.next.2⟩
  intro other plan found
  rcases Table.find?_insert_cases found with ⟨_, rfl⟩ | ⟨_, before⟩
  · exact planned.next.1
  · exact calm other plan before

end Faulty

/-! ## The engine in memory -/

namespace Volatile

def Settled (engine : Volatile) : Prop :=
  ∀ id record, engine.messages.find? id = some record → record.Settled

theorem plain_call (engine : Volatile) {β : Type} (request : Call β) (right : request.Exact) :
    Plain (engine.call request).1 := by
  cases request with
  | start => exact plain_ok _
  | stop => exact plain_ok _
  | openMessage opening => exact plain_ok _
  | closeMessage id total manifest summary =>
      simp only [call, closeMessage, checkTotal_of_eq right]
      cases engine.messages.find? id with
      | none => exact plain_error rfl
      | some record => exact plain_ok _
  | addChunk digest data =>
      simp only [call, addChunk]
      cases engine.chunks.find? digest with
      | none => exact plain_ok _
      | some packed => exact plain_ok _
  | getMessage id =>
      simp only [call, getMessage]
      cases engine.messages.find? id with
      | none => exact plain_error rfl
      | some record => exact plain_ok _
  | getChunk digest =>
      simp only [call, getChunk]
      cases engine.chunks.find? digest with
      | none => exact plain_error rfl
      | some packed =>
          simp only [unpack]
          cases Deflate.inflate packed.payload with
          | none => exact plain_error rfl
          | some data => exact plain_ok _

theorem Settled.insert {engine : Volatile} (settled : engine.Settled) {id other : MessageId}
    {record found : MessageRecord} (closed : record.Settled)
    (here : (engine.messages.insert id record).find? other = some found) : found.Settled := by
  rcases Table.find?_insert_cases here with ⟨_, rfl⟩ | ⟨_, before⟩
  · exact closed
  · exact settled other found before

theorem Settled.call {engine : Volatile} (settled : engine.Settled) {β : Type}
    (request : Call β) : (engine.call request).2.Settled := by
  cases request with
  | start => exact settled
  | stop => exact settled
  | openMessage opening =>
      intro other found here
      exact settled.insert (fun closed => by cases closed) here
  | closeMessage id total manifest summary =>
      simp only [Volatile.call, closeMessage]
      cases checked : checkTotal total manifest with
      | error fault => exact settled
      | ok _ =>
          cases engine.messages.find? id with
          | none => exact settled
          | some record =>
              intro other found here
              exact settled.insert (fun _ => checkTotal_ok checked) here
  | addChunk digest data =>
      simp only [Volatile.call, addChunk]
      cases engine.chunks.find? digest <;> exact settled
  | getMessage id => exact settled
  | getChunk digest => exact settled

end Volatile

/-! ## The engine with a file -/

namespace Database

def Settled (database : Database) : Prop :=
  ∀ id record, database.getMessage id = .ok record → record.Settled

theorem plain_getMessage (database : Database) (id : MessageId) :
    Plain (database.getMessage id) := by
  unfold getMessage
  cases database.messages.find? id with
  | none => exact plain_error rfl
  | some written =>
      simp only
      cases MessageRecord.ofValue written with
      | error mismatch => exact plain_error rfl
      | ok record => exact plain_ok _

theorem plain_call (database : Database) {β : Type} (request : Call β)
    (right : request.Exact) : Plain (database.call request).1 := by
  cases request with
  | start => exact plain_ok _
  | stop => exact plain_ok _
  | openMessage opening => exact plain_ok _
  | closeMessage id total manifest summary =>
      have plain := database.plain_getMessage id
      simp only [call, checkTotal_of_eq right, closeMessage]
      cases read : database.getMessage id with
      | error fault => exact plain_error (plain fault read)
      | ok record => exact plain_ok _
  | addChunk digest data =>
      simp only [call, addChunk]
      cases database.references.find? digest with
      | none => exact plain_ok _
      | some count => exact plain_ok _
  | getMessage id => exact database.plain_getMessage id
  | getChunk digest =>
      simp only [call, getChunk]
      cases database.payloads.find? digest with
      | none => exact plain_error rfl
      | some data => exact plain_ok _

theorem Settled.insert {database : Database} (settled : database.Settled)
    {id other : MessageId} {record found : MessageRecord} (closed : record.Settled)
    (here : Database.getMessage
      { database with messages := database.messages.insert id record.toValue } other =
        .ok found) : found.Settled := by
  rw [getMessage_insert] at here
  by_cases same : other = id
  · rw [if_pos same] at here
    cases here
    exact closed
  · rw [if_neg same] at here
    exact settled other found here

theorem Settled.call {database : Database} (settled : database.Settled) {β : Type}
    (request : Call β) : (database.call request).2.Settled := by
  cases request with
  | start => exact settled
  | stop => exact settled
  | openMessage opening =>
      intro other found here
      have opened : (MessageRecord.opened ⟨database.last.getD 0 + 1⟩ opening).Settled :=
        fun closed => by cases closed
      exact settled.insert opened here
  | closeMessage id total manifest summary =>
      simp only [Database.call]
      cases checked : checkTotal total manifest with
      | error fault => exact settled
      | ok _ =>
          simp only [closeMessage]
          cases database.getMessage id with
          | error fault => exact settled
          | ok record =>
              intro other found here
              have closed : (record.close total manifest summary).Settled :=
                fun _ => checkTotal_ok checked
              exact settled.insert closed here
  | addChunk digest data =>
      simp only [Database.call, addChunk]
      cases database.references.find? digest <;> exact settled
  | getMessage id => exact settled
  | getChunk digest => exact settled

end Database

/-! ## All engines of a vault -/

namespace Vault

/-- No fault that is planned is about sizes. -/
def Calm (vault : Vault) : Prop :=
  ∀ key engine, vault.engines.find? key = some (.faulty engine) → engine.Calm

/-- The closed records in memory and in all files have the totals of their manifests. -/
structure Settled (vault : Vault) : Prop where
  memory : ∀ key engine memory, vault.engines.find? key = some engine →
    engine.memory? = some memory → memory.Settled
  files : ∀ file database, vault.disk.find? file = some database → database.Settled

theorem Calm.put {vault : Vault} (calm : vault.Calm) (key : EngineKey) {engine : Engine}
    (planned : ∀ faulty, engine = .faulty faulty → faulty.Calm) : (vault.put key engine).Calm := by
  intro other faulty found
  rcases Table.find?_insert_cases found with ⟨_, same⟩ | ⟨_, before⟩
  · exact planned faulty same.symm
  · exact calm other faulty before

theorem plain_refuse {β : Type} {request : Call β} (right : request.Exact) :
    Plain (refuse request) := by
  cases request with
  | closeMessage id total manifest summary =>
      simp only [refuse, checkTotal_of_eq right]
      exact plain_error rfl
  | start => exact plain_error rfl
  | stop => exact plain_error rfl
  | openMessage opening => exact plain_error rfl
  | addChunk digest data => exact plain_error rfl
  | getMessage id => exact plain_error rfl
  | getChunk digest => exact plain_error rfl

theorem Calm.callDurable {vault : Vault} (calm : vault.Calm) (key : EngineKey)
    (engine : Durable) {β : Type} (request : Call β) :
    (vault.callDurable key engine request).2.Calm ∧
      (request.Exact → Plain (vault.callDurable key engine request).1) := by
  rcases vault.callDurable_cases key engine request with
    ⟨fault, failed⟩ | ⟨answer, file, contents, done, _⟩ | refused | ⟨file, database, _, answered⟩
  · rw [failed]
    exact ⟨calm, fun _ => plain_error rfl⟩
  · rw [done]
    have still : (vault.put key (.durable { engine with file := file })).Calm :=
      calm.put key fun faulty other => by cases other
    exact ⟨still, fun _ => plain_ok answer⟩
  · rw [refused]
    exact ⟨calm, plain_refuse⟩
  · rw [answered]
    exact ⟨calm, database.plain_call request⟩

/-- Engines speak of sizes that differ only to callers that state a wrong total. -/
theorem strict : host.Strict Calm := by
  have both : ∀ {β : Type} (key : EngineKey) (request : Call β) (vault : Vault), vault.Calm →
      (host.call key request vault).2.Calm ∧
        (request.Exact → Plain (host.call key request vault).1) := by
    intro β key request vault calm
    simp only [host, call]
    cases found : vault.engines.find? key with
    | none => exact ⟨calm, fun _ => plain_error rfl⟩
    | some engine =>
        cases engine with
        | volatile engine =>
            have still : (vault.put key (.volatile (engine.call request).2)).Calm :=
              calm.put key fun faulty other => by cases other
            exact ⟨still, engine.plain_call request⟩
        | durable engine => exact calm.callDurable key engine request
        | faulty engine =>
            rcases (calm key engine found).upcoming request.kind with ⟨still, harmless⟩
            rcases engine.call_cases Volatile.call request with ⟨fault, planned, failed⟩ | reached
            · simp only [failed]
              refine ⟨calm.put key fun faulty same => ?_, fun _ => ?_⟩
              · cases same
                exact still
              · exact plain_error (harmless fault planned)
            · simp only [reached]
              refine ⟨calm.put key fun faulty same => ?_, engine.inner.plain_call request⟩
              cases same
              exact still
  exact ⟨fun key request vault calm => (both key request vault calm).1,
    fun key request vault calm => (both key request vault calm).2⟩

theorem settled_empty : Database.empty.Settled := by
  intro id record found
  cases found

theorem Settled.put {vault : Vault} (settled : vault.Settled) (key : EngineKey)
    {engine : Engine} (known : ∀ memory, engine.memory? = some memory → memory.Settled) :
    (vault.put key engine).Settled where
  memory other found memory here kept := by
    rcases Table.find?_insert_cases here with ⟨_, rfl⟩ | ⟨_, before⟩
    · exact known memory kept
    · exact settled.memory other found memory before kept
  files := settled.files

/-- Whatever is asked of the engines, the closed records keep the totals of their manifests. -/
theorem Settled.call {vault : Vault} (settled : vault.Settled) (key : EngineKey) {β : Type}
    (request : Call β) : (vault.call key request).2.Settled := by
  unfold Vault.call
  cases found : vault.engines.find? key with
  | none => exact settled
  | some engine =>
      cases engine with
      | volatile engine =>
          refine settled.put key fun memory same => ?_
          cases same
          exact (settled.memory key _ engine found rfl).call request
      | durable engine =>
          simp only
          rcases vault.callDurable_cases key engine request with
            ⟨fault, failed⟩ | ⟨answer, file, contents, done, known⟩ | refused |
            ⟨file, database, held, answered⟩
          · rw [failed]
            exact settled
          · rw [done]
            refine ⟨(settled.put key fun memory none => by cases none).memory, ?_⟩
            intro name database here
            rcases known name database here with before | rfl
            · exact settled.files name database before
            · exact settled_empty
          · rw [refused]
            exact settled
          · rw [answered]
            refine ⟨settled.memory, ?_⟩
            intro name other here
            rcases Table.find?_insert_cases here with ⟨_, rfl⟩ | ⟨_, before⟩
            · exact (settled.files file database (contents?_eq_some.mp held).2).call request
            · exact settled.files name other before
      | faulty engine =>
          have inner := settled.memory key _ engine.inner found rfl
          rcases engine.call_cases Volatile.call request with ⟨fault, _, failed⟩ | reached
          · simp only [failed]
            refine settled.put key fun memory same => ?_
            cases same
            exact inner
          · simp only [reached]
            refine settled.put key fun memory same => ?_
            cases same
            exact inner.call request

/-- What an engine keeps as a closed record has the total of its manifest. -/
theorem Settled.of_record? {vault : Vault} (settled : vault.Settled) {key : EngineKey}
    {id : MessageId} {record : MessageRecord} (found : vault.record? key id = some record) :
    record.Settled := by
  unfold record? at found
  cases known : vault.engines.find? key with
  | none =>
      rw [known] at found
      cases found
  | some engine =>
      rw [known] at found
      cases engine with
      | volatile engine => exact settled.memory key _ engine known rfl id record found
      | faulty engine => exact settled.memory key _ engine.inner known rfl id record found
      | durable engine =>
          simp only [Option.bind_eq_some_iff] at found
          rcases found with ⟨⟨file, database⟩, held, read⟩
          have contents := settled.files file database (contents?_eq_some.mp held).2
          apply contents id record
          cases answer : database.getMessage id with
          | error fault =>
              rw [answer] at read
              cases read
          | ok other =>
              rw [answer] at read
              cases read
              rfl

end Vault
end Store
end MailVault
