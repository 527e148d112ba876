import MailVault.Proofs.Store.Refinement

/-!
# Calls in a row

An engine is asked one thing after the other, and each call is written down with its
answer.  Calls about what is stored are kept apart here from those that start or stop
an engine: a ledger answers only the former in a way that tells anything.

Two hosts that represent the same ledger give the same answers to every row of calls,
however differently they keep what they represent.
-/

namespace MailVault
namespace Store

variable {κ σ : Type}

/-- Whether a call is about what is stored, and not about the engine that stores it. -/
def Call.isStorage {β : Type} : Call β → Bool
  | .start => false
  | .stop => false
  | _ => true

theorem Call.kind_ne_of_isStorage {β : Type} {call : Call β} (storage : call.isStorage = true) :
    call.kind ≠ .start ∧ call.kind ≠ .stop := by
  cases call with
  | start => cases storage
  | stop => cases storage
  | _ => exact ⟨nofun, nofun⟩

/-- A call about what is stored, whatever its answer is. -/
structure Request where
  {Answer : Type}
  call : Call Answer
  isStorage : call.isStorage = true

/-- A call with what it was answered. -/
structure Entry where
  {Answer : Type}
  call : Call Answer
  answer : Except Fault Answer

/-- The ledger as a host of its own. -/
def Ledger.host : Host Unit Ledger :=
  .of Ledger.call

namespace Host

/-- What the engine of that name answers to a row of calls. -/
def dialogue (host : Host κ σ) (key : κ) : List Request → σ → List Entry
  | [], _ => []
  | request :: later, state =>
    ⟨request.call, (host.call key request.call state).1⟩ ::
      host.dialogue key later (host.call key request.call state).2

/-- The state that a row of calls leaves. -/
def after (host : Host κ σ) (key : κ) : List Request → σ → σ
  | [], state => state
  | request :: later, state => host.after key later (host.call key request.call state).2

theorem after_append (host : Host κ σ) (key : κ) (first second : List Request) (state : σ) :
    host.after key (first ++ second) state =
      host.after key second (host.after key first state) := by
  induction first generalizing state with
  | nil => rfl
  | cons request first inductionStep => exact inductionStep _

theorem dialogue_append (host : Host κ σ) (key : κ) (first second : List Request) (state : σ) :
    host.dialogue key (first ++ second) state =
      host.dialogue key first state ++ host.dialogue key second (host.after key first state) := by
  induction first generalizing state with
  | nil => rfl
  | cons request first inductionStep =>
      rw [List.cons_append, dialogue, dialogue, inductionStep]
      rfl

/-- The engine of that name answers every call about what is stored as the ledger does. -/
def AnswersAt (host : Host κ σ) (key : κ) (Represents : σ → Ledger → Prop) : Prop :=
  ∀ (request : Request) (state : σ) (ledger : Ledger), Represents state ledger →
    (host.call key request.call state).1 = (ledger.call request.call).1 ∧
      Represents (host.call key request.call state).2 (ledger.call request.call).2

/-- It may also fail at any such call, and then it changes nothing that is represented. -/
def FollowsAt (host : Host κ σ) (key : κ) (Represents : σ → Ledger → Prop) : Prop :=
  ∀ (request : Request) (state : σ) (ledger : Ledger), Represents state ledger →
    (∃ fault, (host.call key request.call state).1 = .error fault ∧
      Represents (host.call key request.call state).2 ledger) ∨
    ((host.call key request.call state).1 = (ledger.call request.call).1 ∧
      Represents (host.call key request.call state).2 (ledger.call request.call).2)

theorem Answers.at {host : Host κ σ} {Represents : σ → Ledger → Prop}
    (answers : host.Answers Represents) (key : κ) : host.AnswersAt key Represents :=
  fun request state ledger represents => answers key request.call state ledger represents

namespace AnswersAt

variable {host : Host κ σ} {key : κ} {Represents : σ → Ledger → Prop} {state : σ}
  {ledger : Ledger}

theorem after (answers : host.AnswersAt key Represents) (represents : Represents state ledger)
    (requests : List Request) :
    Represents (host.after key requests state) (Ledger.host.after () requests ledger) := by
  induction requests generalizing state ledger with
  | nil => exact represents
  | cons request later inductionStep =>
      exact inductionStep (answers request state ledger represents).2

/-- A row of calls is answered as the ledger answers it. -/
theorem dialogue (answers : host.AnswersAt key Represents)
    (represents : Represents state ledger) (requests : List Request) :
    host.dialogue key requests state = Ledger.host.dialogue () requests ledger := by
  induction requests generalizing state ledger with
  | nil => rfl
  | cons request later inductionStep =>
      rcases answers request state ledger represents with ⟨same, still⟩
      rw [Host.dialogue, Host.dialogue, same, inductionStep still]
      rfl

end AnswersAt
end Host
end Store
end MailVault
