import MailVault.Store.Call
import MailVault.Table

/-!
# Engines with planned faults

A wrapper around an engine answers some calls with a fault.  Such a call does not
reach the engine, so the engine stays as it was.  The plan of each kind of call is
a list of stretches: so many calls go through, so many fail, and after the last
stretch all go through.
-/

namespace MailVault
namespace Store

/-- A number of calls of one kind that are treated alike. -/
structure Stretch where
  count : Nat
  /-- What the calls are answered with; nothing lets them through. -/
  fault : Option Fault

/-- Stretches in the order in which calls meet them. -/
abbrev Plan := List Stretch

namespace Plan

/-- How the next call is treated, and the plan that is left. -/
def next : Plan → Option Fault × Plan
  | [] => (none, [])
  | stretch :: rest =>
    match stretch.count with
    | 0 => next rest
    | count + 1 => (stretch.fault, ⟨count, stretch.fault⟩ :: rest)

/-- Let `after` calls through and then fail `times` calls. -/
def failing (after times : Nat) (fault : Fault) : Plan :=
  [⟨after, none⟩, ⟨times, some fault⟩]

end Plan

/-- An engine with the plans of its calls. -/
structure Faulty (σ : Type) where
  inner : σ
  plans : Table Call.Kind Plan

namespace Faulty

variable {σ : Type}

def new (inner : σ) : Faulty σ where
  inner := inner
  plans := Table.empty

/-- Replace the plan of one kind of call. -/
def schedule (engine : Faulty σ) (kind : Call.Kind) (plan : Plan) : Faulty σ :=
  { engine with plans := engine.plans.insert kind plan }

/-- Answer a call as planned, or as `answer` does on the inner engine. -/
def call {α : Type} (answer : {β : Type} → σ → Call β → Outcome σ β) (engine : Faulty σ)
    (request : Call α) : Outcome (Faulty σ) α :=
  let (fault, plan) := ((engine.plans.find? request.kind).getD []).next
  let engine := engine.schedule request.kind plan
  match fault with
  | some fault => (.error fault, engine)
  | none =>
    match answer engine.inner request with
    | (result, inner) => (result, { engine with inner := inner })

end Faulty
end Store
end MailVault
