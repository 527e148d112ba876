import MailVault.Proofs.Transit.Books
import MailVault.Proofs.Transit.Sessions
import MailVault.Proofs.Transit.Traffic

/-!
# A splitter with what follows it

One leg of a relay is a splitter with the engines that it calls and with whatever it hands
its slices to.  What follows may be a sink, or a stage with all that is behind that one, or
anything else that answers slices; it is kept apart from the splitter here, as an outlet
with a state.

What a leg is asked to do one after the other is recorded in episodes: the leg before and
after, the task and the reply.  A write at a stage of a relay is a task of a leg, whose
outlet is the sink behind the stage or the relay itself.
-/

namespace MailVault
namespace Transit

open Store (Fault Host)

variable {κ σ τ : Type}

/-! ## Outlets -/

/-- What a sink at the end of the stream answers a slice. -/
def Sink.deliver (data : Bytes) (sink : Sink) : Except TransitFault Nat × Sink :=
  match sink.write data with
  | (.error fault, sink) => (.error (.sink fault), sink)
  | (.ok (), sink) => (.ok data.length, sink)

/-- What follows a splitter.  It is handed slices and answers them, and it may call the engines of
the splitter too. -/
abbrev Outlet (σ τ : Type) := Bytes → σ × τ → Except TransitFault Nat × σ × τ

namespace Outlet

/-- An outlet that does not call the engines. -/
def own (answer : Bytes → τ → Except TransitFault Nat × τ) : Outlet σ τ := fun data world =>
  ((answer data world.2).1, world.1, (answer data world.2).2)

/-- The same outlet, which also lists the slices that it is handed. -/
def logged (outlet : Outlet σ τ) : Outlet σ (τ × List Bytes) := fun data world =>
  match outlet data (world.1, world.2.1) with
  | (answer, engines, ahead) => (answer, engines, ahead, world.2.2 ++ [data])

/-- A sink at the end of the stream. -/
def sink : Outlet σ Sink :=
  own Sink.deliver

/-- The stage with the given index and those behind it. -/
def stage (relay : Relay κ σ) (host : Host κ σ) (index : Nat) :
    Outlet σ (Table StageKey (Stage κ)) := fun data world =>
  match ({ relay with vault := world.1, stages := world.2 } : Relay κ σ).write host index data with
  | (answer, relay) => (answer, relay.vault, relay.stages)

end Outlet

/-! ## Legs -/

/-- A splitter with the engines and with the state of what follows it. -/
structure Leg (κ σ τ : Type) where
  splitter : Splitter κ
  engines : σ
  ahead : τ

/-- One task of a leg, with the leg before and after it and the reply. -/
structure Episode (κ σ τ : Type) where
  before : Leg κ σ τ
  task : Task
  reply : Reply
  after : Leg κ σ τ

namespace Leg

/-- Write a slice.  It is handed on after the splitter has accepted it, and only then. -/
def write (leg : Leg κ σ τ) (host : Host κ σ) (outlet : Outlet σ τ) (metadata : Option Metadata)
    (data : Bytes) : Except TransitFault Nat × Leg κ σ τ :=
  match leg.splitter.accept host metadata data leg.engines with
  | (.error fault, splitter, engines) => (.error fault, ⟨splitter, engines, leg.ahead⟩)
  | (.ok (), splitter, engines) =>
    match outlet data (engines, leg.ahead) with
    | (answer, engines, ahead) => (answer, ⟨splitter, engines, ahead⟩)

def perform (leg : Leg κ σ τ) (host : Host κ σ) (outlet : Outlet σ τ) : Task → Reply × Leg κ σ τ
  | .openMessage opening =>
    match leg.splitter.openMessage host opening leg.engines with
    | (answer, splitter, engines) =>
      (.opened (answer.mapError .storage), ⟨splitter, engines, leg.ahead⟩)
  | .write metadata data =>
    match leg.write host outlet metadata data with
    | (answer, leg) => (.written answer, leg)
  | .closeMessage queueId =>
    match leg.splitter.closeMessage host queueId leg.engines with
    | (answer, splitter, engines) =>
      (.closed (answer.mapError .storage), ⟨splitter, engines, leg.ahead⟩)

def episode (leg : Leg κ σ τ) (host : Host κ σ) (outlet : Outlet σ τ) (task : Task) :
    Episode κ σ τ where
  before := leg
  task := task
  reply := (leg.perform host outlet task).1
  after := (leg.perform host outlet task).2

def run (leg : Leg κ σ τ) (host : Host κ σ) (outlet : Outlet σ τ) : List Task → Leg κ σ τ
  | [] => leg
  | task :: later => (leg.perform host outlet task).2.run host outlet later

def episodes (leg : Leg κ σ τ) (host : Host κ σ) (outlet : Outlet σ τ) :
    List Task → List (Episode κ σ τ)
  | [] => []
  | task :: later =>
    leg.episode host outlet task :: (leg.perform host outlet task).2.episodes host outlet later

section Writing

variable {host : Host κ σ} {leg : Leg κ σ τ} {metadata : Option Metadata} {data : Bytes}

theorem write_of_no_context (none : leg.splitter.hasContext metadata = false)
    (outlet : Outlet σ τ) :
    leg.write host outlet metadata data = (.error .missingContext, leg) := by
  rw [write, leg.splitter.accept_of_no_context host none]

theorem write_of_fault (context : leg.splitter.hasContext metadata = true) {fault : Fault}
    {splitter : Splitter κ} {engines : σ}
    (failed : leg.splitter.chunking host metadata data leg.engines =
      (.error fault, splitter, engines)) (outlet : Outlet σ τ) :
    leg.write host outlet metadata data =
      (.error (.storage fault), ⟨splitter, engines, leg.ahead⟩) := by
  rw [write, leg.splitter.accept_of_context host context, failed]

/-- A write that is chunked is handed on, and the outlet gives the answer. -/
theorem write_of_chunked (context : leg.splitter.hasContext metadata = true)
    {splitter : Splitter κ} {engines : σ}
    (chunked : leg.splitter.chunking host metadata data leg.engines =
      (.ok (), splitter, engines)) (outlet : Outlet σ τ) :
    leg.write host outlet metadata data =
      ((outlet data (engines, leg.ahead)).1,
        ⟨splitter.pass data.length, (outlet data (engines, leg.ahead)).2.1,
          (outlet data (engines, leg.ahead)).2.2⟩) := by
  rw [write, leg.splitter.accept_of_context host context, chunked]

end Writing

variable (leg : Leg κ σ τ) (host : Host κ σ) (outlet : Outlet σ τ)

theorem episodes_map_task (tasks : List Task) :
    (leg.episodes host outlet tasks).map Episode.task = tasks := by
  induction tasks generalizing leg with
  | nil => rfl
  | cons task later inductionStep =>
      rw [episodes, List.map_cons, inductionStep]
      rfl

theorem episodes_append (first second : List Task) :
    leg.episodes host outlet (first ++ second) =
      leg.episodes host outlet first ++
        (leg.run host outlet first).episodes host outlet second := by
  induction first generalizing leg with
  | nil => rfl
  | cons task first inductionStep =>
      rw [List.cons_append, episodes, inductionStep, episodes, List.cons_append]
      rfl

theorem run_append (first second : List Task) :
    leg.run host outlet (first ++ second) =
      (leg.run host outlet first).run host outlet second := by
  induction first generalizing leg with
  | nil => rfl
  | cons task first inductionStep => exact inductionStep _

theorem episodes_eq_append {tasks : List Task} {earlier later : List (Episode κ σ τ)}
    (cut : leg.episodes host outlet tasks = earlier ++ later) :
    ∃ first second, tasks = first ++ second ∧ leg.episodes host outlet first = earlier ∧
      (leg.run host outlet first).episodes host outlet second = later := by
  have same : tasks = earlier.map Episode.task ++ later.map Episode.task := by
    rw [← List.map_append, ← cut, episodes_map_task]
  refine ⟨_, _, same, ?_⟩
  rw [same, episodes_append] at cut
  apply List.append_inj cut
  have length := congrArg List.length
    (leg.episodes_map_task host outlet (earlier.map Episode.task))
  rwa [List.length_map, List.length_map] at length

theorem episodes_eq_cons {tasks : List Task} {first : Episode κ σ τ}
    {later : List (Episode κ σ τ)} (begun : leg.episodes host outlet tasks = first :: later) :
    ∃ task rest, tasks = task :: rest ∧ first = leg.episode host outlet task ∧
      (leg.perform host outlet task).2.episodes host outlet rest = later := by
  cases tasks with
  | nil => cases begun
  | cons task rest =>
      rw [episodes] at begun
      cases begun
      exact ⟨task, rest, rfl, rfl, rfl⟩

/-- The leg after all tasks is the one after the last episode. -/
theorem run_eq_after {tasks : List Task} {earlier : List (Episode κ σ τ)} {last : Episode κ σ τ}
    (ended : leg.episodes host outlet tasks = earlier ++ [last]) :
    leg.run host outlet tasks = last.after := by
  rcases leg.episodes_eq_append host outlet ended with ⟨first, second, rfl, _, rest⟩
  rcases Leg.episodes_eq_cons _ host outlet rest with ⟨task, others, rfl, rfl, finished⟩
  cases others with
  | nil => exact leg.run_append host outlet first [task]
  | cons _ _ => cases finished

theorem eq_episode_of_mem {tasks : List Task} {episode : Episode κ σ τ}
    (member : episode ∈ leg.episodes host outlet tasks) :
    episode = episode.before.episode host outlet episode.task := by
  induction tasks generalizing leg with
  | nil => cases member
  | cons task later inductionStep =>
      rcases List.mem_cons.mp member with rfl | later
      · rfl
      · exact inductionStep _ later

end Leg

/-! ## Stages as legs -/

namespace Relay

variable (relay : Relay κ σ) (host : Host κ σ)

theorem put_comm {key other : StageKey} (different : key ≠ other)
    (present : (relay.stages.find? key).isSome) (stage another : Stage κ) (vault now : σ) :
    (relay.put key stage vault).put other another now =
      (relay.put other another now).put key stage now := by
  simp only [put, Table.insert_comm different present]

/-- A slice that passes a stage and those behind it does not come to a stage that was made later,
so it does not matter what stands there. -/
theorem write_aside {index place : Nat} (behind : place < index)
    (present : (relay.stages.find? ⟨index⟩).isSome) (other : Stage κ) (data : Bytes) :
    (relay.put ⟨index⟩ other relay.vault).write host place data =
      ((relay.write host place data).1,
        (relay.write host place data).2.put ⟨index⟩ other
          (relay.write host place data).2.vault) := by
  induction place using Nat.strongRecOn generalizing relay with
  | _ place inductionStep =>
      have different : (⟨place⟩ : StageKey) ≠ ⟨index⟩ := by
        intro same
        cases same
        exact Nat.lt_irrefl _ behind
      have same : (relay.put ⟨index⟩ other relay.vault).stages.find? ⟨place⟩ =
          relay.stages.find? ⟨place⟩ := by
        rw [put, Table.find?_insert, if_neg different]
      rw [Relay.write, Relay.write, same]
      cases found : relay.stages.find? ⟨place⟩ with
      | none => rfl
      | some stage =>
          have here : (relay.stages.find? ⟨place⟩).isSome := by rw [found, Option.isSome_some]
          have swap : ∀ (later : Stage κ) (vault : σ),
              (relay.put ⟨index⟩ other relay.vault).put ⟨place⟩ later vault =
                (relay.put ⟨place⟩ later vault).put ⟨index⟩ other vault := by
            intro later vault
            rw [put_comm relay (Ne.symm different) present]
          simp only [swap]
          have envelope : (relay.put ⟨index⟩ other relay.vault).envelopeOf stage =
              relay.envelopeOf stage := rfl
          have vault : (relay.put ⟨index⟩ other relay.vault).vault = relay.vault := rfl
          rw [envelope, vault]
          rcases stage.splitter.accept host ((relay.envelopeOf stage).bind Envelope.metadata) data
            relay.vault with ⟨result, splitter, now⟩
          cases result with
          | error fault => rfl
          | ok _ =>
              simp only
              cases stage.next with
              | sink sink =>
                  simp only
                  rcases sink.write data with ⟨result, after⟩
                  cases result with
                  | error fault => rfl
                  | ok _ => rfl
              | stage earlier =>
                  simp only
                  by_cases before : earlier.index < place
                  · rw [if_pos before, if_pos before]
                    apply inductionStep earlier.index before _ (Nat.lt_trans before behind)
                    rw [put, Table.find?_insert, if_neg (Ne.symm different)]
                    exact present
                  · rw [if_neg before, if_neg before]
                    rfl

theorem write_envelopes (index : Nat) (data : Bytes) :
    (relay.write host index data).2.envelopes = relay.envelopes := by
  have hops := relay.write_hops host index data
  generalize (relay.write host index data).2 = last at hops ⊢
  induction hops with
  | refl => rfl
  | tail _ hop inductionStep =>
      cases hop with
      | intro next found accepted => exact inductionStep

theorem write_eq_of_sink {index : Nat} {stage : Stage κ} {sink : Sink}
    (found : relay.stages.find? ⟨index⟩ = some stage) (next : stage.next = .sink sink)
    (data : Bytes) :
    relay.write host index data =
      match Leg.write ⟨stage.splitter, relay.vault, sink⟩ host .sink
        ((relay.envelopeOf stage).bind Envelope.metadata) data with
      | (answer, leg) => (answer, relay.put ⟨index⟩
        { stage with splitter := leg.splitter, next := .sink leg.ahead } leg.engines) := by
  rw [Relay.write, found, Leg.write]
  simp only
  rcases stage.splitter.accept host ((relay.envelopeOf stage).bind Envelope.metadata) data
    relay.vault with ⟨result, splitter, now⟩
  cases result with
  | error fault => simp only [next]
  | ok _ =>
      simp only [next, Outlet.sink, Outlet.own, Sink.deliver]
      rcases sink.write data with ⟨result, after⟩
      cases result with
      | error fault => rfl
      | ok _ => rfl

/-- A write at a stage before another one is a write of a leg.  The others may change on the way,
but not the stage itself. -/
theorem write_eq_of_stage {index : Nat} {stage : Stage κ} {earlier : StageKey}
    (found : relay.stages.find? ⟨index⟩ = some stage) (next : stage.next = .stage earlier)
    (before : earlier.index < index) (data : Bytes) :
    relay.write host index data =
      match Leg.write ⟨stage.splitter, relay.vault, relay.stages⟩ host
        (.stage relay host earlier.index) ((relay.envelopeOf stage).bind Envelope.metadata)
        data with
      | (answer, leg) => (answer, { relay with
        vault := leg.engines
        stages := leg.ahead.insert ⟨index⟩ { stage with splitter := leg.splitter } }) := by
  rw [Relay.write, found, Leg.write]
  simp only
  rcases stage.splitter.accept host ((relay.envelopeOf stage).bind Envelope.metadata) data
    relay.vault with ⟨result, splitter, now⟩
  cases result with
  | error fault => rfl
  | ok _ =>
      let meanwhile : Relay κ σ := { relay with vault := now }
      have present : (meanwhile.stages.find? ⟨index⟩).isSome := Option.isSome_of_eq_some found
      have aside := meanwhile.write_aside host before present
        { stage with splitter := splitter } data
      have envelopes := meanwhile.write_envelopes host earlier.index data
      simp only [put, envelopes, next] at aside
      simp only [put, next, if_pos before, Outlet.stage]
      exact aside

end Relay
end Transit
end MailVault
