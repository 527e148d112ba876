import MailVault.Proofs.Transit.Leg

/-!
# What a splitter does with its messages

In the course of its tasks a splitter opens messages and closes them, one at a time.  The
engine notices an opening or a close that succeeds, and nothing else that matters for
records; so the marks that a splitter leaves there can be read off its episodes.

A message is open from the opening that gives it out to the next close or opening, whatever
their outcome.  Between messages a splitter is idle, and writes are turned away.
-/

namespace MailVault
namespace Store

/-- Whether a call has opened or closed a message. -/
def Entry.isMark : Entry → Bool
  | ⟨.openMessage _, .ok _⟩ => true
  | ⟨.closeMessage _ _ _ _, .ok _⟩ => true
  | _ => false

@[simp] theorem Entry.isMark_error {β : Type} (call : Call β) (fault : Fault) :
    isMark ⟨call, .error fault⟩ = false := by
  cases call <;> rfl

theorem Entry.isFault_of_isMark {entry : Entry} (marked : entry.isMark = true) :
    entry.isFault = false := by
  rcases entry with ⟨call, answer⟩
  cases answer with
  | error fault => simp at marked
  | ok _ => rfl

namespace Chronicle

def marks (chronicle : Chronicle) : Chronicle :=
  chronicle.filter Entry.isMark

theorem marks_append (first second : Chronicle) :
    marks (first ++ second) = first.marks ++ second.marks :=
  List.filter_append first second

theorem marks_of_faults {notes : List Note} (failed : ∀ note ∈ notes, note.entry.isFault = true) :
    marks (notes.map Note.entry) = [] := by
  apply List.filter_eq_nil_iff.mpr
  intro entry member
  rcases List.mem_map.mp member with ⟨note, listed, rfl⟩
  have fault := failed note listed
  generalize note.entry = entry at fault
  rcases entry with ⟨call, answer⟩
  cases answer with
  | error fault => simp
  | ok _ => cases fault

theorem count_marks {item : Item} (marked : ∀ entry, entry.isMark = false → item.measure entry = 0)
    (chronicle : Chronicle) : chronicle.marks.count item = chronicle.count item := by
  induction chronicle with
  | nil => rfl
  | cons entry later inductionStep =>
      rw [count_cons, ← inductionStep, marks, List.filter_cons]
      cases mark : entry.isMark with
      | true => rfl
      | false =>
          rw [marked entry mark, Nat.zero_add]
          rfl

theorem count_openings_marks (id : MessageId) (chronicle : Chronicle) :
    chronicle.marks.count (.openings id) = chronicle.count (.openings id) := by
  refine count_marks ?_ chronicle
  rintro ⟨call, answer⟩ unmarked
  cases call <;> cases answer <;> first | rfl | cases unmarked

theorem count_closes_marks (id : MessageId) (chronicle : Chronicle) :
    chronicle.marks.count (.closes id) = chronicle.count (.closes id) := by
  refine count_marks ?_ chronicle
  rintro ⟨call, answer⟩ unmarked
  cases call <;> cases answer <;> first | rfl | cases unmarked

end Chronicle
end Store

namespace Transit

open Store (Chronicle Entry Fault Host Noted)

variable {κ σ τ : Type}

/-! ## Marks of episodes -/

namespace Episode

/-- The message that an episode has opened. -/
def opened? (episode : Episode κ σ τ) : Option MessageId :=
  match episode.reply with
  | .opened (.ok id) => some id
  | _ => none

/-- The message that an episode has closed: the one that was open, if a close has succeeded. -/
def closed? (episode : Episode κ σ τ) : Option MessageId :=
  match episode.reply with
  | .closed (.ok _) => episode.before.splitter.session.message
  | _ => none

/-- What the engine is told by an episode that opens or closes a message. -/
def mark? (host : Host κ σ) (episode : Episode κ σ τ) : Option Entry :=
  match episode.task with
  | .openMessage opening => episode.opened?.map fun id => ⟨.openMessage opening, .ok id⟩
  | .write _ _ => none
  | .closeMessage queueId => episode.closed?.map fun id =>
    ⟨.closeMessage id episode.before.splitter.session.written
      (episode.before.splitter.buffer.flush host episode.before.engines).2.1.manifest
      (episode.before.splitter.session.summary queueId), .ok ()⟩

theorem isMark_of_mark? {host : Host κ σ} {episode : Episode κ σ τ} {entry : Entry}
    (marked : episode.mark? host = some entry) : entry.isMark = true := by
  unfold mark? at marked
  cases task : episode.task with
  | openMessage opening =>
      rw [task] at marked
      rcases Option.map_eq_some_iff.mp marked with ⟨id, _, rfl⟩
      rfl
  | write metadata data =>
      rw [task] at marked
      cases marked
  | closeMessage queueId =>
      rw [task] at marked
      rcases Option.map_eq_some_iff.mp marked with ⟨id, _, rfl⟩
      rfl

end Episode

/-- Additions leave no marks. -/
theorem Course.marks {host : Host κ σ} {buffer later : Buffer κ} {state now : Noted σ}
    {taken : Bytes} (course : Course host.noted buffer state taken later now) :
    now.chronicle.marks = state.chronicle.marks := by
  have deposited : ∀ {buffer : Buffer κ} {state after : Noted σ} {answer : Except Fault Unit},
      buffer.deposit host.noted state = (answer, after) →
        after.chronicle.marks = state.chronicle.marks := by
    intro buffer state after answer made
    unfold Buffer.deposit at made
    cases found : buffer.store with
    | none =>
        rw [found] at made
        cases made
        rfl
    | some store =>
        have noted := host.chronicle_noted store
          (.addChunk (Digest.ofHasher buffer.hasher) buffer.pending) state
        rw [found] at made
        simp only at made
        rcases called : host.noted.call store
          (.addChunk (Digest.ofHasher buffer.hasher) buffer.pending) state with ⟨result, now⟩
        rw [called] at made noted
        have same : now.chronicle.marks = state.chronicle.marks := by
          rw [noted, Chronicle.marks_append]
          cases result <;> exact List.append_nil _
        cases result with
        | error fault =>
            cases made
            exact same
        | ok known =>
            cases made
            exact same
  induction course with
  | stay => rfl
  | append _ _ _ inductionStep => exact inductionStep
  | refused _ made inductionStep => exact (deposited made).trans inductionStep
  | stored _ _ made inductionStep => exact (deposited made).trans inductionStep
  | relabelled _ _ inductionStep => exact inductionStep

namespace Leg

section Marks

variable (leg : Leg κ (Noted σ) τ) (host : Host κ σ)
  (answer : Bytes → τ → Except TransitFault Nat × τ)

theorem marks_write (metadata : Option Metadata) (data : Bytes) :
    (leg.write host.noted (.own answer) metadata data).2.engines.chronicle.marks =
      leg.engines.chronicle.marks := by
  rcases leg.splitter.accept_moves host.noted metadata data leg.engines with ⟨taken, _, moves⟩
  unfold write
  rcases accepted : leg.splitter.accept host.noted metadata data leg.engines with
    ⟨result, splitter, engines⟩
  rw [accepted] at moves
  cases result with
  | error fault => exact moves.course.marks
  | ok _ => exact moves.course.marks

/-- If an episode leaves a mark, then the engine is told this last, and nothing before is one. -/
theorem chronicle_perform (task : Task) :
    ∃ earlier : Chronicle, earlier.marks = leg.engines.chronicle.marks ∧
      (leg.perform host.noted (.own answer) task).2.engines.chronicle =
        earlier ++ ((leg.episode host.noted (.own answer) task).mark? host.noted).toList := by
  cases task with
  | openMessage opening =>
      have noted := host.chronicle_noted leg.splitter.store (.openMessage opening) leg.engines
      simp only [perform, episode, Episode.mark?, Episode.opened?, Splitter.openMessage_eq]
      rw [noted]
      cases (host.noted.call leg.splitter.store (.openMessage opening) leg.engines).1 with
      | error fault =>
          refine ⟨_, ?_, (List.append_nil _).symm⟩
          rw [Chronicle.marks_append]
          exact List.append_nil _
      | ok id => exact ⟨_, rfl, rfl⟩
  | write metadata data =>
      exact ⟨_, leg.marks_write host answer metadata data, (List.append_nil _).symm⟩
  | closeMessage queueId =>
      have flushed := (leg.splitter.buffer.flush_course host.noted leg.engines).marks
      have closing := (leg.splitter.closeMessage_flushed host.noted queueId leg.engines).1
      simp only [perform, episode, Episode.mark?, Episode.closed?]
      generalize leg.splitter.closeMessage host.noted queueId leg.engines = done at *
      rcases done with ⟨result, splitter, engines⟩
      simp only at closing ⊢
      cases closing with
      | given fault => exact ⟨_, flushed, (List.append_nil _).symm⟩
      | without pending none =>
          rw [none]
          exact ⟨_, flushed, (List.append_nil _).symm⟩
      | called id pending message =>
          have noted := host.chronicle_noted leg.splitter.store
            (.closeMessage id leg.splitter.session.written
              (leg.splitter.buffer.flush host.noted leg.engines).2.1.manifest
              (leg.splitter.session.summary queueId))
            (leg.splitter.buffer.flush host.noted leg.engines).2.2
          rw [noted, message]
          cases (host.noted.call leg.splitter.store
            (.closeMessage id leg.splitter.session.written
              (leg.splitter.buffer.flush host.noted leg.engines).2.1.manifest
              (leg.splitter.session.summary queueId))
            (leg.splitter.buffer.flush host.noted leg.engines).2.2).1 with
          | error fault =>
              refine ⟨_, ?_, (List.append_nil _).symm⟩
              rw [Chronicle.marks_append, flushed]
              exact List.append_nil _
          | ok _ => exact ⟨_, flushed, rfl⟩

/-- A task leaves the mark of its episode, if there is one. -/
theorem marks_perform (task : Task) :
    (leg.perform host.noted (.own answer) task).2.engines.chronicle.marks =
      leg.engines.chronicle.marks ++
        ((leg.episode host.noted (.own answer) task).mark? host.noted).toList := by
  rcases leg.chronicle_perform host answer task with ⟨earlier, marks, told⟩
  rw [told, Chronicle.marks_append, marks]
  cases marked : (leg.episode host.noted (.own answer) task).mark? host.noted with
  | none => rfl
  | some entry =>
      have kept : Chronicle.marks [entry] = [entry] :=
        List.filter_cons_of_pos (Episode.isMark_of_mark? marked)
      rw [Option.toList_some, kept]

theorem marks_run (tasks : List Task) :
    (leg.run host.noted (.own answer) tasks).engines.chronicle.marks =
      leg.engines.chronicle.marks ++
        (leg.episodes host.noted (.own answer) tasks).filterMap (Episode.mark? host.noted) := by
  induction tasks generalizing leg with
  | nil => exact (List.append_nil _).symm
  | cons task later inductionStep =>
      rw [run, inductionStep, marks_perform, episodes, List.filterMap_cons, List.append_assoc]
      cases (leg.episode host.noted (.own answer) task).mark? host.noted with
      | none => rfl
      | some entry => rfl

end Marks

/-! ## Openings and closes -/

theorem task_of_opened? {leg : Leg κ σ τ} {host : Host κ σ} {outlet : Outlet σ τ}
    {tasks : List Task} {episode : Episode κ σ τ} {id : MessageId}
    (member : episode ∈ leg.episodes host outlet tasks) (opened : episode.opened? = some id) :
    ∃ opening, episode.task = .openMessage opening := by
  rw [leg.eq_episode_of_mem host outlet member] at opened
  cases task : episode.task with
  | openMessage opening => exact ⟨opening, rfl⟩
  | write metadata data =>
      rw [task] at opened
      cases opened
  | closeMessage queueId =>
      rw [task] at opened
      cases opened

theorem count_marks (leg : Leg κ σ τ) (host : Host κ σ) (outlet : Outlet σ τ) (tasks : List Task)
    (id : MessageId) :
    let episodes := leg.episodes host outlet tasks
    Chronicle.count (.openings id) (episodes.filterMap (Episode.mark? host)) =
        (episodes.filterMap Episode.opened?).count id ∧
      Chronicle.count (.closes id) (episodes.filterMap (Episode.mark? host)) =
        (episodes.filterMap Episode.closed?).count id := by
  induction tasks generalizing leg with
  | nil => exact ⟨rfl, rfl⟩
  | cons task later inductionStep =>
      rcases inductionStep (leg.perform host outlet task).2 with ⟨openings, closes⟩
      simp only [episodes, List.filterMap_cons]
      cases task with
      | openMessage opening =>
          have unclosed : (leg.episode host outlet (.openMessage opening)).closed? = none := rfl
          have marked : (leg.episode host outlet (.openMessage opening)).mark? host =
              (leg.episode host outlet (.openMessage opening)).opened?.map fun id =>
                ⟨.openMessage opening, .ok id⟩ := rfl
          rw [marked, unclosed]
          cases (leg.episode host outlet (.openMessage opening)).opened? with
          | none => exact ⟨openings, closes⟩
          | some other =>
              simp only [Option.map_some, Chronicle.count_cons, Store.Item.measure, List.count_cons,
                beq_iff_eq, Nat.zero_add]
              exact ⟨by rw [openings, Nat.add_comm], closes⟩
      | write metadata data => exact ⟨openings, closes⟩
      | closeMessage queueId =>
          have unopened : (leg.episode host outlet (.closeMessage queueId)).opened? = none := rfl
          have marked : (leg.episode host outlet (.closeMessage queueId)).mark? host =
              (leg.episode host outlet (.closeMessage queueId)).closed?.map fun id =>
                ⟨.closeMessage id leg.splitter.session.written
                  (leg.splitter.buffer.flush host leg.engines).2.1.manifest
                  (leg.splitter.session.summary queueId), .ok ()⟩ := rfl
          rw [marked, unopened]
          cases (leg.episode host outlet (.closeMessage queueId)).closed? with
          | none => exact ⟨openings, closes⟩
          | some other =>
              simp only [Option.map_some, Chronicle.count_cons, Store.Item.measure, List.count_cons,
                beq_iff_eq, Nat.zero_add]
              exact ⟨openings, by rw [closes, Nat.add_comm]⟩

/-! ## The open message -/

variable (leg : Leg κ σ τ) (host : Host κ σ) (outlet : Outlet σ τ)

/-- A write is about the message that was open before. -/
theorem write_message (metadata : Option Metadata) (data : Bytes) :
    (leg.write host outlet metadata data).2.splitter.session.message =
      leg.splitter.session.message := by
  rcases leg.splitter.accept_moves host metadata data leg.engines with ⟨taken, _, moves⟩
  unfold write
  rcases accepted : leg.splitter.accept host metadata data leg.engines with
    ⟨result, splitter, engines⟩
  rw [accepted] at moves
  cases result with
  | error fault => exact moves.message
  | ok _ => exact moves.message

/-- After an opening the message is the one that it has opened, if there is one. -/
theorem session_of_openMessage (opening : Opening) :
    (leg.perform host outlet (.openMessage opening)).2.splitter.session =
      match (leg.episode host outlet (.openMessage opening)).opened? with
      | none => .idle
      | some id => .opened id := by
  simp only [perform, episode, Episode.opened?, Splitter.openMessage_eq]
  cases (host.call leg.splitter.store (.openMessage opening) leg.engines).1 with
  | error fault => rfl
  | ok id => rfl

/-- After a close there is no message and no count, whatever the outcome. -/
theorem session_of_closeMessage (queueId : String) :
    ∃ phase, (leg.perform host outlet (.closeMessage queueId)).2.splitter.session =
      { Session.idle with phase := phase } := by
  rcases (leg.splitter.closeMessage_flushed host queueId leg.engines).2 with ⟨phase, after⟩
  exact ⟨phase, congrArg Splitter.session after⟩

/-- A message that a task closes was open before, and one that it opens is open afterwards; so the
closes and the message that is open are never more than the openings. -/
theorem closed_le_opened_perform (task : Task) (id : MessageId) :
    let done := leg.episode host outlet task
    done.closed?.toList.count id + done.after.splitter.session.message.toList.count id ≤
      done.opened?.toList.count id + leg.splitter.session.message.toList.count id := by
  intro done
  cases task with
  | openMessage opening =>
      have session : done.after.splitter.session = match done.opened? with
          | none => .idle
          | some id => .opened id := leg.session_of_openMessage host outlet opening
      have unclosed : done.closed? = none := rfl
      rw [session, unclosed]
      cases done.opened? with
      | none => exact Nat.zero_le _
      | some other => simp [Session.opened]
  | write metadata data =>
      have message : done.after.splitter.session.message = leg.splitter.session.message :=
        leg.write_message host outlet metadata data
      have unclosed : done.closed? = none := rfl
      have unopened : done.opened? = none := rfl
      rw [message, unclosed, unopened]
  | closeMessage queueId =>
      rcases leg.session_of_closeMessage host outlet queueId with ⟨phase, session⟩
      have none : done.after.splitter.session.message = none :=
        congrArg Session.message session
      have unopened : done.opened? = Option.none := rfl
      rw [none, unopened, Episode.closed?]
      split
      · exact Nat.le_of_eq (Nat.add_comm _ _)
      · exact Nat.zero_le _

theorem closed_le_opened_run (tasks : List Task) (id : MessageId) :
    ((leg.episodes host outlet tasks).filterMap Episode.closed?).count id +
        (leg.run host outlet tasks).splitter.session.message.toList.count id ≤
      ((leg.episodes host outlet tasks).filterMap Episode.opened?).count id +
        leg.splitter.session.message.toList.count id := by
  induction tasks generalizing leg with
  | nil => exact Nat.le_refl _
  | cons task later inductionStep =>
      have first := leg.closed_le_opened_perform host outlet task id
      have rest := inductionStep (leg.perform host outlet task).2
      have after : (leg.episode host outlet task).after = (leg.perform host outlet task).2 := rfl
      have split : ∀ pick : Episode κ σ τ → Option MessageId,
          ((leg.episodes host outlet (task :: later)).filterMap pick).count id =
            (pick (leg.episode host outlet task)).toList.count id +
              (((leg.perform host outlet task).2.episodes host outlet later).filterMap
                pick).count id := by
        intro pick
        rw [episodes, List.filterMap_cons, ← List.count_append]
        cases pick (leg.episode host outlet task) <;> rfl
      rw [split, split, run]
      simp only [after] at first
      omega

/-! ## Between messages -/

def IsIdle (leg : Leg κ σ τ) : Prop :=
  leg.splitter.session.message = none ∧ leg.splitter.session.written = 0

/-- After every close and after an opening that fails, there is no message. -/
theorem isIdle_of_reply {task : Task}
    (ended : (∃ answer, (leg.perform host outlet task).1 = .closed answer) ∨
      ∃ fault, (leg.perform host outlet task).1 = .opened (.error fault)) :
    (leg.perform host outlet task).2.IsIdle := by
  cases task with
  | openMessage opening =>
      have session := leg.session_of_openMessage host outlet opening
      rcases ended with ⟨answer, other⟩ | ⟨fault, failed⟩
      · cases other
      · have unopened : (leg.episode host outlet (.openMessage opening)).opened? = none := by
          rw [Episode.opened?, episode, failed]
        rw [unopened] at session
        rw [IsIdle, session]
        exact ⟨rfl, rfl⟩
  | write metadata data => rcases ended with ⟨_, other⟩ | ⟨_, other⟩ <;> cases other
  | closeMessage queueId =>
      rcases leg.session_of_closeMessage host outlet queueId with ⟨phase, session⟩
      rw [IsIdle, session]
      exact ⟨rfl, rfl⟩

variable {leg}

theorem IsIdle.write (idle : leg.IsIdle) (metadata : Option Metadata) (data : Bytes) :
    leg.write host outlet metadata data = (.error .missingContext, leg) := by
  apply write_of_no_context
  rw [Splitter.hasContext, idle.1]
  rfl

theorem IsIdle.perform (idle : leg.IsIdle) {task : Task}
    (unopened : (leg.episode host outlet task).opened? = none) :
    (leg.perform host outlet task).2.IsIdle := by
  cases task with
  | openMessage opening =>
      have session := leg.session_of_openMessage host outlet opening
      rw [unopened] at session
      rw [IsIdle, session]
      exact ⟨rfl, rfl⟩
  | write metadata data =>
      rw [Leg.perform, idle.write host outlet metadata data]
      exact idle
  | closeMessage queueId => exact leg.isIdle_of_reply host outlet (Or.inl ⟨_, rfl⟩)

/-- Until a message is opened there is none. -/
theorem IsIdle.episodes (idle : leg.IsIdle) {tasks : List Task}
    (unopened : ∀ episode ∈ leg.episodes host outlet tasks, episode.opened? = none) :
    ∀ episode ∈ leg.episodes host outlet tasks, episode.before.IsIdle ∧ episode.after.IsIdle := by
  induction tasks generalizing leg with
  | nil => exact fun _ member => nomatch member
  | cons task later inductionStep =>
      have still := idle.perform host outlet (unopened _ List.mem_cons_self)
      intro episode member
      rcases List.mem_cons.mp member with rfl | member
      · exact ⟨idle, still⟩
      · exact inductionStep still (fun other listed => unopened other
          (List.mem_cons_of_mem _ listed)) episode member

end Leg
end Transit
end MailVault
