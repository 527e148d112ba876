import MailVault.Proofs.Transit.Leg
import MailVault.Proofs.Transit.Unfailing

/-!
# The stream goes on unchanged

Storing a message is done aside while its bytes go by.  What is handed on is exactly what
was written with context and chunked without a failure, slice by slice; a write that is
turned away changes nothing, and one that fails in the store leaves the stream where it
was.

So two splitters over engines that do not fail hand on the same slices and give the same
answers, whatever they are told about parts and headers, wherever they cut, and whatever
their engines hold.  All that counts is which writes have context, and that is the same
for both if each write comes with metadata.
-/

namespace MailVault
namespace Transit

open Store (Fault Host Noted Numbered Vault)

variable {κ σ τ : Type}

/-! ## What is handed on -/

namespace Episode

/-- The slice of a write that has context and whose chunking succeeds. -/
def passed? (host : Host κ σ) (episode : Episode κ σ τ) : Option Bytes :=
  match episode.task with
  | .write metadata data =>
    if episode.before.splitter.hasContext metadata &&
        (episode.before.splitter.chunking host metadata data episode.before.engines).1.isOk then
      some data
    else none
  | _ => none

/-- What a write was answered. -/
def written? (episode : Episode κ σ τ) : Option (Except TransitFault Nat) :=
  match episode.reply with
  | .written answer => some answer
  | _ => none

end Episode

namespace Leg

variable {host : Host κ σ} {leg : Leg κ σ τ} {metadata : Option Metadata} {data : Bytes}

theorem passed?_write (leg : Leg κ σ τ) (outlet : Outlet σ τ) :
    (leg.episode host outlet (.write metadata data)).passed? host =
      if leg.splitter.hasContext metadata &&
          (leg.splitter.chunking host metadata data leg.engines).1.isOk then some data
      else none :=
  rfl

/-- A task hands on the slice of its episode, if it has one. -/
theorem slices_perform (leg : Leg κ σ (τ × List Bytes)) (outlet : Outlet σ τ) (task : Task) :
    (leg.perform host outlet.logged task).2.ahead.2 =
      leg.ahead.2 ++ ((leg.episode host outlet.logged task).passed? host).toList := by
  cases task with
  | openMessage opening => exact (List.append_nil _).symm
  | closeMessage queueId => exact (List.append_nil _).symm
  | write metadata data =>
      rw [passed?_write, perform]
      simp only
      by_cases context : leg.splitter.hasContext metadata = true
      · rcases chunked : leg.splitter.chunking host metadata data leg.engines with
          ⟨result, splitter, engines⟩
        cases result with
        | error fault =>
            rw [write_of_fault context chunked]
            simp [Except.isOk, Except.toBool]
        | ok _ =>
            rw [write_of_chunked context chunked]
            simp [context, Outlet.logged, Except.isOk, Except.toBool]
      · rw [write_of_no_context (Bool.not_eq_true _ ▸ context)]
        simp [context]

theorem slices_run (leg : Leg κ σ (τ × List Bytes)) (outlet : Outlet σ τ) (tasks : List Task) :
    (leg.run host outlet.logged tasks).ahead.2 =
      leg.ahead.2 ++
        (leg.episodes host outlet.logged tasks).filterMap (Episode.passed? host) := by
  induction tasks generalizing leg with
  | nil => exact (List.append_nil _).symm
  | cons task later inductionStep =>
      rw [run, inductionStep, slices_perform, episodes, List.filterMap_cons, List.append_assoc]
      cases (leg.episode host outlet.logged task).passed? host with
      | none => rfl
      | some slice => rfl

end Leg

/-! ## Two runs over engines that do not fail -/

/-- Tasks of the same kind.  Writes are of the same slice, and both come with metadata. -/
inductive Task.Alike : Task → Task → Prop where
  | openMessage (opening other : Opening) : Alike (.openMessage opening) (.openMessage other)
  | write {metadata other : Metadata} (data : Bytes) (named : metadata.size ≠ 0)
      (otherNamed : other.size ≠ 0) :
      Alike (.write (some metadata) data) (.write (some other) data)
  | closeMessage (queueId other : String) : Alike (.closeMessage queueId) (.closeMessage other)

/-- An outlet that does not call the engines still does not if it lists its slices. -/
theorem Outlet.logged_own (answer : Bytes → τ → Except TransitFault Nat × τ) :
    (own answer : Outlet σ τ).logged = own fun data ahead =>
      ((answer data ahead.1).1, (answer data ahead.1).2, ahead.2 ++ [data]) := by
  funext data world
  rfl

namespace Leg

variable {host : Host κ σ} {key : κ} {Sound : σ → Prop} {leg : Leg κ σ τ}
  {answer : Bytes → τ → Except TransitFault Nat × τ}

theorem served_openMessage (unfailing : host.Unfailing key Sound)
    (served : leg.splitter.Served key Sound leg.engines) (outlet : Outlet σ τ)
    (opening : Opening) :
    let after := (leg.perform host outlet (.openMessage opening)).2
    after.splitter.Served key Sound after.engines ∧
      after.splitter.session.message ≠ none ∧ after.ahead = leg.ahead := by
  rcases unfailing.opens opening leg.engines served.sound with ⟨id, opened⟩
  have still : Sound (host.call key (.openMessage opening) leg.engines).2 :=
    unfailing.keeps ⟨.openMessage opening, rfl⟩ leg.engines served.sound
  simp only [perform, Splitter.openMessage_eq, served.store, opened]
  exact ⟨⟨rfl, served.deposits, still⟩, nofun, trivial⟩

theorem served_closeMessage (unfailing : host.Unfailing key Sound)
    (served : leg.splitter.Served key Sound leg.engines) (outlet : Outlet σ τ)
    (queueId : String) :
    let after := (leg.perform host outlet (.closeMessage queueId)).2
    after.splitter.Served key Sound after.engines ∧
      after.splitter.session.message = none ∧ after.ahead = leg.ahead := by
  have course := leg.splitter.buffer.flush_course host leg.engines
  rcases leg.splitter.closeMessage_flushed host queueId leg.engines with ⟨closing, phase, after⟩
  have flushed := course.sound unfailing served.deposits served.sound
  simp only [perform]
  generalize leg.splitter.buffer.flush host leg.engines = flushing at *
  generalize leg.splitter.closeMessage host queueId leg.engines = done at *
  rcases flushing with ⟨_, buffer, now⟩
  rcases done with ⟨result, splitter, engines⟩
  simp only at closing after flushed course
  subst after
  have sound : Sound engines := by
    cases closing with
    | given fault => exact flushed
    | without pending none => exact flushed
    | called id pending message =>
        rw [served.store]
        exact unfailing.keeps ⟨.closeMessage id leg.splitter.session.written buffer.manifest
          (leg.splitter.session.summary queueId), rfl⟩ now flushed
  exact ⟨⟨served.store, course.fixed.2.trans served.deposits, sound⟩, rfl, trivial⟩

/-- A write with metadata is handed on if there is a message, and the message stays. -/
theorem served_write (unfailing : host.Unfailing key Sound)
    (served : leg.splitter.Served key Sound leg.engines) {metadata : Metadata}
    (named : metadata.size ≠ 0) (data : Bytes) :
    let done := leg.write host (.own answer) (some metadata) data
    done.2.splitter.Served key Sound done.2.engines ∧
      done.2.splitter.session.message = leg.splitter.session.message ∧
      (done.1, done.2.ahead) =
        if leg.splitter.session.message.isSome then answer data leg.ahead
        else (.error .missingContext, leg.ahead) := by
  have context : leg.splitter.hasContext (some metadata) =
      leg.splitter.session.message.isSome := by
    simp [Splitter.hasContext, named]
  cases message : leg.splitter.session.message with
  | none =>
      rw [message] at context
      rw [write_of_no_context context]
      exact ⟨served, message, rfl⟩
  | some id =>
      rw [message] at context
      rcases Splitter.chunking_unfailing unfailing served (some metadata) data with ⟨ok, still⟩
      rcases leg.splitter.chunking_session host (some metadata) data leg.engines with ⟨same, _⟩
      rcases chunked : leg.splitter.chunking host (some metadata) data leg.engines with
        ⟨result, splitter, engines⟩
      rw [chunked] at ok still same
      simp only at ok
      subst ok
      rw [write_of_chunked context chunked]
      exact ⟨⟨still.store, still.deposits, still.sound⟩, same.trans message, rfl⟩

/-- Two legs, each with a message or both without, that have what follows them in the same
state. -/
structure Level {ι ρ : Type} (one : Leg κ σ τ) (other : Leg ι ρ τ) : Prop where
  message : one.splitter.session.message.isSome = other.splitter.session.message.isSome
  ahead : one.ahead = other.ahead

variable {ι ρ : Type} {rival : Host ι ρ} {engine : ι} {Fit : ρ → Prop} {other : Leg ι ρ τ}

/-- Tasks of the same kind leave two legs level, and writes get the same answers. -/
theorem Level.perform (level : leg.Level other) (unfailing : host.Unfailing key Sound)
    (rivalUnfailing : rival.Unfailing engine Fit)
    (served : leg.splitter.Served key Sound leg.engines)
    (otherServed : other.splitter.Served engine Fit other.engines) {task another : Task}
    (alike : task.Alike another) :
    let one := leg.episode host (.own answer) task
    let two := other.episode rival (.own answer) another
    one.after.Level two.after ∧ one.written? = two.written? ∧
      one.after.splitter.Served key Sound one.after.engines ∧
      two.after.splitter.Served engine Fit two.after.engines := by
  intro one two
  cases alike with
  | openMessage opening otherOpening =>
      rcases served_openMessage unfailing served (.own answer) opening with ⟨still, some, ahead⟩
      rcases served_openMessage rivalUnfailing otherServed (.own answer) otherOpening with
        ⟨otherStill, otherSome, otherAhead⟩
      refine ⟨⟨?_, ?_⟩, rfl, still, otherStill⟩
      · exact (Option.isSome_iff_ne_none.mpr some).trans
          (Option.isSome_iff_ne_none.mpr otherSome).symm
      · exact ahead.trans (level.ahead.trans otherAhead.symm)
  | write data named otherNamed =>
      rcases served_write unfailing served named data with ⟨still, message, answered⟩
      rcases served_write rivalUnfailing otherServed otherNamed data with
        ⟨otherStill, otherMessage, otherAnswered⟩
      rw [level.message, level.ahead] at answered
      rcases Prod.mk.inj (answered.trans otherAnswered.symm) with ⟨answer, ahead⟩
      refine ⟨⟨?_, ahead⟩, congrArg some answer, still, otherStill⟩
      exact (congrArg Option.isSome message).trans
        (level.message.trans (congrArg Option.isSome otherMessage).symm)
  | closeMessage queueId otherQueueId =>
      rcases served_closeMessage unfailing served (.own answer) queueId with ⟨still, none, ahead⟩
      rcases served_closeMessage rivalUnfailing otherServed (.own answer) otherQueueId with
        ⟨otherStill, otherNone, otherAhead⟩
      refine ⟨⟨?_, ?_⟩, rfl, still, otherStill⟩
      · exact (congrArg Option.isSome none).trans (congrArg Option.isSome otherNone).symm
      · exact ahead.trans (level.ahead.trans otherAhead.symm)

theorem Level.run (level : leg.Level other) (unfailing : host.Unfailing key Sound)
    (rivalUnfailing : rival.Unfailing engine Fit)
    (served : leg.splitter.Served key Sound leg.engines)
    (otherServed : other.splitter.Served engine Fit other.engines) {tasks others : List Task}
    (alike : List.Forall₂ Task.Alike tasks others) :
    (leg.run host (.own answer) tasks).ahead = (other.run rival (.own answer) others).ahead ∧
      (leg.episodes host (.own answer) tasks).filterMap Episode.written? =
        (other.episodes rival (.own answer) others).filterMap Episode.written? := by
  induction alike generalizing leg other with
  | nil => exact ⟨level.ahead, rfl⟩
  | cons first _ inductionStep =>
      rcases level.perform unfailing rivalUnfailing served otherServed first with
        ⟨stillLevel, answer, still, otherStill⟩
      rcases inductionStep stillLevel still otherStill with ⟨ahead, answers⟩
      refine ⟨ahead, ?_⟩
      rw [episodes, episodes, List.filterMap_cons, List.filterMap_cons, answer]
      simp only [episode] at answers
      rw [answers]

end Leg

/-! ## Streams without parts -/

/-- The same outlet beside the notes of the engines. -/
def Outlet.beside (outlet : Outlet σ τ) : Outlet (Noted σ) τ := fun data world =>
  match outlet data (world.1.inner, world.2) with
  | (answer, engines, ahead) => (answer, ⟨engines, world.1.notes⟩, ahead)

namespace Leg

/-- Nothing is pending at the splitter, and nothing was added. -/
structure Untouched (leg : Leg κ (Noted σ) τ) : Prop where
  pending : leg.splitter.buffer.pending = []
  notes : ∀ digest data answer, .addChunk digest data answer ∉ leg.engines.notes

namespace Untouched

variable {leg : Leg κ (Noted σ) τ} (untouched : leg.Untouched) (host : Host κ σ)
  (outlet : Outlet σ τ)

include untouched

/-- One more call that is not an addition. -/
theorem noted (store : κ) {β : Type} {call : Store.Call β} (other : call.kind ≠ .addChunk)
    (digest : Digest) (data : Bytes) (answer : Except Fault Bool) :
    .addChunk digest data answer ∉ (host.noted.call store call leg.engines).2.notes := by
  intro member
  rcases List.mem_append.mp member with earlier | last
  · exact untouched.notes digest data answer earlier
  · cases call with
    | addChunk _ _ => exact other rfl
    | _ => cases List.mem_singleton.mp last

theorem closeMessage (queueId : String) :
    (leg.perform host.noted outlet.beside (.closeMessage queueId)).2.Untouched := by
  have flushed : leg.splitter.buffer.flush host.noted leg.engines =
      (.ok (), leg.splitter.buffer, leg.engines) := if_pos untouched.pending
  rcases leg.splitter.closeMessage_flushed host.noted queueId leg.engines with
    ⟨closing, phase, after⟩
  rw [flushed] at closing after
  simp only [Leg.perform]
  generalize leg.splitter.closeMessage host.noted queueId leg.engines = done at *
  rcases done with ⟨result, splitter, engines⟩
  simp only at closing after
  subst after
  refine ⟨rfl, ?_⟩
  cases closing with
  | given fault => exact untouched.notes
  | without pending none => exact untouched.notes
  | called id pending message => exact untouched.noted host leg.splitter.store nofun

/-- A task adds nothing unless a write with context sees parts. -/
theorem perform (task : Task)
    (silent : ∀ metadata data, task = .write metadata data →
      leg.splitter.hasContext metadata = true → publishedParts metadata = []) :
    (leg.perform host.noted outlet.beside task).2.Untouched := by
  cases task with
  | openMessage opening =>
      simp only [Leg.perform, Splitter.openMessage_eq]
      exact ⟨rfl, untouched.noted host leg.splitter.store nofun⟩
  | write metadata data =>
      simp only [Leg.perform]
      cases context : leg.splitter.hasContext metadata with
      | false =>
          rw [write_of_no_context context]
          exact untouched
      | true =>
          have chunked : leg.splitter.chunking host.noted metadata data leg.engines =
              (.ok (), leg.splitter, leg.engines) := by
            rw [Splitter.chunking, silent metadata data rfl context]
          rw [write_of_chunked context chunked]
          exact ⟨untouched.pending, untouched.notes⟩
  | closeMessage queueId => exact untouched.closeMessage host outlet queueId

theorem run (tasks : List Task)
    (silent : ∀ episode ∈ leg.episodes host.noted outlet.beside tasks, ∀ metadata data,
      episode.task = .write metadata data →
      episode.before.splitter.hasContext metadata = true → publishedParts metadata = []) :
    (leg.run host.noted outlet.beside tasks).Untouched := by
  induction tasks generalizing leg with
  | nil => exact untouched
  | cons task later inductionStep =>
      apply inductionStep
      · exact untouched.perform host outlet task
          (silent (leg.episode host.noted outlet.beside task) List.mem_cons_self)
      · intro episode member
        exact silent episode (List.mem_cons_of_mem _ member)

end Untouched
end Leg

/-- The slices that a splitter hands on are exactly those of the writes with context whose chunking
succeeds, in their order.  A write without context changes nothing, and one whose chunking fails
hands nothing on and leaves position, progress, phase and message as they were.  A stage of a relay
writes in this way to the sink or to the stage behind it.

So whatever the parts, the headers, the caps and the engines are, two splitters before the same
outlet hand on the same slices and answer writes in the same way if their engines do not fail and
their writes come with metadata.  A splitter that sees no parts and has nothing pending adds no
chunk. -/
theorem stream_handed_on :
    (∀ {κ σ τ : Type} (host : Host κ σ) (outlet : Outlet σ τ) (leg : Leg κ σ (τ × List Bytes))
      (tasks : List Task),
      (leg.run host outlet.logged tasks).ahead.2 = leg.ahead.2 ++
        (leg.episodes host outlet.logged tasks).filterMap (Episode.passed? host)) ∧
    (∀ {κ σ τ : Type} (host : Host κ σ) (outlet : Outlet σ τ) (leg : Leg κ σ τ)
      (metadata : Option Metadata) (data : Bytes),
      (leg.splitter.hasContext metadata = false →
        leg.write host outlet metadata data = (.error .missingContext, leg)) ∧
      ∀ fault, leg.splitter.hasContext metadata = true →
        (leg.splitter.chunking host metadata data leg.engines).1 = .error fault →
        ∃ splitter engines, leg.write host outlet metadata data =
            (.error (.storage fault), ⟨splitter, engines, leg.ahead⟩) ∧
          splitter.session.position = leg.splitter.session.position ∧
          splitter.session.progress = leg.splitter.session.progress ∧
          splitter.session.phase = leg.splitter.session.phase ∧
          splitter.session.message = leg.splitter.session.message) ∧
    (∀ {κ σ : Type} (host : Host κ σ) (relay : Relay κ σ) (index : Nat) (stage : Stage κ)
      (data : Bytes), relay.stages.find? ⟨index⟩ = some stage →
      let metadata := (relay.envelopeOf stage).bind Envelope.metadata
      (∀ sink, stage.next = .sink sink → relay.write host index data =
        match Leg.write ⟨stage.splitter, relay.vault, sink⟩ host .sink metadata data with
        | (answer, leg) => (answer, relay.put ⟨index⟩
          { stage with splitter := leg.splitter, next := .sink leg.ahead } leg.engines)) ∧
      ∀ earlier, stage.next = .stage earlier → earlier.index < index →
        relay.write host index data =
          match Leg.write ⟨stage.splitter, relay.vault, relay.stages⟩ host
            (.stage relay host earlier.index) metadata data with
          | (answer, leg) => (answer, { relay with
            vault := leg.engines
            stages := leg.ahead.insert ⟨index⟩ { stage with splitter := leg.splitter } })) ∧
    (∀ {κ σ ι ρ τ : Type} (host : Host κ σ) (rival : Host ι ρ) (key : κ) (engine : ι)
      (Sound : σ → Prop) (Fit : ρ → Prop) (answer : Bytes → τ → Except TransitFault Nat × τ)
      (ahead : τ) (buffer : Buffer κ) (twin : Buffer ι) (state : σ) (now : ρ)
      (tasks others : List Task),
      host.Unfailing key Sound → rival.Unfailing engine Fit → Sound state → Fit now →
      List.Forall₂ Task.Alike tasks others →
      let outlet : {ω : Type} → Outlet ω (τ × List Bytes) := (Outlet.own answer).logged
      let one : Leg κ σ (τ × List Bytes) := ⟨.withBuffer key buffer, state, ahead, []⟩
      let two : Leg ι ρ (τ × List Bytes) := ⟨.withBuffer engine twin, now, ahead, []⟩
      (one.run host outlet tasks).ahead = (two.run rival outlet others).ahead ∧
      (one.episodes host outlet tasks).filterMap Episode.written? =
        (two.episodes rival outlet others).filterMap Episode.written?) ∧
    ∀ {κ σ τ : Type} (host : Host κ σ) (outlet : Outlet σ τ) (key : κ) (buffer : Buffer κ)
      (state : σ) (ahead : τ) (tasks : List Task),
      let leg : Leg κ (Noted σ) τ := ⟨.withBuffer key buffer, ⟨state, []⟩, ahead⟩
      buffer.pending = [] →
      (∀ episode ∈ leg.episodes host.noted outlet.beside tasks, ∀ metadata data,
        episode.task = .write metadata data →
        episode.before.splitter.hasContext metadata = true → publishedParts metadata = []) →
      ∀ digest data answer, .addChunk digest data answer ∉
        (leg.run host.noted outlet.beside tasks).engines.notes := by
  refine ⟨?_, ?_, ?_, ?_, ?_⟩
  · intro κ σ τ host outlet leg tasks
    exact leg.slices_run outlet tasks
  · intro κ σ τ host outlet leg metadata data
    refine ⟨fun none => leg.write_of_no_context none outlet, ?_⟩
    intro fault context failed
    rcases leg.splitter.chunking_session host metadata data leg.engines with
      ⟨message, position, phase, progress⟩
    rcases chunked : leg.splitter.chunking host metadata data leg.engines with
      ⟨result, splitter, engines⟩
    rw [chunked] at failed message position phase progress
    simp only at failed
    subst failed
    exact ⟨splitter, engines, Leg.write_of_fault context chunked outlet, position,
      progress fault rfl, phase, message⟩
  · intro κ σ host relay index stage data found metadata
    constructor
    · intro sink next
      exact relay.write_eq_of_sink host found next data
    · intro earlier next before
      exact relay.write_eq_of_stage host found next before data
  · intro κ σ ι ρ τ host rival key engine Sound Fit answer ahead buffer twin state now tasks others
      unfailing rivalUnfailing sound fit alike outlet one two
    have level : one.Level two := ⟨rfl, rfl⟩
    simp only [outlet, Outlet.logged_own]
    exact level.run unfailing rivalUnfailing ⟨rfl, rfl, sound⟩ ⟨rfl, rfl, fit⟩ alike
  · intro κ σ τ host outlet key buffer state ahead tasks leg pending silent
    have untouched : leg.Untouched := ⟨pending, fun _ _ _ => List.not_mem_nil⟩
    exact (untouched.run host outlet tasks silent).notes

/-- A message of two writes, with one write before it and one after it. -/
def twoWrites (metadata : Metadata) : List Task :=
  [.write (some metadata) [9], .openMessage {}, .write (some metadata) [1, 2, 3],
    .write (some metadata) [4, 5], .closeMessage "q", .write (some metadata) [6]]

theorem twoWrites_alike {metadata other : Metadata} (named : metadata.size ≠ 0)
    (otherNamed : other.size ≠ 0) :
    List.Forall₂ Task.Alike (twoWrites metadata) (twoWrites other) :=
  .cons (.write _ named otherNamed) (.cons (.openMessage _ _) (.cons (.write _ named otherNamed)
    (.cons (.write _ named otherNamed) (.cons (.closeMessage _ _)
      (.cons (.write _ named otherNamed) .nil)))))

theorem metadata_of_twoWrites {metadata : Option Metadata} {data : Bytes} {table : Metadata}
    (listed : .write metadata data ∈ twoWrites table) : metadata = some table := by
  simp only [twoWrites, List.mem_cons, Task.write.injEq, reduceCtorEq, List.not_mem_nil] at listed
  tauto

/-- One splitter cuts the message in memory, the other one sees no parts and has a file; before a
sink for four bytes they hand on the same two slices.  If the first chunk is refused, nothing is
handed on. -/
theorem stream_handed_on_twice :
    let memory : Vault := (Vault.empty.add (.volatile (.new 6))).2
    let file : Vault :=
      { engines := Table.empty.insert ⟨0⟩ (.durable ⟨"mail", some "mail"⟩)
        disk := Table.empty.insert "mail" .empty
        made := 1 }
    let shown : Metadata := Table.empty.insert Metadata.partsKey (.parts [{ node := "1" }])
    let bare : Metadata := Table.empty.insert "spam" (.text "no")
    let one : Leg Store.EngineKey Vault (Sink × List Bytes) :=
      ⟨.withBuffer ⟨0⟩ (Buffer.new.capTo 2), memory, { limit := some 4 }, []⟩
    let two : Leg Store.EngineKey Vault (Sink × List Bytes) :=
      ⟨.withBuffer ⟨0⟩ (Buffer.new.capTo 5), file, { limit := some 4 }, []⟩
    let stuck := Vault.host.interrupted fun number =>
      if number = 1 then some .notInitialized else none
    let opened : Leg Store.EngineKey (Numbered Vault) Sink :=
      Leg.run ⟨.withBuffer ⟨0⟩ (Buffer.new.capTo 2), ⟨0, memory⟩, {}⟩ stuck .sink
        [.openMessage {}]
    (one.run Vault.host (Outlet.own Sink.deliver).logged (twoWrites shown)).ahead.2 =
        [[1, 2, 3], [4, 5]] ∧
      (one.run Vault.host (Outlet.own Sink.deliver).logged (twoWrites shown)).ahead =
        (two.run Vault.host (Outlet.own Sink.deliver).logged (twoWrites bare)).ahead ∧
      (one.episodes Vault.host (Outlet.own Sink.deliver).logged
        (twoWrites shown)).filterMap Episode.written? =
        [.error .missingContext, .ok 3, .error (.sink .broken), .error .missingContext] ∧
      (two.episodes Vault.host (Outlet.own Sink.deliver).logged
        (twoWrites bare)).filterMap Episode.written? =
        [.error .missingContext, .ok 3, .error (.sink .broken), .error .missingContext] ∧
      (opened.write stuck .sink (some shown) [1, 2, 3]).1 = .error (.storage .notInitialized) ∧
      (opened.write stuck .sink (some shown) [1, 2, 3]).2.splitter.session.position = 0 ∧
      ∀ digest data answer, .addChunk digest data answer ∉
        (Leg.run ⟨.withBuffer (⟨0⟩ : Store.EngineKey) Buffer.new, ⟨file, []⟩, {}⟩
          Vault.host.noted (Outlet.beside .sink) (twoWrites bare)).engines.notes := by
  intro memory file shown bare one two stuck opened
  rcases stream_handed_on with ⟨slices, turnedAway, _, alike, silent⟩
  have blank : Vault.Keeps ⟨0⟩ memory .empty :=
    .memory (.new 6) rfl (Store.Volatile.represents_new 6)
  have empty : Vault.Keeps ⟨0⟩ file .empty :=
    .file ⟨"mail", some "mail"⟩ "mail" .empty rfl rfl Store.Database.represents_empty
  have unfailing := (Vault.answersAt ⟨0⟩).unfailing
  rcases alike Vault.host Vault.host ⟨0⟩ ⟨0⟩ _ _ Sink.deliver { limit := some 4 }
    (Buffer.new.capTo 2) (Buffer.new.capTo 5) memory file (twoWrites shown) (twoWrites bare)
    unfailing unfailing ⟨_, blank⟩ ⟨_, empty⟩
    (twoWrites_alike (by decide) (by decide)) with ⟨ahead, answers⟩
  have answered : (one.episodes Vault.host (Outlet.own Sink.deliver).logged
      (twoWrites shown)).filterMap Episode.written? =
      [.error .missingContext, .ok 3, .error (.sink .broken), .error .missingContext] := by
    decide +kernel
  rcases (turnedAway stuck .sink opened (some shown) [1, 2, 3]).2 .notInitialized
    (by decide +kernel) (by decide +kernel) with ⟨splitter, engines, written, position, _⟩
  refine ⟨?_, ahead, answered, answers.symm.trans answered, ?_, ?_, ?_⟩
  · rw [slices]
    decide +kernel
  · rw [written]
  · rw [written]
    exact position.trans (by decide +kernel)
  · apply silent Vault.host .sink ⟨0⟩ Buffer.new file {} (twoWrites bare) rfl
    intro episode member metadata data task context
    have listed : episode.task ∈ twoWrites bare := by
      rw [← Leg.episodes_map_task _ Vault.host.noted (Outlet.beside .sink) (twoWrites bare)]
      exact List.mem_map_of_mem member
    rw [task] at listed
    rw [metadata_of_twoWrites listed]
    decide +kernel

end Transit
end MailVault
