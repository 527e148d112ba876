import MailVault.Proofs.Transit.Accounting

/-!
# Nothing of earlier messages is left

A splitter lives longer than a message.  Its buffer, its session and its hasher have
seen other messages before, some of which were never closed or broke off in the middle
of a flush, and the buffer may have come with bytes and chunks that belong to none.

Opening a message starts all of this anew.  What a splitter has besides, its cap and its
engine, was given to it when it was built and stays.  So from an opening on it cannot be
told from a splitter that was just built, and neither can any stage, engine or envelope
that has to do with it.  Only the sinks differ, which have collected other bytes; they
have to behave in the same way.
-/

namespace MailVault
namespace Transit

open Store (Host Numbered Vault)

variable {κ σ : Type}

/-! ## Sinks that behave in the same way -/

namespace Sink

/-- What a sink answers to a row of slices. -/
def answers (sink : Sink) : List Bytes → List (Except SinkFault Unit)
  | [] => []
  | data :: later => (sink.write data).1 :: (sink.write data).2.answers later

/-- Sinks that no row of slices tells apart, whatever they have collected. -/
def Alike (one other : Sink) : Prop :=
  ∀ slices, one.answers slices = other.answers slices

theorem Alike.refl (sink : Sink) : sink.Alike sink :=
  fun _ => rfl

theorem Alike.write {one other : Sink} (alike : one.Alike other) (data : Bytes) :
    (one.write data).1 = (other.write data).1 ∧
      (one.write data).2.Alike (other.write data).2 :=
  ⟨(List.cons.inj (alike [data])).1, fun slices => (List.cons.inj (alike (data :: slices))).2⟩

/-- How many bytes a sink still takes, if there is a limit. -/
def remaining (sink : Sink) : Option Nat :=
  sink.limit.map fun most => most - sink.collected.length

theorem room_eq (sink : Sink) (count : Nat) :
    sink.room count =
      match sink.perWrite, sink.remaining with
      | some 0, _ => 0
      | _, none => count
      | _, some left => min count left := by
  rcases sink with ⟨collected, limit, perWrite, silent⟩
  unfold room remaining
  cases limit <;> cases perWrite with
  | none => rfl
  | some most => cases most <;> rfl

theorem isFull_eq (sink : Sink) : sink.isFull = decide (sink.remaining = some 0) := by
  unfold isFull remaining
  cases sink.limit with
  | none => rfl
  | some most => simp [Nat.sub_eq_zero_iff_le]

theorem remaining_collect (sink : Sink) (data : Bytes) :
    (sink.collect data).remaining = sink.remaining.map fun left => left - data.length := by
  simp only [remaining, collect, Option.map_map, List.length_append]
  congr 1
  funext most
  simp only [Function.comp_apply]
  omega

/-- The bytes that a sink still takes decide what it does with a slice, and not those that it has
collected. -/
theorem write_of_remaining {one other : Sink} (remaining : one.remaining = other.remaining)
    (perWrite : one.perWrite = other.perWrite) (silent : one.silent = other.silent)
    (data : Bytes) :
    (one.write data).1 = (other.write data).1 ∧
      (one.write data).2.remaining = (other.write data).2.remaining ∧
      (one.write data).2.perWrite = (other.write data).2.perWrite ∧
      (one.write data).2.silent = (other.write data).2.silent := by
  have room : one.room data.length = other.room data.length := by
    rw [room_eq, room_eq, perWrite, remaining]
  have left : ∀ taken, (one.collect taken).remaining = (other.collect taken).remaining := by
    intro taken
    rw [remaining_collect, remaining_collect, remaining]
  have refusal : ∀ taken, (one.collect taken).refusal = (other.collect taken).refusal := by
    intro taken
    have same : (one.collect taken).silent = (other.collect taken).silent := silent
    rw [Sink.refusal, Sink.refusal, isFull_eq, isFull_eq, left, same]
  unfold write
  simp only [room, refusal]
  split
  · exact ⟨rfl, left _, perWrite, silent⟩
  · exact ⟨rfl, left _, perWrite, silent⟩

theorem alike_of_remaining {one other : Sink} (remaining : one.remaining = other.remaining)
    (perWrite : one.perWrite = other.perWrite) (silent : one.silent = other.silent) :
    one.Alike other := by
  intro slices
  induction slices generalizing one other with
  | nil => rfl
  | cons data later inductionStep =>
      rcases write_of_remaining remaining perWrite silent data with
        ⟨answer, nextRemaining, nextPerWrite, nextSilent⟩
      rw [answers, answers, answer, inductionStep nextRemaining nextPerWrite nextSilent]

end Sink

/-! ## Relays that differ in their sinks -/

/-- What follows two stages: sinks that are alike, or the same stage. -/
inductive Next.Alike : Next → Next → Prop where
  | sink {one other : Sink} (alike : one.Alike other) : Alike (.sink one) (.sink other)
  | stage (key : StageKey) : Alike (.stage key) (.stage key)

theorem Next.Alike.refl (next : Next) : next.Alike next := by
  cases next with
  | sink sink => exact .sink (.refl sink)
  | stage key => exact .stage key

/-- Stages that differ at most in what their sinks have collected. -/
structure Stage.Alike (one other : Stage κ) : Prop where
  splitter : one.splitter = other.splitter
  envelope : one.envelope = other.envelope
  next : one.next.Alike other.next

theorem Stage.Alike.refl (stage : Stage κ) : stage.Alike stage :=
  ⟨rfl, rfl, .refl stage.next⟩

/-- Relays that differ at most in what their sinks have collected.  Engines, envelopes, buffers and
sessions are the same. -/
structure Relay.Alike (one other : Relay κ σ) : Prop where
  vault : one.vault = other.vault
  envelopes : one.envelopes = other.envelopes
  stages : ∀ key, Option.Rel Stage.Alike (one.stages.find? key) (other.stages.find? key)

theorem Stage.alike_mk (splitter : Splitter κ) {envelope sameEnvelope : Option EnvelopeKey}
    (envelopes : envelope = sameEnvelope) {next sameNext : Next} (alike : next.Alike sameNext)
    (registered sameRegistered : Bool) :
    Stage.Alike ⟨splitter, envelope, next, registered⟩
      ⟨splitter, sameEnvelope, sameNext, sameRegistered⟩ :=
  ⟨rfl, envelopes, alike⟩

theorem Stage.Alike.refit {one other : Stage κ} (alike : one.Alike other) (sink : Sink) :
    (one.refit sink).Alike (other.refit sink) := by
  rcases one with ⟨splitter, envelope, next, registered⟩
  rcases other with ⟨sameSplitter, sameEnvelope, sameNext, sameRegistered⟩
  rcases alike with ⟨rfl, rfl, alike⟩
  simp only at alike
  cases alike with
  | sink _ => exact Stage.alike_mk splitter rfl (.sink (.refl sink)) _ _
  | stage key => exact Stage.alike_mk splitter rfl (.stage key) _ _

namespace Relay
namespace Alike

variable {one other : Relay κ σ}

theorem insert (alike : one.Alike other) (key : StageKey) {stage same : Stage κ}
    (alikeStage : stage.Alike same) (looked : StageKey) :
    Option.Rel Stage.Alike ((one.stages.insert key stage).find? looked)
      ((other.stages.insert key same).find? looked) := by
  rw [Table.find?_insert, Table.find?_insert]
  by_cases here : looked = key
  · rw [if_pos here, if_pos here]
    exact .some alikeStage
  · rw [if_neg here, if_neg here]
    exact alike.stages looked

theorem put (alike : one.Alike other) (key : StageKey) {stage same : Stage κ}
    (alikeStage : stage.Alike same) (vault : σ) :
    (one.put key stage vault).Alike (other.put key same vault) :=
  ⟨rfl, alike.envelopes, alike.insert key alikeStage⟩

/-- A stage is in neither relay, or in both and alike. -/
theorem find?_cases (alike : one.Alike other) (key : StageKey) :
    (one.stages.find? key = none ∧ other.stages.find? key = none) ∨
      ∃ stage same, one.stages.find? key = some stage ∧ other.stages.find? key = some same ∧
        stage.Alike same := by
  have related := alike.stages key
  cases first : one.stages.find? key with
  | none =>
      rw [first] at related
      generalize other.stages.find? key = second at related ⊢
      cases related with
      | none => exact Or.inl ⟨rfl, rfl⟩
  | some stage =>
      rw [first] at related
      generalize other.stages.find? key = second at related ⊢
      cases related with
      | @some _ same alikeStage => exact Or.inr ⟨stage, same, rfl, rfl, alikeStage⟩

theorem envelopeOf (alike : one.Alike other) {stage same : Stage κ}
    (alikeStage : stage.Alike same) : one.envelopeOf stage = other.envelopeOf same := by
  rw [Relay.envelopeOf, Relay.envelopeOf, alike.envelopes, alikeStage.envelope]

variable (host : Host κ σ)

theorem openMessage (alike : one.Alike other) (key : StageKey) {stage same : Stage κ}
    (alikeStage : stage.Alike same) (envelopeKey : EnvelopeKey) (envelope : Envelope) :
    (one.openMessage host key stage envelopeKey envelope).1 =
        (other.openMessage host key same envelopeKey envelope).1 ∧
      (one.openMessage host key stage envelopeKey envelope).2.Alike
        (other.openMessage host key same envelopeKey envelope).2 := by
  unfold Relay.openMessage
  rw [alikeStage.splitter, alike.vault]
  rcases same.splitter.openMessage host envelope.opening other.vault with ⟨result, splitter, vault⟩
  cases result with
  | error fault => exact ⟨rfl, alike.put key (Stage.alike_mk _ rfl alikeStage.next _ _) vault⟩
  | ok id =>
      refine ⟨rfl, rfl, ?_, alike.insert key (Stage.alike_mk _ rfl alikeStage.next _ _)⟩
      simp only [Relay.put, alike.envelopes]

theorem closeMessage (alike : one.Alike other) (key : StageKey) {stage same : Stage κ}
    (alikeStage : stage.Alike same) :
    (one.closeMessage host key stage).1 = (other.closeMessage host key same).1 ∧
      (one.closeMessage host key stage).2.Alike (other.closeMessage host key same).2 := by
  unfold Relay.closeMessage
  rw [alike.envelopeOf alikeStage, alikeStage.splitter, alike.vault]
  simp only
  rcases same.splitter.closeMessage host
    (((other.envelopeOf same).map Envelope.queuedId).getD "") other.vault with
    ⟨result, splitter, vault⟩
  cases result with
  | error fault => exact ⟨rfl, alike.put key (Stage.alike_mk _ rfl alikeStage.next _ _) vault⟩
  | ok _ => exact ⟨rfl, alike.put key (Stage.alike_mk _ rfl alikeStage.next _ _) vault⟩

/-- A slice takes the same way through both relays. -/
theorem write (alike : one.Alike other) (index : Nat) (data : Bytes) :
    (one.write host index data).1 = (other.write host index data).1 ∧
      (one.write host index data).2.Alike (other.write host index data).2 := by
  induction index using Nat.strongRecOn generalizing one other with
  | _ index inductionStep =>
      rw [Relay.write, Relay.write]
      rcases alike.find?_cases ⟨index⟩ with
        ⟨none, sameNone⟩ | ⟨stage, same, found, sameFound, alikeStage⟩
      · rw [none, sameNone]
        exact ⟨rfl, alike⟩
      · simp only [found, sameFound, alike.envelopeOf alikeStage, alikeStage.splitter, alike.vault]
        rcases same.splitter.accept host ((other.envelopeOf same).bind Envelope.metadata) data
          other.vault with ⟨result, splitter, vault⟩
        have passed : ∀ {next sameNext : Next}, next.Alike sameNext →
            (one.put ⟨index⟩ { stage with splitter := splitter, next := next } vault).Alike
              (other.put ⟨index⟩ { same with splitter := splitter, next := sameNext } vault) :=
          fun alikeNext =>
            alike.put ⟨index⟩ (Stage.alike_mk _ alikeStage.envelope alikeNext _ _) vault
        have following := alikeStage.next
        cases result with
        | error fault => exact ⟨rfl, passed following⟩
        | ok _ =>
            simp only
            generalize stage.next = next at following ⊢
            generalize same.next = sameNext at following ⊢
            cases following with
            | @sink sink sameSink alikeSink =>
                have answered := alikeSink.write data
                simp only
                generalize sink.write data = written at answered ⊢
                generalize sameSink.write data = sameWritten at answered ⊢
                rcases written with ⟨result, after⟩
                rcases sameWritten with ⟨sameResult, sameAfter⟩
                rcases answered with ⟨rfl, alikeAfter⟩
                cases result with
                | error fault => exact ⟨rfl, passed (.sink alikeAfter)⟩
                | ok _ => exact ⟨rfl, passed (.sink alikeAfter)⟩
            | stage earlier =>
                by_cases before : earlier.index < index
                · simp only [if_pos before]
                  exact inductionStep earlier.index before (passed (.stage earlier))
                · simp only [if_neg before, true_and]
                  exact passed (.stage earlier)

/-- Every errand is answered in the same way, and the relays stay alike. -/
theorem perform (alike : one.Alike other) (errand : Errand) :
    (one.perform host errand).1 = (other.perform host errand).1 ∧
      (one.perform host errand).2.Alike (other.perform host errand).2 := by
  cases errand with
  | openMessage key envelopeKey =>
      simp only [Relay.perform, alike.envelopes]
      rcases alike.find?_cases key with
        ⟨none, sameNone⟩ | ⟨stage, same, found, sameFound, alikeStage⟩
      · rw [none, sameNone]
        exact ⟨rfl, alike⟩
      · rw [found, sameFound]
        cases other.envelopes.find? envelopeKey with
        | none => exact ⟨rfl, alike⟩
        | some envelope =>
            rcases alike.openMessage host key alikeStage envelopeKey envelope with ⟨answer, still⟩
            exact ⟨congrArg Reply.opened answer, still⟩
  | write key data =>
      simp only [Relay.perform]
      rcases alike.find?_cases key with ⟨none, sameNone⟩ | ⟨stage, same, found, sameFound, _⟩
      · rw [none, sameNone]
        exact ⟨rfl, alike⟩
      · rw [found, sameFound]
        rcases alike.write host key.index data with ⟨answer, still⟩
        exact ⟨congrArg Reply.written answer, still⟩
  | closeMessage key =>
      simp only [Relay.perform]
      rcases alike.find?_cases key with
        ⟨none, sameNone⟩ | ⟨stage, same, found, sameFound, alikeStage⟩
      · rw [none, sameNone]
        exact ⟨rfl, alike⟩
      · rw [found, sameFound]
        rcases alike.closeMessage host key alikeStage with ⟨answer, still⟩
        exact ⟨congrArg Reply.closed answer, still⟩
  | publish key contents =>
      refine ⟨rfl, alike.vault, ?_, alike.stages⟩
      simp only [Relay.perform, alike.envelopes]
  | refit key sink =>
      simp only [Relay.perform]
      rcases alike.find?_cases key with
        ⟨none, sameNone⟩ | ⟨stage, same, found, sameFound, alikeStage⟩
      · rw [none, sameNone]
        exact ⟨rfl, alike⟩
      · rw [found, sameFound]
        exact ⟨rfl, alike.vault, alike.envelopes, alike.insert key (alikeStage.refit sink)⟩

end Alike

def replies (relay : Relay κ σ) (host : Host κ σ) : List Errand → List Reply
  | [] => []
  | errand :: later =>
    (relay.perform host errand).1 :: (relay.perform host errand).2.replies host later

theorem Alike.run {one other : Relay κ σ} (alike : one.Alike other) (host : Host κ σ)
    (errands : List Errand) :
    one.replies host errands = other.replies host errands ∧
      (one.run host errands).Alike (other.run host errands) := by
  induction errands generalizing one other with
  | nil => exact ⟨rfl, alike⟩
  | cons errand later inductionStep =>
      rcases alike.perform host errand with ⟨answer, still⟩
      rcases inductionStep still with ⟨answers, alikeLast⟩
      refine ⟨?_, alikeLast⟩
      rw [replies, replies, answer, answers]

end Relay

/-! ## What a splitter was built with -/

/-- The engine of a splitter, the cap of its buffer, and where the buffer stores its chunks. -/
structure Splitter.Furnished (engine : κ) (most : Nat) (splitter : Splitter κ) : Prop where
  store : splitter.store = engine
  cap : splitter.buffer.cap = most
  deposits : splitter.buffer.store = some engine

namespace Splitter

variable {store : κ} {cap : Nat} {splitter : Splitter κ}

theorem furnished_withBuffer (store : κ) (buffer : Buffer κ) :
    (withBuffer store buffer).Furnished store buffer.cap :=
  ⟨rfl, rfl, rfl⟩

theorem Furnished.course (furnished : splitter.Furnished store cap) {host : Host κ σ}
    {state now : σ} {taken : Bytes} {after : Splitter κ}
    (course : Course host splitter.buffer state taken after.buffer now)
    (same : after.store = splitter.store) : after.Furnished store cap where
  store := same.trans furnished.store
  cap := course.fixed.1.trans furnished.cap
  deposits := course.fixed.2.trans furnished.deposits

/-- Of an emptied buffer only the cap and the store are left. -/
theorem reset_eq_reset {one other : Buffer κ} (cap : one.cap = other.cap)
    (store : one.store = other.store) : one.reset = other.reset := by
  rcases one with ⟨_, _, _, _, _, _, _⟩
  rcases other with ⟨_, _, _, _, _, _, _⟩
  simp only at cap store
  subst cap
  subst store
  rfl

/-- Opening a message leaves just what a splitter was built with. -/
theorem Furnished.openMessage_eq (furnished : splitter.Furnished store cap) (host : Host κ σ)
    (opening : Opening) (state : σ) :
    splitter.openMessage host opening state = (new store cap).openMessage host opening state := by
  have positive : cap ≠ 0 := by
    rw [← furnished.cap]
    exact Nat.pos_iff_ne_zero.mp splitter.buffer.cap_pos
  have reset : splitter.buffer.reset = (new store cap).buffer.reset := by
    apply reset_eq_reset
    · rw [furnished.cap]
      exact (if_neg positive).symm
    · exact furnished.deposits
  rw [Splitter.openMessage_eq, Splitter.openMessage_eq, reset, furnished.store]
  rfl

theorem furnished_lasting (host : Host κ σ) (store : κ) (cap : Nat) :
    Lasting host fun before after : Splitter κ =>
      before.Furnished store cap → after.Furnished store cap where
  refl _ := id
  trans before after := after ∘ before
  moved moves furnished := furnished.course moves.course moves.store
  opened _ _ furnished := ⟨furnished.store, furnished.cap, furnished.deposits⟩
  closed _ course furnished := ⟨furnished.store, course.fixed.1.trans furnished.cap,
    course.fixed.2.trans furnished.deposits⟩

end Splitter

/-- A splitter at its place in a relay is still what it was built as. -/
def Relay.Furnished (relay : Relay κ σ) (key : StageKey) (engine : κ) (cap : Nat) : Prop :=
  ∃ stage, relay.stages.find? key = some stage ∧ stage.splitter.Furnished engine cap

theorem Relay.Furnished.run {relay : Relay κ σ} {key : StageKey} {engine : κ} {cap : Nat}
    (furnished : relay.Furnished key engine cap) (host : Host κ σ) (errands : List Errand) :
    (relay.run host errands).Furnished key engine cap := by
  rcases furnished with ⟨stage, found, fixed⟩
  rcases (relay.run_lasts (Splitter.furnished_lasting host engine cap) errands).find? found with
    ⟨later, last, keeps⟩
  exact ⟨later, last, keeps fixed⟩

/-! ## The next message -/

/-- A relay in which a stage has a newly built splitter. -/
def Relay.renew (relay : Relay κ σ) (key : StageKey) (engine : κ) (cap : Nat) (following : Next)
    (anew : Bool) : Relay κ σ :=
  { relay with stages := relay.stages.insert key (.new (.new engine cap) following anew) }

/-- Whether a stage has a splitter that was used before or a newly built one, opening a message is
answered in the same way and leaves relays that are alike. -/
theorem Relay.alike_of_openMessage (relay : Relay κ σ) (host : Host κ σ) {key : StageKey}
    {stage : Stage κ} {engine : κ} {cap : Nat} (found : relay.stages.find? key = some stage)
    (furnished : stage.splitter.Furnished engine cap) {following : Next}
    (alike : stage.next.Alike following) (anew : Bool) {envelopeKey : EnvelopeKey}
    {envelope : Envelope} (known : relay.envelopes.find? envelopeKey = some envelope) :
    (relay.perform host (.openMessage key envelopeKey)).1 =
        ((relay.renew key engine cap following anew).perform host
          (.openMessage key envelopeKey)).1 ∧
      (relay.perform host (.openMessage key envelopeKey)).2.Alike
        ((relay.renew key engine cap following anew).perform host
          (.openMessage key envelopeKey)).2 := by
  have fresh : (relay.renew key engine cap following anew).stages.find? key =
      some (.new (.new engine cap) following anew) := by
    rw [renew, Table.find?_insert, if_pos rfl]
  have stages : ∀ {one same : Stage κ}, one.Alike same → ∀ looked,
      Option.Rel Stage.Alike ((relay.stages.insert key one).find? looked)
        (((relay.renew key engine cap following anew).stages.insert key same).find? looked) := by
    intro one same alikeStage looked
    rw [renew]
    simp only [Table.find?_insert]
    by_cases here : looked = key
    · rw [if_pos here, if_pos here]
      exact .some alikeStage
    · rw [if_neg here, if_neg here, if_neg here]
      cases relay.stages.find? looked with
      | none => exact .none
      | some other => exact .some (.refl other)
  have sameEnvelope : (relay.renew key engine cap following anew).envelopes.find? envelopeKey =
      some envelope := known
  simp only [perform, found, known, fresh, sameEnvelope]
  unfold Relay.openMessage
  rw [furnished.openMessage_eq host envelope.opening relay.vault]
  have opened : (Stage.new (Splitter.new engine cap) following anew).splitter.openMessage host
      envelope.opening (relay.renew key engine cap following anew).vault =
        (Splitter.new engine cap).openMessage host envelope.opening relay.vault := rfl
  rw [opened]
  rcases (Splitter.new engine cap).openMessage host envelope.opening relay.vault with
    ⟨result, splitter, vault⟩
  cases result with
  | error fault => exact ⟨rfl, rfl, rfl, stages (Stage.alike_mk splitter rfl alike _ _)⟩
  | ok id => exact ⟨rfl, rfl, rfl, stages (Stage.alike_mk splitter rfl alike _ _)⟩

/-- A stage was built with a cap, and with a buffer of which it keeps nothing else.  Whatever was
asked of it and of the rest of the relay before, also if calls failed or messages were left open:
once a message is opened at it, everything goes on as if it had a newly built splitter with that cap
before a sink that behaves in the same way.  All later errands are answered as there, and engines,
envelopes, buffers and sessions are the same after them; so every message has the same record. -/
theorem history_forgotten (host : Host κ σ) (relay : Relay κ σ) (key : StageKey) (engine : κ)
    (buffer : Buffer κ) (next : Next) (registered : Bool)
    (built : relay.stages.find? key = some (.new (.withBuffer engine buffer) next registered))
    (history : List Errand) :
    let past := relay.run host history
    ∃ stage, past.stages.find? key = some stage ∧
      ∀ (following : Next) (anew : Bool) (envelope : EnvelopeKey)
        (answer : Except TransitFault MessageId) (later : List Errand),
        stage.next.Alike following →
        (past.perform host (.openMessage key envelope)).1 = .opened answer →
        let renewed := past.renew key engine buffer.cap following anew
        let errands := .openMessage key envelope :: later
        past.replies host errands = renewed.replies host errands ∧
        (past.run host errands).Alike (renewed.run host errands) ∧
        ∀ id, (host.call engine (.getMessage id) (past.run host errands).vault).1 =
          (host.call engine (.getMessage id) (renewed.run host errands).vault).1 := by
  intro past
  have start : relay.Furnished key engine buffer.cap :=
    ⟨_, built, Splitter.furnished_withBuffer engine buffer⟩
  rcases start.run host history with ⟨stage, found, furnished⟩
  refine ⟨stage, found, ?_⟩
  intro following anew envelope answer later alike opened renewed errands
  have known : ∃ contents, past.envelopes.find? envelope = some contents := by
    cases present : past.envelopes.find? envelope with
    | none =>
        rw [Relay.perform, found, present] at opened
        cases opened
    | some contents => exact ⟨contents, rfl⟩
  rcases known with ⟨contents, known⟩
  rcases past.alike_of_openMessage host found furnished alike anew known with ⟨answers, still⟩
  rcases still.run host later with ⟨replies, last⟩
  have same : (past.run host errands).Alike (renewed.run host errands) := last
  refine ⟨?_, same, fun id => ?_⟩
  · rw [Relay.replies, Relay.replies, answers, replies]
  · rw [same.vault]

/-- The sink that comes next, if it is not a stage. -/
def Next.sink? : Next → Option Sink
  | .sink final => some final
  | .stage _ => none

/-- A stage whose buffer came with a stored chunk and a pending byte, before a sink for ten
bytes. -/
def worn : Relay Store.EngineKey (Numbered Vault) where
  vault := ⟨0, (Vault.empty.add (.volatile (.new 6))).2⟩
  envelopes := Table.empty.insert ⟨0⟩ ((Envelope.new "a" "b").setParts [{ node := "1" }])
  stages := Table.empty.insert ⟨0⟩
    (.new (.withBuffer ⟨0⟩ (((Buffer.new.capTo 2).append [7, 7]).flushed.append [8]))
      (.sink { limit := some 10 }) false)

/-- The close of the first message fails in its flush, and the second message is left open with a
pending byte.  The third one goes on as with a new splitter before a sink for six bytes: two of its
bytes are recorded, and the next five do not fit into the sink. -/
theorem history_forgotten_worn :
    let host := Vault.host.interrupted fun number =>
      if number = 2 then some .notInitialized else none
    let past := worn.run host [.openMessage ⟨0⟩ ⟨0⟩, .write ⟨0⟩ [1, 2, 3], .closeMessage ⟨0⟩,
      .openMessage ⟨0⟩ ⟨0⟩, .write ⟨0⟩ [4]]
    let renewed := past.renew ⟨0⟩ ⟨0⟩ 2 (.sink { limit := some 6 }) true
    let errands : List Errand :=
      [.openMessage ⟨0⟩ ⟨0⟩, .write ⟨0⟩ [5, 6], .closeMessage ⟨0⟩, .openMessage ⟨0⟩ ⟨0⟩,
        .write ⟨0⟩ [1, 2, 3, 4, 5]]
    (past.perform host (.openMessage ⟨0⟩ ⟨0⟩)).1 = .opened (.ok ⟨3⟩) ∧
      past.replies host errands = renewed.replies host errands ∧
      renewed.replies host errands =
        [.opened (.ok ⟨3⟩), .written (.ok 2), .closed (.ok ()), .opened (.ok ⟨4⟩),
          .written (.error (.sink .broken))] ∧
      (past.run host errands).Alike (renewed.run host errands) := by
  intro host past renewed errands
  rcases history_forgotten host worn ⟨0⟩ ⟨0⟩ _ _ false rfl
    [.openMessage ⟨0⟩ ⟨0⟩, .write ⟨0⟩ [1, 2, 3], .closeMessage ⟨0⟩, .openMessage ⟨0⟩ ⟨0⟩,
      .write ⟨0⟩ [4]] with ⟨stage, found, forgotten⟩
  have left : ((past.stages.find? ⟨0⟩).bind fun stage => stage.next.sink?).map
      (fun sink => (sink.remaining, sink.perWrite, sink.silent)) = some (some 6, none, false) := by
    decide +kernel
  have alike : stage.next.Alike (.sink { limit := some 6 }) := by
    rw [found, Option.bind_some] at left
    cases next : stage.next with
    | sink sink =>
        simp only [next, Next.sink?, Option.map_some, Option.some.injEq, Prod.mk.injEq] at left
        exact .sink (Sink.alike_of_remaining left.1 left.2.1 left.2.2)
    | stage key => simp [next, Next.sink?] at left
  have opened : (past.perform host (.openMessage ⟨0⟩ ⟨0⟩)).1 = .opened (.ok ⟨3⟩) := by
    decide +kernel
  rcases forgotten _ true ⟨0⟩ _
    [.write ⟨0⟩ [5, 6], .closeMessage ⟨0⟩, .openMessage ⟨0⟩ ⟨0⟩, .write ⟨0⟩ [1, 2, 3, 4, 5]]
    alike opened with ⟨replies, still, _⟩
  exact ⟨opened, replies, by decide +kernel, still⟩

end Transit
end MailVault
