import MailVault.Proofs.Store.Totals
import MailVault.Proofs.Transit.Stagewise

/-!
# The count of a splitter is always right

A splitter counts the bytes that its buffer has taken beside the buffer, which stores
chunks on its own.  Opening sets both to nothing, closing does the same, and whatever
happens in between keeps them equal: bytes that were taken before a fault are counted
anew from the buffer.  What stages do to each other does not matter, since a write
passes only splitters that keep their counts right.

A message is closed with the count as its total.  So no engine that compares the total
with the manifest ever finds them different, and what it records of a closed message
has the sizes of its chunks as its total.
-/

namespace MailVault
namespace Transit

open Store (Fault Host Numbered Plain Vault)

variable {κ σ : Type}

namespace Splitter

/-- After a call the count of a splitter is right, or the message is still the one before and the
count is right if it was right before. -/
def Reckons (before after : Splitter κ) : Prop :=
  after.Balanced ∨
    after.session.message = before.session.message ∧ (before.Balanced → after.Balanced)

theorem Reckons.refl (splitter : Splitter κ) : Reckons splitter splitter :=
  Or.inr ⟨rfl, id⟩

theorem Reckons.trans {first second third : Splitter κ} (before : Reckons first second)
    (after : Reckons second third) : Reckons first third := by
  rcases after with balanced | ⟨sameAfter, keepsAfter⟩
  · exact Or.inl balanced
  · rcases before with balanced | ⟨sameBefore, keepsBefore⟩
    · exact Or.inl (keepsAfter balanced)
    · exact Or.inr ⟨sameAfter.trans sameBefore, keepsAfter ∘ keepsBefore⟩

theorem reckons_lasting (host : Host κ σ) : Lasting host Reckons where
  refl := Reckons.refl
  trans := Reckons.trans
  moved moves := Or.inr ⟨moves.message, moves.balanced⟩
  opened _ answer := Or.inl (Session.started_written answer)
  closed _ _ := Or.inl rfl

end Splitter

/-- After an errand every stage is still there and has reckoned, and what the engines keep still
holds. -/
structure Relay.Reckons (Holds : σ → Prop) (before after : Relay κ σ) : Prop where
  stages : ∀ key, Option.Rel
    (fun stage later => Splitter.Reckons stage.splitter later.splitter)
    (before.stages.find? key) (after.stages.find? key)
  vault : Holds before.vault → Holds after.vault

namespace Relay

variable {Holds : σ → Prop} {host : Host κ σ}

theorem Reckons.lasts {before after : Relay κ σ} (reckons : before.Reckons Holds after) :
    before.Lasts Splitter.Reckons after :=
  reckons.stages

theorem run_reckons (preserves : host.Preserves Holds) (relay : Relay κ σ)
    (errands : List Errand) : relay.Reckons Holds (relay.run host errands) where
  stages := relay.run_lasts (Splitter.reckons_lasting host) errands
  vault := relay.run_preserves preserves errands

/-- A stage has a right count when it has just been asked to open a message. -/
theorem balanced_of_opened {relay : Relay κ σ} {key : StageKey} {envelopeKey : EnvelopeKey}
    {answer : Except TransitFault MessageId}
    (opened : (relay.perform host (.openMessage key envelopeKey)).1 = .opened answer) :
    ∃ stage, (relay.perform host (.openMessage key envelopeKey)).2.stages.find? key = some stage ∧
      stage.splitter.Balanced := by
  simp only [perform] at opened ⊢
  cases found : relay.stages.find? key with
  | none =>
      rw [found] at opened
      cases opened
  | some stage =>
      cases known : relay.envelopes.find? envelopeKey with
      | none =>
          rw [found, known] at opened
          cases opened
      | some envelope =>
          rcases relay.openMessage_eq host key stage envelopeKey envelope with
            ⟨current, envelopes, equal⟩
          simp only [equal, Table.find?_insert, if_true]
          exact ⟨_, rfl, Session.started_written _⟩

theorem Reckons.keeps_balanced {before after : Relay κ σ} (reckons : before.Reckons Holds after)
    {key : StageKey} {stage : Stage κ} (found : before.stages.find? key = some stage)
    (balanced : stage.splitter.Balanced) :
    ∃ later, after.stages.find? key = some later ∧ later.splitter.Balanced := by
  rcases reckons.lasts.find? found with ⟨later, last, right | ⟨_, kept⟩⟩
  · exact ⟨later, last, right⟩
  · exact ⟨later, last, kept balanced⟩

/-- No stage has a message. -/
def Idle (relay : Relay κ σ) : Prop :=
  ∀ key stage, relay.stages.find? key = some stage → stage.splitter.session.message = none

/-- A stage of a relay that was idle at the start has a right count whenever it has a message. -/
theorem Reckons.balanced {before after : Relay κ σ} (reckons : before.Reckons Holds after)
    (idle : before.Idle) {key : StageKey} {stage : Stage κ}
    (found : after.stages.find? key = some stage) {id : MessageId}
    (message : stage.splitter.session.message = some id) : stage.splitter.Balanced := by
  rcases reckons.lasts.find?_before found with ⟨start, first, balanced | ⟨same, _⟩⟩
  · exact balanced
  · rw [message, idle key start first] at same
    cases same

end Relay

/-! ## Closing with the count as the total -/

section Closing

variable {host : Host κ σ} {Calm : σ → Prop} {state : σ}

theorem Buffer.flush_plain (strict : host.Strict Calm) (buffer : Buffer κ) (calm : Calm state) :
    Plain (buffer.flush host state).1 := by
  unfold flush deposit
  by_cases none : buffer.pending = []
  · rw [if_pos none]
    exact Store.plain_ok _
  · rw [if_neg none]
    cases buffer.store with
    | none => exact Store.plain_error rfl
    | some store =>
        have plain := strict.plain store
          (.addChunk (Digest.ofHasher buffer.hasher) buffer.pending) state calm trivial
        simp only
        rcases called : host.call store
          (.addChunk (Digest.ofHasher buffer.hasher) buffer.pending) state with ⟨result, now⟩
        rw [called] at plain
        cases result with
        | error fault => exact Store.plain_error (plain fault rfl)
        | ok known => exact Store.plain_ok _

theorem Splitter.Balanced.flushed {splitter : Splitter κ} (balanced : splitter.Balanced)
    (ok : (splitter.buffer.flush host state).1 = .ok ()) :
    splitter.session.written = (splitter.buffer.flush host state).2.1.manifest.totalSize := by
  have same := (splitter.buffer.flush_course host state).taken_eq
  have pending := splitter.buffer.pending_of_flush host state ok
  calc splitter.session.written
      = splitter.buffer.taken := balanced
    _ = (splitter.buffer.flush host state).2.1.taken := same.symm
    _ = (splitter.buffer.flush host state).2.1.manifest.totalSize := by
      rw [Buffer.taken, pending, List.length_nil, Nat.add_zero]

/-- A splitter whose count is right is never told that sizes differ when it closes. -/
theorem Splitter.closeMessage_plain (strict : host.Strict Calm) {splitter : Splitter κ}
    (balanced : ∀ id, splitter.session.message = some id → splitter.Balanced)
    (queueId : String) (calm : Calm state) :
    Plain (splitter.closeMessage host queueId state).1 := by
  have flushing := splitter.buffer.flush_plain strict calm
  have course := splitter.buffer.flush_course host state
  unfold closeMessage
  rcases flushed : splitter.buffer.flush host state with ⟨result, buffer, now⟩
  rw [flushed] at flushing course
  cases result with
  | error fault => exact Store.plain_error (flushing fault rfl)
  | ok _ =>
      simp only [Buffer.takeManifest]
      cases message : splitter.session.message with
      | none => exact Store.plain_ok _
      | some id =>
          have total := (balanced id message).flushed (congrArg Prod.fst flushed)
          rw [flushed] at total
          have plain := strict.plain splitter.store (.closeMessage id splitter.session.written
            buffer.manifest (splitter.session.summary queueId)) now
            (course.preserves strict.calm calm) total
          simp only
          rcases called : host.call splitter.store (.closeMessage id splitter.session.written
            buffer.manifest (splitter.session.summary queueId)) now with ⟨result, after⟩
          rw [called] at plain
          cases result with
          | error fault => exact Store.plain_error (plain fault rfl)
          | ok _ => exact Store.plain_ok _

/-- No close of a relay that was idle at the start is answered with sizes that differ. -/
theorem Relay.Reckons.closeMessage_plain (strict : host.Strict Calm) {before after : Relay κ σ}
    (reckons : before.Reckons Calm after) (idle : before.Idle) (calm : Calm before.vault)
    {key : StageKey} {answer : Except TransitFault Unit}
    (closed : (after.perform host (.closeMessage key)).1 = .closed answer)
    (recorded held : Nat) : answer ≠ .error (.storage (.sizeMismatch recorded held)) := by
  intro mismatch
  rw [mismatch, perform] at closed
  cases found : after.stages.find? key with
  | none =>
      rw [found] at closed
      cases closed
  | some stage =>
      rw [found] at closed
      simp only [closeMessage] at closed
      have plain := Splitter.closeMessage_plain strict
        (fun id message => reckons.balanced idle found message)
        (((after.envelopeOf stage).map Envelope.queuedId).getD "") (reckons.vault calm)
      rcases called : stage.splitter.closeMessage host
        (((after.envelopeOf stage).map Envelope.queuedId).getD "") after.vault with
        ⟨result, splitter, vault⟩
      rw [called] at closed plain
      cases result with
      | error fault =>
          cases closed
          have harmless := plain _ rfl
          cases harmless
      | ok _ => cases closed

end Closing

/-- A close that succeeds leaves the closed record of its message.  The manifest in it is that of
the buffer after a flush, and the total is the sum of its sizes. -/
theorem Relay.exists_record_of_closeMessage {faults : Nat → Option Fault}
    {relay : Relay Store.EngineKey (Numbered Vault)} {key : StageKey}
    {stage : Stage Store.EngineKey} {id : MessageId}
    (found : relay.stages.find? key = some stage)
    (message : stage.splitter.session.message = some id)
    (closed : (relay.perform (Vault.host.interrupted faults) (.closeMessage key)).1 =
      .closed (.ok ())) :
    ∃ record buffer now, Vault.record?
        (relay.perform (Vault.host.interrupted faults) (.closeMessage key)).2.vault.inner
        stage.splitter.store id = some record ∧
      Course (Vault.host.interrupted faults) stage.splitter.buffer relay.vault [] buffer now ∧
      record.closed = true ∧ record.manifest = buffer.manifest ∧
      record.totalBytes = record.manifest.totalSize := by
  rcases relay.closeMessage_eq (Vault.host.interrupted faults) key stage with
    ⟨queueId, buffer, now, phase, course, result, vault, closing, after⟩
  simp only [perform, found, after] at closed ⊢
  cases closing with
  | given fault => cases closed
  | without pending none =>
      rw [message] at none
      cases none
  | called other pending same =>
      rw [message] at same
      cases same
      rcases Vault.host.interrupted_cases faults stage.splitter.store
        (.closeMessage id stage.splitter.session.written buffer.manifest
          (stage.splitter.session.summary queueId)) now with ⟨fault, _, failed⟩ | reached
      · rw [failed] at closed
        cases closed
      · rw [reached] at closed ⊢
        cases answer : (Vault.host.call stage.splitter.store
          (.closeMessage id stage.splitter.session.written buffer.manifest
            (stage.splitter.session.summary queueId)) now.inner).1 with
        | error fault =>
            rw [answer] at closed
            cases closed
        | ok _ =>
            rcases now.inner.record?_of_closeMessage stage.splitter.store answer with
              ⟨right, record, kept⟩
            exact ⟨record.close stage.splitter.session.written buffer.manifest
              (stage.splitter.session.summary queueId), buffer, now, kept, course, rfl, rfl, right⟩

theorem Relay.record?_of_closeMessage {faults : Nat → Option Fault}
    {relay : Relay Store.EngineKey (Numbered Vault)} {key : StageKey}
    {stage : Stage Store.EngineKey} {id : MessageId}
    (found : relay.stages.find? key = some stage)
    (message : stage.splitter.session.message = some id)
    (closed : (relay.perform (Vault.host.interrupted faults) (.closeMessage key)).1 =
      .closed (.ok ())) :
    ∃ record, Vault.record?
        (relay.perform (Vault.host.interrupted faults) (.closeMessage key)).2.vault.inner
        stage.splitter.store id = some record ∧
      record.closed = true ∧ record.totalBytes = record.manifest.totalSize := by
  rcases exists_record_of_closeMessage found message closed with
    ⟨record, _, _, kept, _, done, _, total⟩
  exact ⟨record, kept, done, total⟩

/-- From the first opening of a stage on, the count of its splitter is the sum of the sizes in the
manifest of its buffer and of the bytes that are pending, on every host and behind every other
stage.  So with engines in memory and in files, whichever calls fail, no close is told that sizes
differ, and closed records have the totals of their manifests when they are closed and ever
after. -/
theorem sizes_accounted :
    (∀ {κ σ : Type} (host : Host κ σ) (relay : Relay κ σ) (key : StageKey)
      (envelope : EnvelopeKey) (answer : Except TransitFault MessageId) (later : List Errand),
      (relay.perform host (.openMessage key envelope)).1 = .opened answer →
      ∃ stage,
        (relay.run host (.openMessage key envelope :: later)).stages.find? key = some stage ∧
        stage.splitter.session.written =
          stage.splitter.buffer.manifest.totalSize + stage.splitter.buffer.pending.length) ∧
    ∀ (faults : Nat → Option Fault) (relay : Relay Store.EngineKey (Numbered Vault)),
      (∀ number recorded held, faults number ≠ some (.sizeMismatch recorded held)) →
      relay.vault.inner.Calm → relay.Idle →
      ∀ errands : List Errand,
        let host := Vault.host.interrupted faults
        let after := relay.run host errands
        (∀ key answer, (after.perform host (.closeMessage key)).1 = .closed answer →
          ∀ recorded held, answer ≠ .error (.storage (.sizeMismatch recorded held))) ∧
        (∀ key stage id, after.stages.find? key = some stage →
          stage.splitter.session.message = some id →
          (after.perform host (.closeMessage key)).1 = .closed (.ok ()) →
          ∃ record,
            (after.perform host (.closeMessage key)).2.vault.inner.record?
              stage.splitter.store id = some record ∧
            record.closed = true ∧ record.totalBytes = record.manifest.totalSize) ∧
        (relay.vault.inner.Settled → ∀ store id record,
          after.vault.inner.record? store id = some record →
          record.closed = true → record.totalBytes = record.manifest.totalSize) := by
  constructor
  · intro κ σ host relay key envelope answer later opened
    rcases Relay.balanced_of_opened opened with ⟨stage, found, balanced⟩
    have always : host.Preserves fun _ => True := fun _ _ _ _ => trivial
    have reckons : (relay.perform host (.openMessage key envelope)).2.Reckons (fun _ => True)
        (relay.run host (.openMessage key envelope :: later)) :=
      Relay.run_reckons always _ later
    exact reckons.keeps_balanced found balanced
  · intro faults relay harmless calm idle errands host after
    have plain : ∀ number fault, faults number = some fault → fault.isMismatch = false := by
      intro number fault planned
      cases fault with
      | sizeMismatch recorded held => exact absurd planned (harmless number recorded held)
      | _ => rfl
    have strict := Vault.strict.interrupted plain
    refine ⟨?_, ?_, ?_⟩
    · intro key answer closed
      exact (relay.run_reckons strict.calm errands).closeMessage_plain strict idle calm closed
    · intro key stage id found message closed
      exact Relay.record?_of_closeMessage found message closed
    · intro settled store id record found
      have preserves : Vault.host.Preserves Vault.Settled :=
        fun key request _ settled => settled.call key request
      have kept := (relay.run_reckons (preserves.interrupted faults) errands).vault settled
      exact kept.of_record? found

/-- Two stages, one behind the other: the first cuts chunks of two bytes for a file, and the second
comes with a buffer that holds bytes already and stores in memory. -/
def mixed : Relay Store.EngineKey (Numbered Vault) where
  vault :=
    ⟨0,
      { engines :=
          (Table.empty.insert ⟨0⟩ (.volatile (.new 6))).insert ⟨1⟩
            (.durable ⟨"mail", some "mail"⟩)
        disk := Table.empty.insert "mail" .empty
        made := 2 }⟩
  envelopes := Table.empty.insert ⟨0⟩ ((Envelope.new "a" "b").setParts [{ node := "1" }])
  stages :=
    (Table.empty.insert ⟨0⟩
      (.new (.withBuffer ⟨0⟩ ((Buffer.new.capTo 4).append [7, 7])) (.sink {}) false)).insert ⟨1⟩
        (.new (.new ⟨1⟩ 2) (.stage ⟨0⟩) false)

theorem mixed_idle : mixed.Idle := by
  intro key stage found
  rcases Table.find?_insert_cases found with ⟨_, rfl⟩ | ⟨_, first⟩
  · rfl
  · rcases Table.find?_insert_cases first with ⟨_, rfl⟩ | ⟨_, none⟩
    · rfl
    · cases none

theorem mixed_calm : mixed.vault.inner.Calm := by
  intro key engine found
  rcases Table.find?_insert_cases found with ⟨_, other⟩ | ⟨_, first⟩
  · cases other
  · rcases Table.find?_insert_cases first with ⟨_, other⟩ | ⟨_, none⟩
    · cases other
    · cases none

theorem mixed_settled : mixed.vault.inner.Settled := by
  constructor
  · intro key engine memory found kept id record listed
    rcases Table.find?_insert_cases found with ⟨_, rfl⟩ | ⟨_, first⟩
    · cases kept
    · rcases Table.find?_insert_cases first with ⟨_, rfl⟩ | ⟨_, none⟩
      · cases kept
        cases listed
      · cases none
  · intro file database found
    rcases Table.find?_insert_cases found with ⟨_, rfl⟩ | ⟨_, none⟩
    · exact Vault.settled_empty
    · cases none

/-- The fourth call fails: the second chunk of a write of five bytes is not stored, and its last
byte is lost. -/
theorem sizes_accounted_mixed :
    let host := Vault.host.interrupted fun number =>
      if number = 3 then some .notInitialized else none
    let errands : List Errand :=
      [.openMessage ⟨0⟩ ⟨0⟩, .write ⟨1⟩ [1, 2, 3, 4, 5], .write ⟨1⟩ [6]]
    let after := mixed.run host (.openMessage ⟨1⟩ ⟨0⟩ :: errands)
    ∃ stage record,
      after.stages.find? ⟨1⟩ = some stage ∧
      stage.splitter.session.written =
        stage.splitter.buffer.manifest.totalSize + stage.splitter.buffer.pending.length ∧
      (after.perform host (.closeMessage ⟨1⟩)).2.vault.inner.record? stage.splitter.store ⟨1⟩ =
        some record ∧
      record.closed = true ∧ record.totalBytes = record.manifest.totalSize ∧
      record.totalBytes = 5 ∧
      ∀ store id other, after.vault.inner.record? store id = some other →
        other.closed = true → other.totalBytes = other.manifest.totalSize := by
  intro host errands after
  rcases sizes_accounted with ⟨counts, accounts⟩
  rcases counts host mixed ⟨1⟩ ⟨0⟩ (.ok ⟨1⟩) errands (by decide +kernel) with
    ⟨stage, found, written⟩
  have harmless : ∀ number recorded held,
      (if number = 3 then some .notInitialized else none : Option Fault) ≠
        some (.sizeMismatch recorded held) := by
    intro number recorded held
    split <;> simp
  rcases accounts _ mixed harmless mixed_calm mixed_idle (.openMessage ⟨1⟩ ⟨0⟩ :: errands) with
    ⟨never, records, later⟩
  have closed : (after.perform host (.closeMessage ⟨1⟩)).1 = .closed (.ok ()) := by
    decide +kernel
  have message : (after.stages.find? ⟨1⟩).bind (fun stage => stage.splitter.session.message) =
      some ⟨1⟩ := by
    decide +kernel
  rw [found] at message
  rcases records ⟨1⟩ stage ⟨1⟩ found message closed with ⟨record, kept, done, total⟩
  refine ⟨stage, record, found, written, kept, done, total, ?_, later mixed_settled⟩
  have store : (after.stages.find? ⟨1⟩).map (fun stage => stage.splitter.store) = some ⟨1⟩ := by
    decide +kernel
  have five : ((after.perform host (.closeMessage ⟨1⟩)).2.vault.inner.record? ⟨1⟩ ⟨1⟩).map
      MessageRecord.totalBytes = some 5 := by
    decide +kernel
  rw [found] at store
  have named : stage.splitter.store = ⟨1⟩ := Option.some.inj store
  rw [named] at kept
  rw [kept] at five
  exact Option.some.inj five

end Transit
end MailVault
