import MailVault.Proofs.Transit.Custody
import MailVault.Proofs.Transit.Traffic

/-!
# Messages read back as they were written

Stages that share one store get in each other's way only through the numbers of their
messages and through the chunks that they have in common.  Numbers are never given
twice, and a chunk that is known already is the chunk that would have been stored.
So while a message is underway, its stage holds just what its writes have
contributed, and from the moment that its close succeeds the record spells this
content, whatever happens to the other messages.
-/

namespace MailVault
namespace Transit

open Store (Coherent Distinct Faulty Host Ledger Spells Stocked Volatile Watched)

variable {κ σ : Type} {Represents : σ → Ledger → Prop} {host : Host κ σ}

/-- All stages are new and stand before sinks, each with a cap of its own. -/
def Relay.Unused (relay : Relay κ σ) : Prop :=
  ∀ key stage, relay.stages.find? key = some stage →
    ∃ store asked sink registered,
      stage = Stage.new (Splitter.new store asked) (.sink sink) registered

/-- A stage before a sink whose buffer holds what the writes of its open message have
contributed. -/
structure Standing (added : List Bytes) (stage : Stage κ) (transfer : Option Transfer) : Prop where
  sink : ∃ sink, stage.next = .sink sink
  hashed : stage.splitter.buffer.Hashed
  message : stage.splitter.session.message = transfer.map Transfer.id
  content : ∀ current, transfer = some current →
    ∃ content, Contributed current.passages content ∧ stage.splitter.buffer.Holds added content

theorem Standing.later {added more : List Bytes} {stage : Stage κ} {transfer : Option Transfer}
    (standing : Standing added stage transfer) (grown : added ⊆ more) :
    Standing more stage transfer where
  sink := standing.sink
  hashed := standing.hashed
  message := standing.message
  content current equal := by
    rcases standing.content current equal with ⟨content, contributed, holds⟩
    exact ⟨content, contributed, holds.later grown⟩

/-- The account of the observer fits the relay and the store. -/
structure Sound (Represents : σ → Ledger → Prop) (observed : Observed κ (Watched σ))
    (ledger : Ledger) : Prop where
  stocked : Stocked Represents observed.relay.vault ledger
  standing : ∀ key stage, observed.relay.stages.find? key = some stage →
    Standing observed.relay.vault.added stage (observed.underway key)
  issued : ∀ key transfer, observed.underway key = some transfer →
    transfer.id.value ≤ ledger.last
  apart : ∀ first second one other, observed.underway first = some one →
    observed.underway second = some other → one.id = other.id → first = second

/-- A message that is no longer underway has a record that spells the content. -/
structure Archived (observed : Observed κ (Watched σ)) (ledger : Ledger) (id : MessageId)
    (content : Bytes) : Prop where
  issued : id.value ≤ ledger.last
  retired : ∀ key transfer, observed.underway key = some transfer → transfer.id ≠ id
  record : ∃ record, ledger.messages.find? id = some record ∧
    Spells observed.relay.vault.added record.manifest.entries content

/-- One account follows on another: it is sound, archived messages stay archived with their
content, and what was delivered meanwhile is archived with what its writes contributed. -/
structure Advance (Represents : σ → Ledger → Prop) (before : Observed κ (Watched σ))
    (ledger : Ledger) (after : Observed κ (Watched σ)) (later : Ledger) : Prop where
  sound : Sound Represents after later
  archived : ∀ id content, Archived before ledger id content → Archived after later id content
  delivered : ∀ transfer ∈ after.delivered, transfer ∈ before.delivered ∨
    ∃ content, Contributed transfer.passages content ∧ Archived after later transfer.id content

theorem Advance.refl {observed : Observed κ (Watched σ)} {ledger : Ledger}
    (sound : Sound Represents observed ledger) :
    Advance Represents observed ledger observed ledger :=
  ⟨sound, fun _ _ archived => archived, fun _ member => Or.inl member⟩

theorem Advance.trans {first second third : Observed κ (Watched σ)} {ledger later last : Ledger}
    (before : Advance Represents first ledger second later)
    (after : Advance Represents second later third last) :
    Advance Represents first ledger third last where
  sound := after.sound
  archived id content archived := after.archived id content (before.archived id content archived)
  delivered transfer member := by
    rcases after.delivered transfer member with earlier | now
    · rcases before.delivered transfer earlier with first | ⟨content, contributed, archived⟩
      · exact Or.inl first
      · exact Or.inr ⟨content, contributed, after.archived transfer.id content archived⟩
    · exact Or.inr now

/-- What an errand at one stage does: the stage, its open message and the store are replaced,
while the other stages and the records of messages that are not underway stay. -/
structure Turn (Represents : σ → Ledger → Prop) (before : Observed κ (Watched σ))
    (ledger : Ledger) (key : StageKey) (stage : Stage κ) (transfer : Option Transfer)
    (after : Observed κ (Watched σ)) (later : Ledger) : Prop where
  stages : after.relay.stages = before.relay.stages.insert key stage
  underway : after.underway = Function.update before.underway key transfer
  stocked : Stocked Represents after.relay.vault later
  grown : before.relay.vault.added ⊆ after.relay.vault.added
  standing : Standing after.relay.vault.added stage transfer
  last : ledger.last ≤ later.last
  /-- The message at the stage was underway there before, or its number is new. -/
  numbered : ∀ now, transfer = some now →
    (∃ earlier, before.underway key = some earlier ∧ earlier.id = now.id) ∨
      (ledger.last < now.id.value ∧ now.id.value ≤ later.last)
  records : ∀ id : MessageId, id.value ≤ ledger.last →
    (∀ earlier, before.underway key = some earlier → earlier.id ≠ id) →
    later.messages.find? id = ledger.messages.find? id

namespace Turn

variable {before after : Observed κ (Watched σ)} {ledger later : Ledger} {key : StageKey}
  {stage : Stage κ} {transfer : Option Transfer}

/-- A message that is underway after a turn was underway there before, or is the one of the
turn. -/
theorem underway_cases (turn : Turn Represents before ledger key stage transfer after later)
    {other : StageKey} {now : Transfer} (found : after.underway other = some now) :
    (∃ earlier, before.underway other = some earlier ∧ earlier.id = now.id) ∨
      (other = key ∧ ledger.last < now.id.value ∧ now.id.value ≤ later.last) := by
  rw [turn.underway] at found
  by_cases same : other = key
  · subst same
    rw [Function.update_self] at found
    rcases turn.numbered now found with earlier | fresh
    · exact Or.inl earlier
    · exact Or.inr ⟨rfl, fresh⟩
  · rw [Function.update_of_ne same] at found
    exact Or.inl ⟨now, found, rfl⟩

/-- A turn keeps the account sound. -/
theorem sound (turn : Turn Represents before ledger key stage transfer after later)
    (sound : Sound Represents before ledger) : Sound Represents after later where
  stocked := turn.stocked
  standing other found present := by
    rw [turn.stages] at present
    rw [turn.underway]
    rcases Table.find?_insert_cases present with ⟨rfl, rfl⟩ | ⟨different, before⟩
    · rw [Function.update_self]
      exact turn.standing
    · rw [Function.update_of_ne different]
      exact (sound.standing other found before).later turn.grown
  issued other now found := by
    rcases turn.underway_cases found with ⟨earlier, known, same⟩ | ⟨_, _, bound⟩
    · have issued := sound.issued other earlier known
      rw [same] at issued
      exact Nat.le_trans issued turn.last
    · exact bound
  apart first second one other foundFirst foundSecond equal := by
    rcases turn.underway_cases foundFirst with ⟨earlier, known, same⟩ | ⟨here, fresh, _⟩
    · rcases turn.underway_cases foundSecond with
        ⟨another, alsoKnown, alsoSame⟩ | ⟨_, fresh, _⟩
      · exact sound.apart first second earlier another known alsoKnown
          (same.trans (equal.trans alsoSame.symm))
      · have issued := sound.issued first earlier known
        rw [same, equal] at issued
        omega
    · rcases turn.underway_cases foundSecond with ⟨another, known, same⟩ | ⟨alsoHere, _, _⟩
      · have issued := sound.issued second another known
        rw [same, ← equal] at issued
        omega
      · exact here.trans alsoHere.symm

/-- A turn keeps archived messages with their contents. -/
theorem archived (turn : Turn Represents before ledger key stage transfer after later)
    {id : MessageId} {content : Bytes} (archived : Archived before ledger id content) :
    Archived after later id content where
  issued := Nat.le_trans archived.issued turn.last
  retired other now found := by
    rcases turn.underway_cases found with ⟨earlier, known, same⟩ | ⟨_, fresh, _⟩
    · rw [← same]
      exact archived.retired other earlier known
    · intro equal
      have issued := archived.issued
      rw [equal] at fresh
      omega
  record := by
    rcases archived.record with ⟨record, found, spells⟩
    refine ⟨record, ?_, spells.later turn.grown⟩
    rw [turn.records id archived.issued (archived.retired key)]
    exact found

/-- A message that a turn ends is archived with what its record spells. -/
theorem retire (turn : Turn Represents before ledger key stage none after later)
    (sound : Sound Represents before ledger) {ended : Transfer} {content : Bytes}
    (current : before.underway key = some ended)
    (record : ∃ record, later.messages.find? ended.id = some record ∧
      Spells after.relay.vault.added record.manifest.entries content) :
    Archived after later ended.id content where
  issued := Nat.le_trans (sound.issued key ended current) turn.last
  retired other now found same := by
    rcases turn.underway_cases found with ⟨earlier, known, equal⟩ | ⟨_, fresh, _⟩
    · have here := sound.apart other key earlier ended known current (equal.trans same)
      rw [here, turn.underway, Function.update_self] at found
      cases found
    · have issued := sound.issued key ended current
      rw [same] at fresh
      omega
  record := record

theorem advance (turn : Turn Represents before ledger key stage transfer after later)
    (sound : Sound Represents before ledger) (delivered : after.delivered = before.delivered) :
    Advance Represents before ledger after later where
  sound := turn.sound sound
  archived _ _ := turn.archived
  delivered _ member := Or.inl (delivered ▸ member)

end Turn

section Errands

variable {before after : Observed κ (Watched σ)} {ledger : Ledger} {key : StageKey}
  {stage : Stage κ}

/-- Opening starts a message under a new number, or leaves the stage without a message. -/
theorem Sound.openMessage (sound : Sound Represents before ledger)
    (follows : host.Follows Represents) (found : before.relay.stages.find? key = some stage)
    (envelopeKey : EnvelopeKey) (envelope : Envelope)
    (relay : after.relay =
      (before.relay.openMessage host.watch key stage envelopeKey envelope).2)
    (underway : after.underway = Function.update before.underway key
      ((before.relay.openMessage host.watch key stage envelopeKey envelope).1.toOption.map
        Transfer.opened))
    (delivered : after.delivered = before.delivered) :
    ∃ later, Advance Represents before ledger after later := by
  have standing := sound.standing key stage found
  have fresh : stage.splitter.buffer.reset.Hashed := Buffer.hashed_of_empty rfl rfl
  rcases sound.stocked.call follows stage.splitter.store
    (.openMessage envelope.opening) (by simp [Store.Call.kind]) with ⟨added, called⟩
  rcases before.relay.openMessage_eq host.watch key stage envelopeKey envelope with
    ⟨current, envelopes, opened⟩
  rw [opened] at relay underway
  have grown : before.relay.vault.added ⊆ after.relay.vault.added := by
    rw [relay]
    exact added ▸ List.Subset.refl _
  rcases called with ⟨fault, refused, stocked⟩ | ⟨answered, stocked⟩
  · refine ⟨ledger, Turn.advance ⟨congrArg Relay.stages relay, underway, ?_, grown, ?_,
      Nat.le_refl _, ?_, fun _ _ _ => rfl⟩ sound delivered⟩
    · rw [relay]
      exact stocked
    · refine ⟨standing.sink, fresh, ?_, ?_⟩
      · rw [refused]
        rfl
      · rw [refused]
        intro now none
        cases none
    · rw [refused]
      intro now none
      cases none
  · refine ⟨(ledger.openMessage envelope.opening).2, Turn.advance
      ⟨congrArg Relay.stages relay, underway, ?_, grown, ?_, Nat.le_succ _, ?_, ?_⟩ sound
      delivered⟩
    · rw [relay]
      exact stocked
    · refine ⟨standing.sink, fresh, ?_, ?_⟩
      · rw [answered]
        rfl
      · rw [answered]
        intro now opened
        cases opened
        exact ⟨[], contributed_nil, Buffer.holds_reset _ _⟩
    · rw [answered]
      intro now opened
      cases opened
      exact Or.inr ⟨Nat.lt_succ_self _, Nat.le_refl _⟩
    · intro id issued _
      have other : id ≠ ⟨ledger.last + 1⟩ := by
        intro equal
        rw [equal] at issued
        exact Nat.not_succ_le_self _ issued
      simp only [Ledger.openMessage, Table.find?_insert, if_neg other]

/-- A write adds to the open message the share that its answer tells. -/
theorem Sound.write (sound : Sound Represents before ledger)
    (follows : host.Follows Represents) (found : before.relay.stages.find? key = some stage)
    (data : Bytes)
    (relay : after.relay = (before.relay.write host.watch key.index data).2)
    (underway : after.underway = Function.update before.underway key
      ((before.underway key).map fun transfer =>
        transfer.note ⟨before.relay.partsAt key, data,
          (before.relay.write host.watch key.index data).1⟩))
    (delivered : after.delivered = before.delivered) :
    ∃ later, Advance Represents before ledger after later := by
  have standing := sound.standing key stage found
  rcases standing.sink with ⟨sink, next⟩
  rcases before.relay.write_of_sink host.watch found next data with
    ⟨last, taken, share, moves, full, stages⟩
  rcases moves.course.keeps follows standing.hashed sound.stocked with
    ⟨⟨later, kept⟩, hashed, holds⟩
  rw [← relay] at stages kept holds
  refine ⟨later, Turn.advance ⟨stages, underway, kept.stocked, kept.grown, ?_,
    Nat.le_of_eq kept.last.symm, ?_, ?_⟩ sound delivered⟩
  · refine ⟨⟨full, rfl⟩, hashed, ?_, ?_⟩
    · rw [moves.message, standing.message, Option.map_map]
      rfl
    · intro now noted
      rcases Option.map_eq_some_iff.mp noted with ⟨transfer, current, rfl⟩
      rcases standing.content transfer current with ⟨content, contributed, held⟩
      exact ⟨content ++ taken, contributed.push share, holds content held⟩
  · intro now noted
    rcases Option.map_eq_some_iff.mp noted with ⟨transfer, current, rfl⟩
    exact Or.inl ⟨transfer, current, rfl⟩
  · intro id _ _
    rw [kept.messages]

/-- Closing leaves the stage without a message, and no record changes but that of the message
which was underway there. -/
theorem Sound.closing_turn (sound : Sound Represents before ledger)
    (found : before.relay.stages.find? key = some stage) {buffer : Buffer κ} {phase : Phase}
    {vault : Watched σ} {later : Ledger}
    (relay : after.relay = before.relay.put key
      { stage with
        splitter :=
          { stage.splitter with
            buffer := buffer.reset
            session := { Session.idle with phase := phase } }
        envelope := none } vault)
    (underway : after.underway = Function.update before.underway key none)
    (stocked : Stocked Represents vault later)
    (grown : before.relay.vault.added ⊆ vault.added)
    (last : later.last = ledger.last)
    (records : ∀ id, (∀ earlier, before.underway key = some earlier → earlier.id ≠ id) →
      later.messages.find? id = ledger.messages.find? id) :
    Turn Represents before ledger key
      { stage with
        splitter :=
          { stage.splitter with
            buffer := buffer.reset
            session := { Session.idle with phase := phase } }
        envelope := none } none after later where
  stages := congrArg Relay.stages relay
  underway := underway
  stocked := by
    rw [relay]
    exact stocked
  grown := by
    rw [relay]
    exact grown
  standing := by
    refine ⟨(sound.standing key stage found).sink, Buffer.hashed_of_empty rfl rfl, rfl, ?_⟩
    intro now none
    cases none
  last := Nat.le_of_eq last.symm
  numbered now none := by cases none
  records id _ := records id

/-- A close that succeeds leaves a record that spells what the writes have contributed. -/
theorem Sound.closeMessage (sound : Sound Represents before ledger)
    (follows : host.Follows Represents) (found : before.relay.stages.find? key = some stage)
    (relay : after.relay = (before.relay.closeMessage host.watch key stage).2)
    (underway : after.underway = Function.update before.underway key none)
    (delivered : after.delivered = before.delivered ++
      match (before.relay.closeMessage host.watch key stage).1 with
      | .ok _ => (before.underway key).toList
      | .error _ => []) :
    ∃ later, Advance Represents before ledger after later := by
  have standing := sound.standing key stage found
  rcases before.relay.closeMessage_eq host.watch key stage with
    ⟨queueId, buffer, now, phase, course, result, vault, closing, closed⟩
  rcases course.keeps follows standing.hashed sound.stocked with ⟨⟨middle, kept⟩, hashed, holds⟩
  rw [closed] at relay delivered
  have unchanged : ∀ id : MessageId, middle.messages.find? id = ledger.messages.find? id := by
    intro id
    rw [kept.messages]
  cases closing with
  | given fault =>
      rw [Except.mapError, List.append_nil] at delivered
      have turn := sound.closing_turn found relay underway kept.stocked kept.grown kept.last
        fun id _ => unchanged id
      exact ⟨middle, turn.advance sound delivered⟩
  | without pending message =>
      have absent : before.underway key = none :=
        Option.map_eq_none_iff.mp (standing.message.symm.trans message)
      rw [absent, Except.mapError] at delivered
      have turn := sound.closing_turn found relay underway kept.stocked kept.grown kept.last
        fun id _ => unchanged id
      exact ⟨middle, turn.advance sound (delivered.trans (List.append_nil _))⟩
  | called id pending message =>
      rcases Option.map_eq_some_iff.mp (standing.message.symm.trans message) with
        ⟨transfer, current, rfl⟩
      rcases kept.stocked.call follows stage.splitter.store
        (.closeMessage transfer.id stage.splitter.session.written buffer.manifest
          (stage.splitter.session.summary queueId)) (by simp [Store.Call.kind]) with ⟨added, called⟩
      have grown := added ▸ kept.grown
      rcases called with ⟨fault, refused, stocked⟩ | ⟨answered, stocked⟩
      · rw [refused, Except.mapError, List.append_nil] at delivered
        have turn := sound.closing_turn found relay underway stocked grown kept.last
          fun id _ => unchanged id
        exact ⟨middle, turn.advance sound delivered⟩
      · rw [answered] at delivered
        rw [Ledger.call] at delivered stocked
        rcases middle.closeMessage_cases transfer.id stage.splitter.session.written
          buffer.manifest (stage.splitter.session.summary queueId) with
          ⟨fault, refused⟩ | ⟨record, _, known, recorded⟩
        · rw [refused] at delivered stocked
          rw [Except.mapError, List.append_nil] at delivered
          have turn := sound.closing_turn found relay underway stocked grown kept.last
            fun id _ => unchanged id
          exact ⟨middle, turn.advance sound delivered⟩
        · rw [recorded] at delivered stocked
          rw [current, Except.mapError] at delivered
          have turn := sound.closing_turn found relay underway stocked grown kept.last
            fun id others => by
              rw [Table.find?_insert, if_neg fun same => others transfer current same.symm]
              exact unchanged id
          refine ⟨_, turn.sound sound, fun _ _ => turn.archived, fun other member => ?_⟩
          rw [delivered] at member
          rcases List.mem_append.mp member with earlier | here
          · exact Or.inl earlier
          · rw [List.mem_singleton.mp here]
            rcases standing.content transfer current with ⟨content, contributed, held⟩
            have spells := (holds content held).spells pending
            rw [List.append_nil] at spells
            refine Or.inr ⟨content, contributed, turn.retire sound current ?_⟩
            refine ⟨record.close stage.splitter.session.written buffer.manifest
              (stage.splitter.session.summary queueId), ?_, spells.later ?_⟩
            · exact (Table.find?_insert _ _ _ _).trans (if_pos rfl)
            · rw [relay]
              exact added ▸ List.Subset.refl _

theorem Sound.publish (sound : Sound Represents before ledger)
    (envelopes : Table EnvelopeKey Envelope) :
    Advance Represents before ledger
      { before with relay := { before.relay with envelopes := envelopes } } ledger where
  sound := ⟨sound.stocked, sound.standing, sound.issued, sound.apart⟩
  archived _ _ archived := ⟨archived.issued, archived.retired, archived.record⟩
  delivered _ member := Or.inl member

/-- Changing a sink concerns neither buffers nor store. -/
theorem Sound.refit (sound : Sound Represents before ledger)
    (found : before.relay.stages.find? key = some stage) (sink : Sink) :
    Advance Represents before ledger
      { before with
        relay :=
          { before.relay with stages := before.relay.stages.insert key (stage.refit sink) } }
      ledger where
  sound := by
    refine ⟨sound.stocked, ?_, sound.issued, sound.apart⟩
    intro other present here
    rcases Table.find?_insert_cases here with ⟨rfl, rfl⟩ | ⟨_, before⟩
    · have standing := sound.standing other stage found
      rcases standing.sink with ⟨old, next⟩
      have splitter := stage.refit_splitter sink
      refine ⟨⟨sink, by rw [Stage.refit, next]⟩, ?_, ?_, ?_⟩
      · rw [splitter]
        exact standing.hashed
      · rw [splitter]
        exact standing.message
      · rw [splitter]
        exact standing.content
    · exact sound.standing other present before
  archived _ _ archived := ⟨archived.issued, archived.retired, archived.record⟩
  delivered _ member := Or.inl member

/-- Every errand leaves a sound account and keeps what is archived. -/
theorem Sound.perform (sound : Sound Represents before ledger)
    (follows : host.Follows Represents) (errand : Errand) :
    ∃ later, Advance Represents before ledger (before.perform host.watch errand) later := by
  cases errand with
  | openMessage key envelopeKey =>
      simp only [Observed.perform, Relay.perform]
      cases found : before.relay.stages.find? key with
      | none => exact ⟨ledger, .refl sound⟩
      | some stage =>
          cases before.relay.envelopes.find? envelopeKey with
          | none => exact ⟨ledger, .refl sound⟩
          | some envelope =>
              exact sound.openMessage follows found envelopeKey envelope rfl rfl rfl
  | write key data =>
      simp only [Observed.perform, Relay.perform]
      cases found : before.relay.stages.find? key with
      | none => exact ⟨ledger, .refl sound⟩
      | some stage => exact sound.write follows found data rfl rfl rfl
  | closeMessage key =>
      simp only [Observed.perform, Relay.perform]
      cases found : before.relay.stages.find? key with
      | none => exact ⟨ledger, .refl sound⟩
      | some stage => exact sound.closeMessage follows found rfl rfl rfl
  | publish key contents => exact ⟨ledger, sound.publish _⟩
  | refit key sink =>
      simp only [Observed.perform, Relay.perform]
      cases found : before.relay.stages.find? key with
      | none => exact ⟨ledger, .refl sound⟩
      | some stage => exact ⟨ledger, sound.refit found sink⟩

/-- So does every row of errands. -/
theorem Sound.run (sound : Sound Represents before ledger) (follows : host.Follows Represents)
    (errands : List Errand) :
    ∃ later, Advance Represents before ledger (before.run host.watch errands) later := by
  induction errands generalizing before ledger with
  | nil => exact ⟨ledger, .refl sound⟩
  | cons errand errands inductionStep =>
      rcases sound.perform follows errand with ⟨middle, first⟩
      rcases inductionStep first.sound with ⟨later, others⟩
      exact ⟨later, first.trans others⟩

end Errands

/-- The account at the start is sound if the store is empty and the stages are new. -/
theorem sound_start {relay : Relay κ (Watched σ)} {ledger : Ledger}
    (stocked : Stocked Represents relay.vault ledger)
    (unused : relay.Unused) : Sound Represents (Observed.start relay) ledger where
  stocked := stocked
  standing key stage found := by
    rcases unused key stage found with ⟨store, asked, sink, registered, rfl⟩
    exact ⟨⟨sink, rfl⟩, Buffer.hashed_of_empty rfl rfl, rfl, fun now none => by cases none⟩
  issued key transfer none := by cases none
  apart first second one other none := by cases none

theorem Observed.run_append (observed : Observed κ σ) (host : Host κ σ)
    (first second : List Errand) :
    observed.run host (first ++ second) = (observed.run host first).run host second :=
  List.foldl_append

/-- Splitters that share one volatile engine, which fails at planned calls, lose and double no
byte: once the close of a message has succeeded, reading it gives at all times just what its
writes have contributed by their answers, as long as no two of the chunks that were added have
the same digest. -/
theorem readMessage_of_delivered (level : Nat) (plans : Table Store.Call.Kind Store.Plan)
    (relay : Relay κ (Watched (Faulty Volatile)))
    (vault : relay.vault = ⟨⟨Volatile.new level, plans⟩, []⟩) (unused : relay.Unused)
    (before : List Errand) (transfer : Transfer)
    (delivered : transfer ∈
      ((Observed.start relay).run (Host.faulty Volatile.call).watch before).delivered) :
    ∃ content, Contributed transfer.passages content ∧
      ∀ (later : List Errand) (store : κ),
        let after := ((Observed.start relay).run (Host.faulty Volatile.call).watch
          (before ++ later)).relay.vault
        Distinct after.added →
        (readMessage (Host.of Volatile.call) store transfer.id after.store.inner).1 =
          .ok content := by
  have follows := (Host.Answers.faulty Volatile.answers :
    (Host.faulty Volatile.call : Host κ (Faulty Volatile)).Follows _)
  have stocked : Stocked (fun engine ledger => Volatile.Represents engine.inner ledger)
      relay.vault Ledger.empty := by
    rw [vault]
    exact ⟨Volatile.represents_new level, Store.coherent_empty⟩
  rcases (sound_start stocked unused).run follows before with ⟨middle, first⟩
  rcases first.delivered transfer delivered with none | ⟨content, contributed, archived⟩
  · cases none
  · refine ⟨content, contributed, ?_⟩
    intro later store after distinct
    have split : after = (((Observed.start relay).run (Host.faulty Volatile.call).watch
        before).run (Host.faulty Volatile.call).watch later).relay.vault := by
      rw [← Observed.run_append]
    rw [split] at distinct ⊢
    rcases first.sound.run follows later with ⟨last, second⟩
    rcases (second.archived transfer.id content archived).record with ⟨record, found, spells⟩
    exact spells.readMessage Volatile.answers distinct store found
      second.sound.stocked.represents second.sound.stocked.coherent

/-- A relay with one stage that cuts chunks of two bytes, and an engine that refuses the first of
them. -/
def narrow : Relay Unit (Watched (Faulty Volatile)) where
  vault := ⟨⟨Volatile.new 6, Table.empty.insert .addChunk (.failing 0 1 .notInitialized)⟩, []⟩
  envelopes := Table.empty.insert ⟨0⟩ ((Envelope.new "a" "b").setParts [{ node := "1" }])
  stages := Table.empty.insert ⟨0⟩ (.new (.new () 2) (.sink {}) false)

theorem narrow_unused : narrow.Unused := by
  intro key stage found
  rcases Table.find?_insert_cases found with ⟨_, rfl⟩ | ⟨_, none⟩
  · exact ⟨(), 2, {}, false, rfl⟩
  · cases none

/-- A write of three bytes is cut off behind the second one, and a write of one byte follows. -/
theorem readMessage_of_delivered_narrow :
    let visit : List Errand :=
      [.openMessage ⟨0⟩ ⟨0⟩, .write ⟨0⟩ [1, 2, 3], .write ⟨0⟩ [4], .closeMessage ⟨0⟩]
    let after := ((Observed.start narrow).run (Host.faulty Volatile.call).watch visit).relay.vault
    ∃ content,
      Contributed
        [⟨[{ node := "1" }], [1, 2, 3], .error (.storage .notInitialized)⟩,
          ⟨[{ node := "1" }], [4], .ok 1⟩] content ∧
      (readMessage (Host.of Volatile.call) () ⟨1⟩ after.store.inner).1 = .ok content := by
  intro visit after
  rcases readMessage_of_delivered 6 _ narrow rfl narrow_unused
    visit ⟨⟨1⟩, [⟨[{ node := "1" }], [1, 2, 3], .error (.storage .notInitialized)⟩,
      ⟨[{ node := "1" }], [4], .ok 1⟩]⟩ (by decide +kernel) with ⟨content, contributed, read⟩
  exact ⟨content, contributed, read [] () (by decide +kernel)⟩

end Transit
end MailVault
