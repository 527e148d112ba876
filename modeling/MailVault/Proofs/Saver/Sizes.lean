import MailVault.Proofs.Saver.Backend
import MailVault.Proofs.Transit.Renewal

/-!
# The configured size is the limit of every chunk

The number under a key of the backend object goes a long way before a chunk is cut: it
is read as an integer with a sign, made into settings, handed to a splitter directly or
through a buffer that was made elsewhere, and becomes the cap of a buffer.  The cap is
then compared with the bytes that are pending, over any number of messages.

What matters of a buffer is that no chunk in its manifest is empty or larger than the
cap, and that no more bytes are pending than fit under it.  A buffer that was made
elsewhere need not satisfy this, since its cap may be lowered below what is pending.  It
is emptied when a message is opened, and from then on every move keeps it so: a full
buffer whose chunk was refused has no room, and is flushed before it takes more.
-/

namespace MailVault
namespace Transit

open Store (Host Numbered Vault)

variable {κ σ : Type}

/-- No chunk of the buffer is empty or over the cap, and what is pending fits under it. -/
structure Buffer.Within (buffer : Buffer κ) : Prop where
  chunks : ∀ descriptor ∈ buffer.manifest.entries,
    1 ≤ descriptor.size ∧ descriptor.size ≤ buffer.cap
  pending : buffer.pending.length ≤ buffer.cap

theorem Buffer.within_reset (buffer : Buffer κ) : buffer.reset.Within where
  chunks := by
    intro descriptor member
    cases member
  pending := Nat.zero_le _

theorem Buffer.Within.flushed {buffer : Buffer κ} (within : buffer.Within)
    (some : buffer.pending ≠ []) : buffer.flushed.Within where
  chunks := by
    intro descriptor member
    rcases List.mem_append.mp member with before | last
    · exact within.chunks descriptor before
    · cases List.mem_singleton.mp last
      exact ⟨List.length_pos_iff.mpr some, within.pending⟩
  pending := Nat.zero_le _

/-- Every move of a course keeps chunks and pending bytes under the cap. -/
theorem Course.within {host : Host κ σ} {buffer later : Buffer κ} {state now : σ}
    {taken : Bytes} (course : Course host buffer state taken later now)
    (within : buffer.Within) : later.Within := by
  induction course with
  | stay => exact within
  | @append _ later _ data _ fits inductionStep =>
      refine ⟨inductionStep.chunks, ?_⟩
      have pending := inductionStep.pending
      have length : (later.append data).pending.length = later.pending.length + data.length :=
        List.length_append
      have room : data.length ≤ later.cap - later.pending.length := fits
      change (later.append data).pending.length ≤ later.cap
      omega
  | refused _ _ inductionStep => exact inductionStep
  | stored _ some _ inductionStep => exact inductionStep.flushed some
  | relabelled _ _ inductionStep => exact ⟨inductionStep.chunks, inductionStep.pending⟩

/-- While a message is open, chunks and pending bytes are under the cap. -/
def Splitter.Sized (splitter : Splitter κ) : Prop :=
  splitter.session.message ≠ none → splitter.buffer.Within

theorem Splitter.sized_lasting (host : Host κ σ) :
    Lasting host fun before after : Splitter κ => before.Sized → after.Sized where
  refl _ := id
  trans before after := after ∘ before
  moved moves sized := by
    intro message
    rw [moves.message] at message
    exact moves.course.within (sized message)
  opened splitter _ _ _ := splitter.buffer.within_reset
  closed _ _ _ message := absurd rfl message

/-- A stage was built with a splitter that has no message.  Then every message that is closed at it
is recorded with chunks that are not empty and not larger than the cap of the splitter, whatever
was written, whichever calls of the engines failed, and whatever the buffer held before. -/
theorem Relay.sizes_of_closed {faults : Nat → Option Store.Fault}
    {relay : Relay Store.EngineKey (Numbered Vault)} {key : StageKey}
    {stage closing : Stage Store.EngineKey} {engine : Store.EngineKey} {cap : Nat}
    (found : relay.stages.find? key = some stage)
    (furnished : stage.splitter.Furnished engine cap)
    (idle : stage.splitter.session.message = none) (errands : List Errand)
    (last : (relay.run (Vault.host.interrupted faults) errands).stages.find? key = some closing)
    {id : MessageId} (message : closing.splitter.session.message = some id)
    (closed : ((relay.run (Vault.host.interrupted faults) errands).perform
      (Vault.host.interrupted faults) (.closeMessage key)).1 = .closed (.ok ())) :
    ∃ record,
      ((relay.run (Vault.host.interrupted faults) errands).perform
        (Vault.host.interrupted faults) (.closeMessage key)).2.vault.inner.record? engine id =
          some record ∧
      record.closed = true ∧
      ∀ descriptor ∈ record.manifest.entries, 1 ≤ descriptor.size ∧ descriptor.size ≤ cap := by
  have lasts := relay.run_lasts
    (Splitter.sized_lasting (Vault.host.interrupted faults)) errands
  have keeps := relay.run_lasts
    (Splitter.furnished_lasting (Vault.host.interrupted faults) engine cap) errands
  rcases lasts.find? found with ⟨later, sameStage, sized⟩
  rcases keeps.find? found with ⟨other, otherStage, built⟩
  rw [last] at sameStage otherStage
  cases sameStage
  cases otherStage
  have within := sized (fun some => absurd idle some) (by rw [message]; exact nofun)
  rcases Relay.exists_record_of_closeMessage last message closed with
    ⟨record, buffer, now, kept, course, done, manifest, _⟩
  rw [(built furnished).store] at kept
  refine ⟨record, kept, done, fun descriptor member => ?_⟩
  have most : buffer.cap = cap := course.fixed.1.trans (built furnished).cap
  rw [manifest] at member
  rw [← most]
  exact (course.within within).chunks descriptor member

end Transit

namespace Saver

open Store (EngineKey Numbered Vault)
open Transit (Buffer Relay Splitter Stage StageKey Errand)

/-- A splitter that a saver has made, with an empty buffer or with a given one. -/
def Makes (saver : Saver) (splitter : Splitter EngineKey) : Prop :=
  saver.decorate = .ok splitter ∨
    ∃ buffer : Buffer EngineKey, saver.decorateBuffer buffer = .ok splitter

theorem capOf_of_pos {asked : Nat} (positive : 0 < asked) : Transit.capOf asked = asked :=
  if_neg (Nat.pos_iff_ne_zero.mp positive)

/-- Whatever the buffer is, its cap becomes that of the settings. -/
theorem Makes.furnished {settings : Settings} {engine : EngineKey}
    {splitter : Splitter EngineKey}
    (makes : Makes ⟨some settings, some engine⟩ splitter) (positive : 0 < settings.chunkSize) :
    splitter.Furnished engine settings.chunkSize ∧ splitter.session.message = none := by
  have cap := capOf_of_pos positive
  rcases makes with made | ⟨buffer, made⟩
  · cases made
    exact ⟨⟨rfl, cap, rfl⟩, rfl⟩
  · cases made
    exact ⟨⟨rfl, cap, rfl⟩, rfl⟩

end Saver

open Json (Fields Value)
open Transit (Buffer Errand Relay Splitter StageKey)

theorem Settings.sizeLimit_pos (backend : Fields) : 0 < Settings.sizeLimit backend := by
  unfold Settings.sizeLimit
  split
  · omega
  · decide

/-- Of a backend object four keys count.  There are settings just when each of them takes its value
and the compression level is between zero and nine.  Otherwise the first key, by name, that does
not take its value is reported, and the level only if there is no such key.

When a saver without overrides starts with the object, it makes splitters of both kinds, and
whatever goes through them, every message that is closed is recorded with chunks of at least one
byte and at most as many as were asked for. -/
theorem configured_sizes (backend : Fields) :
    (∀ other, (∀ key : Settings.Key, other.lookup key.name = backend.lookup key.name) →
      Settings.ofBackend other = Settings.ofBackend backend) ∧
    ((∃ settings, Settings.ofBackend backend = .ok settings) ↔
      (∀ key : Settings.Key, key.Admits backend) ∧ Settings.Key.levelIsRight backend) ∧
    (∀ (key : Settings.Key) (value : Value), backend.lookup key.name = some value →
      ¬ key.Takes value →
      (∀ earlier : Settings.Key, earlier.name < key.name → earlier.Admits backend) →
      Settings.ofBackend backend = .error (.mismatch (key.refusal value))) ∧
    (∀ asked, (∀ key : Settings.Key, key.Admits backend) →
      backend.lookup Settings.Key.level.name = some (.int asked) →
      ¬ (0 ≤ asked ∧ asked ≤ 9) → Settings.ofBackend backend = .error (.level asked)) ∧
    ∀ (vault later : Store.Vault) (saver : Saver),
      Saver.bare.start backend vault = (.ok (), saver, later) →
      ∃ engine, saver.store = some engine ∧
      (∃ splitter, saver.decorate = .ok splitter) ∧
      (∀ buffer, ∃ splitter, saver.decorateBuffer buffer = .ok splitter) ∧
      ∀ splitter, saver.Makes splitter →
        ∀ (faults : Nat → Option Store.Fault)
          (relay : Relay Store.EngineKey (Store.Numbered Store.Vault)) (key : StageKey)
          (next : Transit.Next) (registered : Bool) (errands : List Errand),
          relay.stages.find? key = some (.new splitter next registered) →
          let host := Store.Vault.host.interrupted faults
          let after := relay.run host errands
          ∀ closing id, after.stages.find? key = some closing →
            closing.splitter.session.message = some id →
            (after.perform host (.closeMessage key)).1 = .closed (.ok ()) →
            ∃ record,
              (after.perform host (.closeMessage key)).2.vault.inner.record? engine id =
                some record ∧
              record.closed = true ∧
              ∀ descriptor ∈ record.manifest.entries,
                1 ≤ descriptor.size ∧ descriptor.size ≤ Settings.sizeLimit backend := by
  refine ⟨fun other same => ?_, Settings.ofBackend_ok_iff,
    fun _ _ found refused first => Settings.ofBackend_of_refused found refused first,
    fun _ admits found wrong => Settings.ofBackend_of_level admits found wrong, ?_⟩
  · rw [Settings.ofBackend, Settings.ofBackend, Settings.Raw.ofFields_congr same]
  · intro vault later saver started
    rcases Saver.start_bare started with ⟨settings, engine, read, rfl⟩
    have limit := Settings.chunkSize_of_ofBackend read
    refine ⟨engine, rfl, ⟨_, rfl⟩, fun buffer => ⟨_, rfl⟩, ?_⟩
    intro splitter makes faults relay key next registered errands found host after closing id last
      message closed
    have positive : 0 < settings.chunkSize := by
      rw [limit]
      exact Settings.sizeLimit_pos backend
    rcases makes.furnished positive with ⟨furnished, idle⟩
    rw [← limit]
    exact Relay.sizes_of_closed found furnished idle errands last message closed

/-- A backend object that asks for chunks of three bytes in memory, and says something to other
stages. -/
def modest : Fields :=
  [("chunksaver_chunk_size", .int 3), ("chunksaver_storage_engine", .text "memory"),
    ("greeting", .null)]

/-- A backend object in which two keys have values that they do not take, and the level is out of
range. -/
def careless : Fields :=
  [("chunksaver_storage_engine", .bool true), ("chunksaver_compress_level", .int 12),
    ("chunksaver_chunk_size", .text "3")]

/-- The saver that starts with the modest object in an empty vault. -/
def modestStart : Except SaverFault Unit × Saver × Store.Vault :=
  Saver.bare.start modest Store.Vault.empty

/-- A buffer of six pending bytes under a cap of a hundred. -/
def swollen : Buffer Store.EngineKey :=
  (Buffer.new.capTo 100).append [9, 9, 9, 9, 9, 9]

/-- One stage with the splitter that the saver makes of the buffer. -/
def modestLine : Relay Store.EngineKey (Store.Numbered Store.Vault) where
  vault := ⟨0, modestStart.2.2⟩
  envelopes := Table.empty.insert ⟨0⟩ ((Envelope.new "a" "b").setParts [{ node := "1" }])
  stages := Table.empty.insert ⟨0⟩
    (.new (.withBuffer ⟨0⟩ (swollen.capTo 3)) (.sink {}) false)

/-- The second chunk is refused when it is full, and stored when the next byte comes. -/
theorem configured_sizes_modest :
    let host := Store.Vault.host.interrupted fun number =>
      if number = 2 then some .notInitialized else none
    let after := modestLine.run host
      [.openMessage ⟨0⟩ ⟨0⟩, .write ⟨0⟩ [1, 2, 3, 4, 5, 6, 7], .write ⟨0⟩ [8]]
    Settings.ofBackend careless = .error (.mismatch (.kind (.text "3") .signed)) ∧
      ∃ record,
        (after.perform host (.closeMessage ⟨0⟩)).2.vault.inner.record? ⟨0⟩ ⟨1⟩ = some record ∧
        record.manifest.entries.map Descriptor.size = [3, 3, 1] ∧
        ∀ descriptor ∈ record.manifest.entries, 1 ≤ descriptor.size ∧ descriptor.size ≤ 3 := by
  intro host after
  constructor
  · apply (configured_sizes careless).2.2.1 .chunkSize (.text "3") rfl not_false
    intro earlier before
    cases earlier <;> exact absurd before (by decide)
  · rcases (configured_sizes modest).2.2.2.2 Store.Vault.empty modestStart.2.2 modestStart.2.1 rfl with
      ⟨engine, named, _, _, sizes⟩
    cases named
    have closed : (after.perform host (.closeMessage ⟨0⟩)).1 = .closed (.ok ()) := by
      decide +kernel
    have message : (after.stages.find? ⟨0⟩).bind (fun stage => stage.splitter.session.message) =
        some ⟨1⟩ := by
      decide +kernel
    rcases Option.bind_eq_some_iff.mp message with ⟨closing, last, open_⟩
    rcases sizes _ (.inr ⟨swollen, rfl⟩) _ modestLine ⟨0⟩ (.sink {}) false _ rfl closing ⟨1⟩ last open_
      closed with ⟨record, kept, _, bounds⟩
    refine ⟨record, kept, ?_, bounds⟩
    have three : ((after.perform host (.closeMessage ⟨0⟩)).2.vault.inner.record? ⟨0⟩ ⟨1⟩).map
        (fun record => record.manifest.entries.map Descriptor.size) = some [3, 3, 1] := by
      decide +kernel
    have same := congrArg
      (Option.map fun record => record.manifest.entries.map Descriptor.size) kept
    exact Option.some.inj (same.symm.trans three)

end MailVault
