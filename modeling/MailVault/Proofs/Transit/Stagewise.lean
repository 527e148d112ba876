import MailVault.Proofs.Store.Outcomes
import MailVault.Proofs.Transit.Traffic

/-!
# What lasts at every stage

An errand may go through many stages, but what it does is put together from few deeds:
a stage takes in bytes, starts a message or ends one, or something changes that no
splitter sees.  Each deed puts back one stage at most.

Therefore a relation between a splitter before and after a call, once it is known of the
three calls, is known of every stage over every row of errands; and so is whatever all
calls of the engines keep.
-/

namespace MailVault
namespace Transit

open Store (Fault Host)

variable {κ σ : Type}

namespace Relay

/-- The smallest changes of a relay that errands are put together from. -/
inductive Deed (host : Host κ σ) (relay : Relay κ σ) : Relay κ σ → Prop where
  | takesIn {after : Relay κ σ} (hop : Hop host relay after) : Deed host relay after
  | starts {key : StageKey} {stage : Stage κ} (found : relay.stages.find? key = some stage)
      (opening : Opening) (current : Option EnvelopeKey) (envelopes : Table EnvelopeKey Envelope) :
      Deed host relay
        { vault := (host.call stage.splitter.store (.openMessage opening) relay.vault).2
          envelopes := envelopes
          stages := relay.stages.insert key
            { stage with
              splitter :=
                { stage.splitter with
                  buffer := stage.splitter.buffer.reset
                  session := .started
                    (host.call stage.splitter.store (.openMessage opening) relay.vault).1 }
              envelope := current } }
  | ends {key : StageKey} {stage : Stage κ} (found : relay.stages.find? key = some stage)
      {queueId : String} {buffer : Buffer κ} {now vault : σ} {result : Except Fault Unit}
      (course : Course host stage.splitter.buffer relay.vault [] buffer now)
      (closing : Splitter.Closing host stage.splitter queueId buffer now result vault)
      (phase : Phase) :
      Deed host relay
        (relay.put key
          { stage with
            splitter :=
              { stage.splitter with
                buffer := buffer.reset
                session := { Session.idle with phase := phase } }
            envelope := none } vault)
  | publishes (envelopes : Table EnvelopeKey Envelope) :
      Deed host relay { relay with envelopes := envelopes }
  | refits {key : StageKey} {stage : Stage κ} (found : relay.stages.find? key = some stage)
      (sink : Sink) :
      Deed host relay { relay with stages := relay.stages.insert key (stage.refit sink) }

/-- Every errand is a row of deeds. -/
theorem perform_deeds (relay : Relay κ σ) (host : Host κ σ) (errand : Errand) :
    Relation.ReflTransGen (Deed host) relay (relay.perform host errand).2 := by
  cases errand with
  | openMessage key envelopeKey =>
      simp only [perform]
      cases found : relay.stages.find? key with
      | none => exact .refl
      | some stage =>
          cases relay.envelopes.find? envelopeKey with
          | none => exact .refl
          | some envelope =>
              rcases relay.openMessage_eq host key stage envelopeKey envelope with
                ⟨current, envelopes, opened⟩
              simp only [opened]
              exact .single (.starts found envelope.opening current envelopes)
  | write key data =>
      simp only [perform]
      cases relay.stages.find? key with
      | none => exact .refl
      | some stage =>
          exact Relation.ReflTransGen.mono (fun _ _ hop => Deed.takesIn hop) _ _
            (relay.write_hops host key.index data)
  | closeMessage key =>
      simp only [perform]
      cases found : relay.stages.find? key with
      | none => exact .refl
      | some stage =>
          rcases relay.closeMessage_eq host key stage with
            ⟨queueId, buffer, now, phase, course, result, vault, closing, closed⟩
          simp only [closed]
          exact .single (.ends found course closing phase)
  | publish key contents => exact .single (.publishes _)
  | refit key sink =>
      simp only [perform]
      cases found : relay.stages.find? key with
      | none => exact .refl
      | some stage => exact .single (.refits found sink)

theorem run_deeds (relay : Relay κ σ) (host : Host κ σ) (errands : List Errand) :
    Relation.ReflTransGen (Deed host) relay (relay.run host errands) := by
  induction errands generalizing relay with
  | nil => exact .refl
  | cons errand later inductionStep =>
      exact (relay.perform_deeds host errand).trans (inductionStep _)

end Relay

/-! ## What the engines keep -/

section Engines

variable {host : Host κ σ} {Holds : σ → Prop}

/-- What every call of the engines keeps is kept when a chunk is handed to the store. -/
theorem Buffer.deposit_preserves (preserves : host.Preserves Holds) (buffer : Buffer κ)
    {state : σ} (holds : Holds state) : Holds (buffer.deposit host state).2 := by
  unfold deposit
  cases buffer.store with
  | none => exact holds
  | some store =>
      have kept := preserves store
        (.addChunk (Digest.ofHasher buffer.hasher) buffer.pending) state holds
      simp only
      rcases called : host.call store
        (.addChunk (Digest.ofHasher buffer.hasher) buffer.pending) state with ⟨result, now⟩
      rw [called] at kept
      cases result with
      | error fault => exact kept
      | ok known => exact kept

/-- What every call of the engines keeps is kept along a course. -/
theorem Course.preserves (preserves : host.Preserves Holds) {buffer later : Buffer κ}
    {state now : σ} {taken : Bytes} (course : Course host buffer state taken later now)
    (holds : Holds state) : Holds now := by
  induction course with
  | stay => exact holds
  | append _ _ _ inductionStep => exact inductionStep
  | @refused _ later _ _ _ _ deposited inductionStep =>
      have kept := later.deposit_preserves preserves inductionStep
      rw [deposited] at kept
      exact kept
  | @stored _ later _ _ _ _ deposited inductionStep =>
      have kept := later.deposit_preserves preserves inductionStep
      rw [deposited] at kept
      exact kept
  | relabelled _ _ inductionStep => exact inductionStep

theorem Relay.Deed.preserves (preserves : host.Preserves Holds) {before after : Relay κ σ}
    (deed : before.Deed host after) (holds : Holds before.vault) : Holds after.vault := by
  cases deed with
  | takesIn hop =>
      cases hop with
      | @intro key stage metadata data result splitter vault next found accepted =>
          rcases stage.splitter.accept_moves host metadata data before.vault with
            ⟨taken, _, moves⟩
          rw [accepted] at moves
          exact moves.course.preserves preserves holds
  | starts found opening current envelopes => exact preserves _ _ _ holds
  | ends found course closing phase =>
      have still := course.preserves preserves holds
      cases closing with
      | given fault => exact still
      | without pending none => exact still
      | called id pending message => exact preserves _ _ _ still
  | publishes envelopes => exact holds
  | refits found sink => exact holds

/-- What every call of the engines keeps is kept over a row of errands. -/
theorem Relay.run_preserves (preserves : host.Preserves Holds) (relay : Relay κ σ)
    (errands : List Errand) (holds : Holds relay.vault) :
    Holds (relay.run host errands).vault := by
  have deeds := relay.run_deeds host errands
  generalize relay.run host errands = last at deeds ⊢
  induction deeds with
  | refl => exact holds
  | tail _ deed inductionStep => exact deed.preserves preserves inductionStep

end Engines

/-! ## What the calls do to a splitter -/

/-- A relation between a splitter before and after, which is known of every call. -/
structure Splitter.Lasting (host : Host κ σ) (Related : Splitter κ → Splitter κ → Prop) :
    Prop where
  refl : ∀ splitter, Related splitter splitter
  trans : ∀ {first second third : Splitter κ}, Related first second → Related second third →
    Related first third
  moved : ∀ {before after : Splitter κ} {state now : σ} {taken : Bytes},
    Moves host taken before state after now → Related before after
  opened : ∀ (splitter : Splitter κ) (answer : Except Fault MessageId),
    Related splitter
      { splitter with buffer := splitter.buffer.reset, session := .started answer }
  closed : ∀ {splitter : Splitter κ} {buffer : Buffer κ} {state now : σ} (phase : Phase),
    Course host splitter.buffer state [] buffer now →
    Related splitter
      { splitter with buffer := buffer.reset, session := { Session.idle with phase := phase } }

namespace Relay

variable {host : Host κ σ} {Related : Splitter κ → Splitter κ → Prop}

/-- Every stage is there before and after, and what became of its splitter is so related. -/
def Lasts (Related : Splitter κ → Splitter κ → Prop) (before after : Relay κ σ) : Prop :=
  ∀ key, Option.Rel (fun stage later => Related stage.splitter later.splitter)
    (before.stages.find? key) (after.stages.find? key)

namespace Lasts

variable {first second third : Relay κ σ}

theorem refl (reflexive : ∀ splitter, Related splitter splitter) (relay : Relay κ σ) :
    relay.Lasts Related relay := by
  intro key
  cases relay.stages.find? key with
  | none => exact .none
  | some stage => exact .some (reflexive stage.splitter)

theorem trans
    (transitive : ∀ {first second third : Splitter κ}, Related first second →
      Related second third → Related first third)
    (before : first.Lasts Related second) (after : second.Lasts Related third) :
    first.Lasts Related third := by
  intro key
  have left := before key
  have right := after key
  generalize first.stages.find? key = one at left ⊢
  generalize second.stages.find? key = two at left right
  generalize third.stages.find? key = three at right ⊢
  cases left with
  | none => exact right
  | some related =>
      cases right with
      | some later => exact .some (transitive related later)

/-- Putting back one stage leaves the others alone. -/
theorem of_insert (reflexive : ∀ splitter, Related splitter splitter) {key : StageKey}
    {stage later : Stage κ} (found : first.stages.find? key = some stage)
    (related : Related stage.splitter later.splitter)
    (stages : second.stages = first.stages.insert key later) : first.Lasts Related second := by
  intro other
  rw [stages, Table.find?_insert]
  by_cases same : other = key
  · rw [if_pos same, same, found]
    exact .some related
  · rw [if_neg same]
    exact refl reflexive first other

theorem find? (lasts : first.Lasts Related second) {key : StageKey} {stage : Stage κ}
    (found : first.stages.find? key = some stage) :
    ∃ later, second.stages.find? key = some later ∧ Related stage.splitter later.splitter := by
  have related := lasts key
  rw [found] at related
  cases last : second.stages.find? key with
  | none =>
      rw [last] at related
      cases related
  | some later =>
      rw [last] at related
      cases related with
      | some related => exact ⟨later, rfl, related⟩

/-- Where a stage comes from. -/
theorem find?_before (lasts : first.Lasts Related second) {key : StageKey} {later : Stage κ}
    (found : second.stages.find? key = some later) :
    ∃ stage, first.stages.find? key = some stage ∧ Related stage.splitter later.splitter := by
  have related := lasts key
  rw [found] at related
  cases start : first.stages.find? key with
  | none =>
      rw [start] at related
      cases related
  | some stage =>
      rw [start] at related
      cases related with
      | some related => exact ⟨stage, rfl, related⟩

end Lasts

theorem Deed.lasts (lasting : Splitter.Lasting host Related) {before after : Relay κ σ}
    (deed : before.Deed host after) : before.Lasts Related after := by
  cases deed with
  | takesIn hop =>
      cases hop with
      | @intro key stage metadata data result splitter vault next found accepted =>
          rcases stage.splitter.accept_moves host metadata data before.vault with
            ⟨taken, _, moves⟩
          rw [accepted] at moves
          exact .of_insert lasting.refl found (lasting.moved moves) rfl
  | starts found opening current envelopes =>
      exact .of_insert lasting.refl found (lasting.opened _ _) rfl
  | ends found course closing phase =>
      exact .of_insert lasting.refl found (lasting.closed phase course) rfl
  | publishes envelopes => exact .refl lasting.refl before
  | @refits key stage found sink =>
      refine .of_insert lasting.refl found ?_ rfl
      rw [stage.refit_splitter]
      exact lasting.refl stage.splitter

/-- A relation that lasts over the calls of a splitter lasts at every stage over a row of
errands. -/
theorem run_lasts (lasting : Splitter.Lasting host Related) (relay : Relay κ σ)
    (errands : List Errand) : relay.Lasts Related (relay.run host errands) := by
  have deeds := relay.run_deeds host errands
  generalize relay.run host errands = last at deeds ⊢
  induction deeds with
  | refl => exact .refl lasting.refl relay
  | tail _ deed inductionStep => exact inductionStep.trans lasting.trans (deed.lasts lasting)

end Relay
end Transit
end MailVault
