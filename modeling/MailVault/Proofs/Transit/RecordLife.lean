import MailVault.Proofs.Transit.Company

/-!
# The life of a record

A record is made when a splitter opens a message, and it stays as it was made until that
splitter closes this message.  Nothing in between touches it: neither writes that fail nor
a flush or a close that fails, nor another opening at the same splitter, after which the
message can be closed no more.

What happens at a splitter and what happens in the engine are told by the same calls, so
a record is closed just if its splitter was told so.  All this takes that nobody but the
splitters closes messages.
-/

namespace MailVault
namespace Transit

open Store (Chronicle Host Note Request shareOf told)

variable {ι τ : Type} [Fintype ι] [DecidableEq ι]

/-- Every message that a splitter has opened has a record.  The record is closed if and only if that
splitter has closed the message, as the one that was open; this happens once at most, and until then
the record is as it was opened.  After every close and after an opening that fails a splitter has no
message and counts no bytes, and it turns every write away until a message is opened again. -/
theorem records_live_by_sessions (company : Company ι τ) (reserved : company.Reserved) :
    (∀ maker, ∀ id ∈ company.opened maker, ∃ kept, company.record id = .ok kept) ∧
    (∀ id kept, company.record id = .ok kept →
      (kept.closed = true ↔ ∃ maker, id ∈ company.opened maker ∧ id ∈ company.closed maker) ∧
      (kept.closed = false → ∃ opening, kept = .opened id opening ∧
        ∀ maker, ∀ episode ∈ company.episodes maker, episode.opened? = some id →
          episode.task = .openMessage opening)) ∧
    (∀ id, ∑ maker, (company.closed maker).count id ≤ 1) ∧
    ∀ {κ σ υ : Type} (host : Host κ σ) (outlet : Outlet σ υ) (leg : Leg κ σ υ) (task : Task)
      (later : List Task),
      let reply := (leg.perform host outlet task).1
      let ended := (leg.perform host outlet task).2
      ((∃ answer, reply = .closed answer) ∨ ∃ fault, reply = .opened (.error fault)) →
      ended.IsIdle ∧
        ((∀ episode ∈ ended.episodes host outlet later, episode.opened? = none) →
          ∀ episode ∈ ended.episodes host outlet later,
            episode.before.IsIdle ∧ episode.after.IsIdle ∧
            ∀ metadata data, episode.task = .write metadata data →
              episode.reply = .written (.error .missingContext)) := by
  refine ⟨?_, ?_, company.closed_once, ?_⟩
  · intro maker id listed
    rcases List.mem_filterMap.mp listed with ⟨episode, member, opened⟩
    rcases Leg.task_of_opened? member opened with ⟨opening, task⟩
    have said := company.findSome?_opening member opened task
    have recorded : (told company.minutes).record? id =
        some (Chronicle.conclude (.opened id opening) ((told company.minutes).endings id)) := by
      rw [Chronicle.record?, said, Option.map_some]
    exact ⟨_, (company.record_ok_iff id _).mpr recorded⟩
  · intro id kept found
    have ended := reserved.endings_ne_nil_iff id
    rcases Chronicle.record?_cases ((company.record_ok_iff id kept).mp found) with
      ⟨opening, said, ⟨none, rfl⟩ | ⟨ending, listed, rfl⟩⟩
    · have unended : ¬ ∃ maker, id ∈ company.opened maker ∧ id ∈ company.closed maker :=
        fun closed => absurd none (ended.mpr closed)
      refine ⟨iff_of_false Bool.false_ne_true unended, fun _ => ⟨opening, rfl, ?_⟩⟩
      intro maker episode member opened
      rcases Leg.task_of_opened? member opened with ⟨other, task⟩
      rw [company.findSome?_opening member opened task] at said
      rw [task, Option.some.inj said]
    · refine ⟨iff_of_true rfl (ended.mp (List.ne_nil_of_mem listed)), fun unclosed => ?_⟩
      cases unclosed
  · intro κ σ υ host outlet leg task later reply ended told
    have idle : ended.IsIdle := leg.isIdle_of_reply host outlet told
    refine ⟨idle, fun unopened episode member => ?_⟩
    rcases idle.episodes host outlet unopened episode member with ⟨before, after⟩
    refine ⟨before, after, fun metadata data task => ?_⟩
    have made := ended.eq_episode_of_mem host outlet member
    rw [task] at made
    rw [made]
    exact congrArg Reply.written
      (congrArg Prod.fst (before.write host outlet metadata data))

/-- The splitters of `pair` before a stage that takes everything. -/
def duoAgents (maker : Fin 2) : Agent Unit where
  buffer := Buffer.new.capTo 2
  answer data _ := (.ok data.length, ())
  ahead := ()
  tasks := (pair maker).tasks

/-- Their calls, after which a caller without a name opens one message more. -/
def duoTurns : List (Option (Fin 2) × Request) :=
  crossing.map (fun turn => (some turn.1, turn.2)) ++
    [(none, ⟨.openMessage { tls := true }, rfl⟩)]

theorem duo_takesPart (maker : Fin 2) : (duoAgents maker).TakesPart
    (shareOf (some maker) (Company.minutesInMemory [7] duoTurns)) := by
  match maker with
  | 0 => exact ⟨[], List.forall_mem_nil _, by decide +kernel⟩
  | 1 =>
      refine ⟨[.addChunk (.of [1, 2]) [1, 2] (.error .notInitialized)], ?_, by decide +kernel⟩
      intro note member
      rw [List.mem_singleton.mp member]
      rfl

/-- The two splitters and that caller over one engine, which fails once. -/
def duo : Company (Fin 2) Unit :=
  .inMemory duoAgents [7] duoTurns duo_takesPart

theorem duo_reserved : duo.Reserved := by
  intro request member
  rcases List.mem_append.mp member with named | unnamed
  · rcases List.mem_map.mp named with ⟨turn, _, same⟩
    cases same
  · cases List.mem_singleton.mp unnamed
    rintro ⟨⟩

/-- The first splitter has closed its message.  The second one has given up its first message for
another one, which it could not close. -/
theorem records_live_by_sessions_duo :
    duo.opened 0 = [⟨1⟩] ∧ duo.closed 0 = [⟨1⟩] ∧ duo.opened 1 = [⟨2⟩, ⟨3⟩, ⟨4⟩] ∧
      duo.closed 1 = [] ∧
      (∃ kept, duo.record ⟨1⟩ = .ok kept ∧ kept.closed = true) ∧
      (∀ id ∈ duo.opened 1, ∃ opening, duo.record id = .ok (.opened id opening)) ∧
      ∀ fault, ∀ episode ∈ (Leg.perform ⟨.new () 2, [.openMessage {} (.error fault)], ()⟩
          .scripted (.own fun data _ => (.ok data.length, ())) (.openMessage {})).2.episodes
            Host.scripted (.own fun data _ => (.ok data.length, ())) [.write onePart [1]],
        episode.reply = .written (.error .missingContext) := by
  rcases records_live_by_sessions duo duo_reserved with ⟨made, follows, _, idle⟩
  have opened : duo.opened 0 = [⟨1⟩] := by decide +kernel
  have closed : duo.closed 0 = [⟨1⟩] := by decide +kernel
  have others : duo.opened 1 = [⟨2⟩, ⟨3⟩, ⟨4⟩] := by decide +kernel
  have unclosed : duo.closed 1 = [] := by decide +kernel
  refine ⟨opened, closed, others, unclosed, ?_, ?_, ?_⟩
  · rcases made 0 ⟨1⟩ (opened ▸ List.mem_cons_self) with ⟨kept, found⟩
    have both : ∃ maker, ⟨1⟩ ∈ duo.opened maker ∧ ⟨1⟩ ∈ duo.closed maker :=
      ⟨0, opened ▸ List.mem_cons_self, closed ▸ List.mem_cons_self⟩
    exact ⟨kept, found, (follows ⟨1⟩ kept found).1.mpr both⟩
  · intro id listed
    rcases made 1 id listed with ⟨kept, found⟩
    have still : kept.closed = false := by
      rw [← Bool.not_eq_true, (follows id kept found).1]
      rintro ⟨maker, _, ended⟩
      match maker with
      | 0 =>
          rw [closed, List.mem_singleton] at ended
          rw [others, ended] at listed
          revert listed
          decide
      | 1 =>
          rw [unclosed] at ended
          cases ended
    rcases (follows id kept found).2 still with ⟨opening, rfl, _⟩
    exact ⟨opening, found⟩
  · intro fault episode member
    have after := idle (.scripted : Host Unit (List Note)) (.own fun data _ => (.ok data.length, ()))
      ⟨.new () 2, [.openMessage {} (.error fault)], ()⟩ (.openMessage {})
      [.write onePart [1]] (Or.inr ⟨_, rfl⟩)
    refine (after.2 ?_ episode member).2.2 onePart [1] ?_
    · intro other listed
      rw [List.mem_singleton.mp listed]
      rfl
    · rw [List.mem_singleton.mp member]
      rfl

end Transit
end MailVault
