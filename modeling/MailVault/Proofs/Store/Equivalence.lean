import MailVault.Proofs.Store.Chronicle
import MailVault.Proofs.Store.Written

/-!
# Engines that cannot be told apart

A new engine in memory and a new engine on an empty file keep what they store in quite
different forms.  The ledger stands between them: each answers every row of calls as a
new ledger does, so they answer alike.

What the ledger answers is then said without any table.  Each answer is the one that
the calls before it determine, and the numbers that are given out are the first ones
in their order.  A call that fails leaves no trace: whatever is asked later is
answered as if the call had not been made.
-/

namespace MailVault

namespace MessageId

/-- The first numbers of messages, in their order. -/
def upTo (count : Nat) : List MessageId :=
  (List.range count).map fun before => ⟨before + 1⟩

@[simp] theorem length_upTo (count : Nat) : (upTo count).length = count := by
  rw [upTo, List.length_map, List.length_range]

theorem upTo_succ (count : Nat) : upTo (count + 1) = upTo count ++ [⟨count + 1⟩] := by
  rw [upTo, List.range_succ, List.map_append]
  rfl

theorem next_notMem_upTo (count : Nat) : (⟨count + 1⟩ : MessageId) ∉ upTo count := by
  intro member
  rcases List.mem_map.mp member with ⟨before, below, equal⟩
  have same : before + 1 = count + 1 := congrArg MessageId.value equal
  have less : before < count := List.mem_range.mp below
  omega

theorem nodup_upTo (count : Nat) : (upTo count).Nodup :=
  List.pairwise_map.mpr <| List.nodup_range.imp fun different equal =>
    different (Nat.succ.inj (congrArg MessageId.value equal))

end MessageId

namespace Store

variable {κ σ : Type}

namespace Ledger

theorem call_of_error {ledger : Ledger} {β : Type} {request : Call β} {fault : Fault}
    (failed : (ledger.call request).1 = .error fault) : (ledger.call request).2 = ledger := by
  cases request with
  | openMessage opening => cases failed
  | closeMessage id total manifest summary =>
      simp only [call] at failed ⊢
      rcases ledger.closeMessage_cases id total manifest summary with
        ⟨_, refused⟩ | ⟨record, _, _, closed⟩
      · rw [refused]
      · rw [closed] at failed
        cases failed
  | addChunk digest data =>
      rcases ledger.addChunk_ok digest data with ⟨known, ok⟩
      simp only [call, ok] at failed
      cases failed
  | start => rfl
  | stop => rfl
  | getMessage id => rfl
  | getChunk digest => rfl

/-! ## Ledgers that come from calls alone -/

/-- The ledger recalls the calls, and it has numbered the messages one by one. -/
structure Matches (ledger : Ledger) (chronicle : Chronicle) : Prop where
  recalls : ledger.Recalls chronicle
  issued : chronicle.issued = MessageId.upTo ledger.last

theorem matches_empty : Ledger.empty.Matches [] where
  recalls := recalls_nil
  issued := rfl

namespace Matches

variable {ledger : Ledger} {chronicle : Chronicle}

/-- Every call is answered by what the earlier ones determine. -/
theorem answer (same : ledger.Matches chronicle) {β : Type} (call : Call β) :
    (ledger.call call).1 = chronicle.answerTo call := by
  by_cases opens : call.kind = .openMessage
  · cases call with
    | openMessage opening =>
        simp only [Chronicle.answerTo, same.issued, MessageId.length_upTo]
        rfl
    | _ => cases opens
  · exact same.recalls.answer opens

/-- One more call is noted in the ledger and in the chronicle. -/
theorem push (same : ledger.Matches chronicle) {β : Type} (call : Call β) :
    (ledger.call call).2.Matches (chronicle ++ [⟨call, (ledger.call call).1⟩]) := by
  by_cases opens : call.kind = .openMessage
  · cases call with
    | openMessage opening =>
        have fresh : (⟨ledger.last + 1⟩ : MessageId) ∉ chronicle.issued :=
          same.issued ▸ MessageId.next_notMem_upTo ledger.last
        refine ⟨same.recalls.push_opening fresh opening _, ?_⟩
        rw [Chronicle.issued_push, same.issued]
        exact (MessageId.upTo_succ ledger.last).symm
    | _ => cases opens
  · refine ⟨same.recalls.push opens, ?_⟩
    rw [Chronicle.issued_push, Entry.issued?_of_kind opens, Option.toList_none, List.append_nil,
      ledger.last_of_kind opens, same.issued]

/-- A call that fails on its way to the engine leaves nothing to be recalled. -/
theorem push_error (same : ledger.Matches chronicle) {β : Type} (call : Call β) (fault : Fault) :
    ledger.Matches (chronicle ++ [⟨call, .error fault⟩]) where
  recalls := same.recalls.push_silent (fun _ => by cases call <;> rfl)
    (fun _ => by cases call <;> rfl) fun _ => by cases call <;> rfl
  issued := by
    have none : Entry.issued? ⟨call, .error fault⟩ = none := by cases call <;> rfl
    rw [Chronicle.issued_push, none, Option.toList_none, List.append_nil, same.issued]

end Matches

/-- The ledger is what a chronicle of calls makes of a new one: it matches them, and it has
answered each of them. -/
structure StemsFrom (ledger : Ledger) (chronicle : Chronicle) : Prop extends
    ledger.Matches chronicle where
  exact : chronicle.Exact

theorem stemsFrom_empty : Ledger.empty.StemsFrom [] where
  toMatches := matches_empty
  exact := Chronicle.exact_nil

namespace StemsFrom

variable {ledger : Ledger} {chronicle : Chronicle}

theorem push (stems : ledger.StemsFrom chronicle) {β : Type} (call : Call β) :
    (ledger.call call).2.StemsFrom (chronicle ++ [⟨call, (ledger.call call).1⟩]) where
  toMatches := stems.toMatches.push call
  exact := stems.exact.push (stems.toMatches.answer call)

theorem dialogue (stems : ledger.StemsFrom chronicle) (requests : List Request) :
    (Ledger.host.after () requests ledger).StemsFrom
      (chronicle ++ Ledger.host.dialogue () requests ledger) := by
  induction requests generalizing ledger chronicle with
  | nil =>
      rw [Host.dialogue, List.append_nil]
      exact stems
  | cons request later inductionStep =>
      have rest := inductionStep (stems.push request.call)
      rw [List.append_assoc] at rest
      exact rest

end StemsFrom
end Ledger

/-! ## Calls that fail -/

/-- A call that fails, after whatever other calls, does not show in any later answer. -/
def Host.FailsSilently (host : Host κ σ) (key : κ) (state : σ) : Prop :=
  ∀ (before : List Request) (request : Request) (fault : Fault) (later : List Request),
    (host.call key request.call (host.after key before state)).1 = .error fault →
      host.dialogue key later (host.call key request.call (host.after key before state)).2 =
        host.dialogue key later (host.after key before state)

/-- Engines that answer as a ledger does fail silently, even if a failed call changes the form in
which they keep what they store. -/
theorem Host.AnswersAt.failsSilently {host : Host κ σ} {key : κ}
    {Represents : σ → Ledger → Prop} {state : σ} {ledger : Ledger}
    (answers : host.AnswersAt key Represents) (represents : Represents state ledger) :
    host.FailsSilently key state := by
  intro before request fault later failed
  have now := answers.after represents before
  rcases answers request _ _ now with ⟨same, still⟩
  rw [same] at failed
  rw [Ledger.call_of_error failed] at still
  rw [answers.dialogue still later, answers.dialogue now later]

/-! ## New engines -/

/-- A durable engine that is started on an empty file remembers an empty ledger. -/
theorem Vault.keeps_of_start {vault : Vault} {key : EngineKey} {engine : Durable}
    {file : FileName} (found : vault.engines.find? key = some (.durable engine))
    (located : FilePath.locate vault.disk.contains engine.path = .ok file)
    (free : vault.isHeld file = false)
    (blank : ∀ contents, vault.disk.find? file = some contents → contents = Database.empty) :
    (vault.call key .start).1 = .ok () ∧ Vault.Keeps key (vault.call key .start).2 .empty := by
  have empty : (vault.disk.find? file).getD Database.empty = Database.empty := by
    cases present : vault.disk.find? file with
    | none => rfl
    | some contents => exact blank contents present
  have started : vault.call key .start =
      (.ok (), { vault.put key (.durable { engine with file := some file }) with
        disk := vault.disk.insert file Database.empty }) := by
    simp only [call, found, callDurable, startDurable, located, free, empty]
    rfl
  rw [started]
  exact ⟨rfl, .file { engine with file := some file } file Database.empty
    ((Table.find?_insert _ _ _ _).trans (if_pos rfl))
    (contents?_eq_some.mpr ⟨rfl, (Table.find?_insert _ _ _ _).trans (if_pos rfl)⟩)
    Database.represents_empty⟩

/-- A new engine in memory, of any level, and an engine that was just started on an empty file
answer every row of calls alike, namely as a new ledger does.  Each of these answers is the one
that the calls before it determine, the messages get the first numbers one by one, and a call that
fails changes no later answer of either engine. -/
theorem engines_agree (level : Nat) (vault : Vault) (key : EngineKey) (engine : Durable)
    (file : FileName) (found : vault.engines.find? key = some (.durable engine))
    (located : FilePath.locate vault.disk.contains engine.path = .ok file)
    (free : vault.isHeld file = false)
    (blank : ∀ contents, vault.disk.find? file = some contents → contents = Database.empty)
    (requests : List Request) :
    let memory : Host Unit Volatile := .of Volatile.call
    let started := (vault.call key .start).2
    let told : Chronicle := Ledger.host.dialogue () requests .empty
    (vault.call key .start).1 = .ok () ∧
      memory.dialogue () requests (.new level) = told ∧
      Vault.host.dialogue key requests started = told ∧
      told.Exact ∧
      told.issued = MessageId.upTo told.issued.length ∧
      memory.FailsSilently () (.new level) ∧
      Vault.host.FailsSilently key started := by
  intro memory started told
  have inMemory : memory.AnswersAt () Volatile.Represents := Volatile.answers.at ()
  have isNew := Volatile.represents_new level
  rcases Vault.keeps_of_start found located free blank with ⟨ok, keeps⟩
  have stems : (Ledger.host.after () requests .empty).StemsFrom told :=
    Ledger.stemsFrom_empty.dialogue requests
  refine ⟨ok, inMemory.dialogue isNew requests, (Vault.answersAt key).dialogue keeps requests,
    stems.exact, ?_, inMemory.failsSilently isNew, (Vault.answersAt key).failsSilently keeps⟩
  rw [stems.issued, MessageId.length_upTo]

/-- Two additions of different bytes under one digest, closes that are wrong in one way or in both,
a second close, and questions for what was never stored. -/
theorem engines_agree_awry :
    let memory : Host Unit Volatile := .of Volatile.call
    let key : EngineKey := ⟨0⟩
    let vault := (Vault.empty.add (.durable (.new "./mail.redb"))).2
    let started := (vault.call key .start).2
    let nines : Digest := ⟨List.replicate 32 9, rfl⟩
    let threes : Digest := ⟨List.replicate 32 3, rfl⟩
    let manifest : Manifest := ⟨[⟨nines, 2, "1", none⟩]⟩
    let requests : List Request :=
      [⟨.openMessage {}, rfl⟩, ⟨.addChunk nines [1, 2], rfl⟩, ⟨.addChunk nines [3], rfl⟩,
        ⟨.closeMessage ⟨7⟩ 3 manifest {}, rfl⟩, ⟨.closeMessage ⟨7⟩ 2 manifest {}, rfl⟩,
        ⟨.closeMessage ⟨1⟩ 2 manifest {}, rfl⟩, ⟨.closeMessage ⟨1⟩ 0 .empty {}, rfl⟩,
        ⟨.openMessage {}, rfl⟩, ⟨.getChunk nines, rfl⟩, ⟨.getChunk threes, rfl⟩]
    let told : Chronicle :=
      [⟨.openMessage {}, .ok ⟨1⟩⟩, ⟨.addChunk nines [1, 2], .ok false⟩,
        ⟨.addChunk nines [3], .ok true⟩,
        ⟨.closeMessage ⟨7⟩ 3 manifest {}, .error (.sizeMismatch 3 2)⟩,
        ⟨.closeMessage ⟨7⟩ 2 manifest {}, .error (.unknownMessage ⟨7⟩)⟩,
        ⟨.closeMessage ⟨1⟩ 2 manifest {}, .ok ()⟩, ⟨.closeMessage ⟨1⟩ 0 .empty {}, .ok ()⟩,
        ⟨.openMessage {}, .ok ⟨2⟩⟩, ⟨.getChunk nines, .ok ⟨nines, [1, 2], 2⟩⟩,
        ⟨.getChunk threes, .error (.unknownChunk threes)⟩]
    vault.engines.find? key = some (.durable (.new "./mail.redb")) ∧
      FilePath.locate vault.disk.contains "./mail.redb" = .ok "mail.redb" ∧
      vault.isHeld "mail.redb" = false ∧
      vault.disk.find? "mail.redb" = none ∧
      memory.dialogue () requests (.new 6) = told ∧
      Vault.host.dialogue key requests started = told ∧
      told.Exact ∧ told.issued = [⟨1⟩, ⟨2⟩] ∧
      memory.FailsSilently () (.new 6) ∧ Vault.host.FailsSilently key started := by
  intro memory key vault started nines threes manifest requests told
  have located : FilePath.locate vault.disk.contains "./mail.redb" = .ok "mail.redb" := rfl
  rcases engines_agree 6 vault key (.new "./mail.redb") "mail.redb" rfl located rfl nofun requests
    with ⟨_, inMemory, inFile, exact, _, silent, alsoSilent⟩
  have answers : Ledger.host.dialogue () requests .empty = told := rfl
  rw [answers] at inMemory inFile exact
  exact ⟨rfl, located, rfl, rfl, inMemory, inFile, exact, rfl, silent, alsoSilent⟩

end Store
end MailVault
