import MailVault.Proofs.Store.Equivalence
import Mathlib.Logic.Function.Basic

/-!
# Files through many openings

Durable engines come and go, several may name one file, and each can be started and
stopped at any point.  An observer writes down, for each file, the calls that have
succeeded on it, through whichever engine.  The file itself is all that is left
between two openings, so what it holds has to be what a ledger makes of these calls.

Two things carry this through every row of deeds.  An engine that is open holds its
file alone, so no call reaches the file by another way; and a call that fails leaves
the ledger of the file as it was.
-/

namespace MailVault
namespace Store

structure Success where
  request : Request
  answer : request.Answer

def Success.entry (success : Success) : Entry :=
  ⟨success.request.call, .ok success.answer⟩

/-- A vault, and the calls that have succeeded on each file, in their order. -/
structure Archive where
  vault : Vault
  history : FileName → List Success

/-- What can be done with the engines of a vault. -/
inductive Deed where
  /-- Make an engine on a path; it is not started. -/
  | make (path : String)
  | start (key : EngineKey)
  | stop (key : EngineKey)
  | ask (key : EngineKey) (request : Request)

/-- Why a call is refused before it is looked at who is to answer it. -/
def Call.mistake? {β : Type} : Call β → Option Fault
  | .closeMessage _ total manifest _ =>
    if total = manifest.totalSize then none
    else some (.sizeMismatch total manifest.totalSize)
  | _ => none

def Vault.durable? (vault : Vault) (key : EngineKey) : Option Durable :=
  match vault.engines.find? key with
  | some (.durable engine) => some engine
  | _ => none

/-- The file that the engine of a name holds. -/
def Vault.fileOf? (vault : Vault) (key : EngineKey) : Option FileName :=
  (vault.engines.find? key).bind Engine.heldFile?

namespace Archive

def empty : Archive where
  vault := .empty
  history _ := []

/-- The calls on a file after one more was answered by the engine of a name: it counts if the
engine holds a file and the answer is no fault. -/
def noted (archive : Archive) (key : EngineKey) (request : Request) :
    FileName → List Success :=
  match archive.vault.fileOf? key, (archive.vault.call key request.call).1 with
  | some file, .ok answer =>
    Function.update archive.history file (archive.history file ++ [⟨request, answer⟩])
  | _, _ => archive.history

def perform (archive : Archive) : Deed → Archive
  | .make path => { archive with vault := (archive.vault.add (.durable (.new path))).2 }
  | .start key => { archive with vault := (archive.vault.call key .start).2 }
  | .stop key => { archive with vault := (archive.vault.call key .stop).2 }
  | .ask key request =>
    { vault := (archive.vault.call key request.call).2, history := archive.noted key request }

def run (archive : Archive) (deeds : List Deed) : Archive :=
  deeds.foldl perform archive

/-- The calls that have succeeded on a file. -/
def asked (archive : Archive) (file : FileName) : List Request :=
  (archive.history file).map Success.request

/-- What these calls were answered. -/
def told (archive : Archive) (file : FileName) : Chronicle :=
  (archive.history file).map Success.entry

end Archive

/-! ## Ledgers of successes -/

/-- A ledger is what the succeeded calls make of a new one, which also answers them in this way. -/
structure Ledger.Recounts (ledger : Ledger) (history : List Success) : Prop where
  after : ledger = Ledger.host.after () (history.map Success.request) .empty
  told : history.map Success.entry =
    Ledger.host.dialogue () (history.map Success.request) .empty

namespace Ledger.Recounts

variable {ledger : Ledger} {history : List Success}

theorem nil : Ledger.empty.Recounts [] :=
  ⟨rfl, rfl⟩

theorem push (recounts : ledger.Recounts history) {request : Request} {answer : request.Answer}
    (ok : (ledger.call request.call).1 = .ok answer) :
    (ledger.call request.call).2.Recounts (history ++ [⟨request, answer⟩]) where
  after := by
    rw [List.map_append, Host.after_append, ← recounts.after]
    rfl
  told := by
    have answered : (Ledger.host.call () request.call ledger).1 = .ok answer := ok
    rw [List.map_append, List.map_append, Host.dialogue_append, ← recounts.after,
      ← recounts.told]
    simp only [List.map_cons, List.map_nil, Host.dialogue, answered, Success.entry]

theorem stemsFrom (recounts : ledger.Recounts history) :
    ledger.StemsFrom (history.map Success.entry) := by
  rw [recounts.told, recounts.after]
  exact stemsFrom_empty.dialogue _

end Ledger.Recounts

/-! ## What a deed preserves -/

namespace Vault

theorem fileOf?_put (vault : Vault) (key other : EngineKey) (engine : Engine) :
    (vault.put key engine).fileOf? other =
      if other = key then engine.heldFile? else vault.fileOf? other := by
  rw [fileOf?, put, Table.find?_insert]
  by_cases same : other = key
  · rw [if_pos same, if_pos same, Option.bind_some]
  · rw [if_neg same, if_neg same, fileOf?]

theorem find?_of_durable? {vault : Vault} {key : EngineKey} {engine : Durable}
    (named : vault.durable? key = some engine) :
    vault.engines.find? key = some (.durable engine) := by
  unfold durable? at named
  split at named
  · cases named
    assumption
  · cases named

theorem fileOf?_of_durable {vault : Vault} {key : EngineKey} {engine : Durable}
    (found : vault.engines.find? key = some (.durable engine)) :
    vault.fileOf? key = engine.file := by
  rw [fileOf?, found, Option.bind_some, Engine.heldFile?]

theorem refuse_eq {β : Type} (call : Call β) :
    refuse call = .error (call.mistake?.getD .notInitialized) := by
  cases call with
  | closeMessage id total manifest summary =>
      simp only [refuse, checkTotal, Call.mistake?]
      by_cases right : total = manifest.totalSize
      · rw [if_pos right, if_pos right]
        rfl
      · rw [if_neg right, if_neg right]
        rfl
  | _ => rfl

theorem isHeld_of_fileOf? {vault : Vault} {key : EngineKey} {file : FileName}
    (holds : vault.fileOf? key = some file) : vault.isHeld file = true := by
  rcases Option.bind_eq_some_iff.mp holds with ⟨engine, found, held⟩
  exact List.any_eq_true.mpr ⟨_, Table.mem_of_find? found, decide_eq_true held⟩

theorem call_of_closed {vault : Vault} {key : EngineKey} {engine : Durable}
    (found : vault.engines.find? key = some (.durable engine)) (closed : engine.file = none)
    (request : Request) :
    vault.call key request.call =
      (.error (request.call.mistake?.getD .notInitialized), vault) := by
  rcases Call.kind_ne_of_isStorage request.isStorage with ⟨started, stopped⟩
  have none : vault.contents? engine = none := by
    rw [contents?, closed]
    rfl
  simp only [call, found, callDurable_of_none none key started stopped,
    refuse_eq]

theorem start_of_held {vault : Vault} {key other : EngineKey} {engine : Durable}
    {file : FileName} (found : vault.engines.find? key = some (.durable engine))
    (located : FilePath.locate vault.disk.contains engine.path = .ok file)
    (holds : vault.fileOf? other = some file) :
    vault.call key .start = (.error (.database .alreadyOpen), vault) := by
  simp only [call, found, callDurable, startDurable, located,
    isHeld_of_fileOf? holds, if_pos]

end Vault

namespace Archive

/-- Open engines hold existing files alone, and every file is in step with its history. -/
structure Sound (archive : Archive) : Prop where
  durable : ∀ key engine, archive.vault.engines.find? key = some engine →
    ∃ inner, engine = .durable inner
  alone : ∀ key other file, archive.vault.fileOf? key = some file →
    archive.vault.fileOf? other = some file → key = other
  /-- The file of an open engine exists, and the path of the engine leads to it. -/
  present : ∀ key engine file, archive.vault.engines.find? key = some (.durable engine) →
    engine.file = some file → (∃ database, archive.vault.disk.find? file = some database) ∧
      FilePath.locate archive.vault.disk.contains engine.path = .ok file
  recounted : ∀ file database, archive.vault.disk.find? file = some database →
    ∃ ledger, database.Represents ledger ∧ ledger.Recounts (archive.history file)
  /-- Nothing was asked of a file before it was made. -/
  absent : ∀ file, archive.vault.disk.find? file = none → archive.history file = []

theorem sound_empty : empty.Sound where
  durable _ _ := nofun
  alone _ _ _ := nofun
  present _ _ _ := nofun
  recounted _ _ := nofun
  absent _ _ := rfl

namespace Sound

variable {archive : Archive}

/-- An engine may be put into the vault if the file that it holds, if any, is held by no other one
and if it exists with the right path. -/
theorem put (sound : archive.Sound) (key : EngineKey) (engine : Durable)
    (alone : ∀ file, engine.file = some file → ∀ other, archive.vault.fileOf? other = some file →
      other = key)
    (present : ∀ file, engine.file = some file →
      (∃ database, archive.vault.disk.find? file = some database) ∧
        FilePath.locate archive.vault.disk.contains engine.path = .ok file) :
    Sound { archive with vault := archive.vault.put key (.durable engine) } where
  durable other found listed := by
    rcases Table.find?_insert_cases listed with ⟨_, rfl⟩ | ⟨_, before⟩
    · exact ⟨engine, rfl⟩
    · exact sound.durable other found before
  alone first second file holds alsoHolds := by
    rw [Vault.fileOf?_put] at holds alsoHolds
    by_cases here : first = key
    · by_cases there : second = key
      · rw [here, there]
      · rw [if_pos here] at holds
        rw [if_neg there] at alsoHolds
        exact absurd (alone file holds second alsoHolds) there
    · rw [if_neg here] at holds
      by_cases there : second = key
      · rw [if_pos there] at alsoHolds
        exact absurd (alone file alsoHolds first holds) here
      · rw [if_neg there] at alsoHolds
        exact sound.alone first second file holds alsoHolds
  present other found file listed held := by
    rcases Table.find?_insert_cases listed with ⟨_, equal⟩ | ⟨_, before⟩
    · cases equal
      exact present file held
    · exact sound.present other found file before held
  recounted := sound.recounted
  absent := sound.absent

/-- A file may be made, or written with what one more call leaves, if its history goes along. -/
theorem write (sound : archive.Sound) (file : FileName) {database : Database} {ledger : Ledger}
    {history : FileName → List Success} (represents : database.Represents ledger)
    (recounts : ledger.Recounts (history file))
    (elsewhere : ∀ other, other ≠ file → history other = archive.history other) :
    Sound
      { vault := { archive.vault with disk := archive.vault.disk.insert file database }
        history := history } where
  durable := sound.durable
  alone := sound.alone
  present key engine other found held := by
    rcases sound.present key engine other found held with ⟨⟨contents, here⟩, located⟩
    refine ⟨?_, FilePath.locate_of_ok located _⟩
    simp only [Table.find?_insert]
    by_cases same : other = file
    · exact ⟨database, if_pos same⟩
    · exact ⟨contents, (if_neg same).trans here⟩
  recounted other contents here := by
    rcases Table.find?_insert_cases here with ⟨rfl, rfl⟩ | ⟨different, before⟩
    · exact ⟨ledger, represents, recounts⟩
    · simp only [elsewhere other different]
      exact sound.recounted other contents before
  absent other here := by
    rw [Table.find?_insert] at here
    by_cases same : other = file
    · rw [if_pos same] at here
      cases here
    · rw [if_neg same] at here
      exact (elsewhere other same).trans (sound.absent other here)

/-- What an engine holds is a file that is in step with its history. -/
theorem contents (sound : archive.Sound) {key : EngineKey} {engine : Durable} {file : FileName}
    (found : archive.vault.engines.find? key = some (.durable engine))
    (held : engine.file = some file) :
    ∃ database ledger, archive.vault.contents? engine = some (file, database) ∧
      database.Represents ledger ∧ ledger.Recounts (archive.history file) := by
  rcases (sound.present key engine file found held).1 with ⟨database, here⟩
  rcases sound.recounted file database here with ⟨ledger, represents, recounts⟩
  exact ⟨database, ledger, Vault.contents?_eq_some.mpr ⟨held, here⟩, represents, recounts⟩

theorem make (sound : archive.Sound) (path : String) : (archive.perform (.make path)).Sound := by
  have made := sound.put ⟨archive.vault.made⟩ (.new path) nofun nofun
  exact ⟨made.durable, made.alone, made.present, made.recounted, made.absent⟩

theorem start (sound : archive.Sound) (key : EngineKey) : (archive.perform (.start key)).Sound := by
  simp only [perform, Vault.call]
  cases found : archive.vault.engines.find? key with
  | none => exact sound
  | some engine =>
      rcases sound.durable key engine found with ⟨inner, rfl⟩
      simp only [Vault.callDurable]
      rcases archive.vault.startDurable_cases key inner with
        ⟨fault, failed⟩ | ⟨file, located, free, started⟩
      · rw [failed]
        exact sound
      · rw [started]
        have ledger : ∃ ledger,
            ((archive.vault.disk.find? file).getD Database.empty).Represents ledger ∧
              ledger.Recounts (archive.history file) := by
          cases here : archive.vault.disk.find? file with
          | none =>
              refine ⟨.empty, Database.represents_empty, ?_⟩
              rw [sound.absent file here]
              exact .nil
          | some database => exact sound.recounted file database here
        rcases ledger with ⟨ledger, represents, recounts⟩
        have written := sound.write file represents recounts fun _ _ => rfl
        refine written.put key { inner with file := some file } ?_ ?_
        · rintro name ⟨⟩ other holds
          have held : archive.vault.isHeld file = true := Vault.isHeld_of_fileOf? holds
          rw [free] at held
          cases held
        · rintro name ⟨⟩
          exact ⟨⟨_, (Table.find?_insert _ _ _ _).trans (if_pos rfl)⟩,
            FilePath.locate_of_ok located _⟩

theorem stop (sound : archive.Sound) (key : EngineKey) : (archive.perform (.stop key)).Sound := by
  simp only [perform, Vault.call]
  cases found : archive.vault.engines.find? key with
  | none => exact sound
  | some engine =>
      rcases sound.durable key engine found with ⟨inner, rfl⟩
      exact sound.put key { inner with file := none } (fun _ held => by cases held)
        (fun _ held => by cases held)

/-- An engine that is open answers as a ledger of all that has succeeded on its file, and its file
is then in step with the ledger. -/
theorem call_of_open (sound : archive.Sound) {key : EngineKey} {engine : Durable}
    {file : FileName} (found : archive.vault.engines.find? key = some (.durable engine))
    (held : engine.file = some file) (request : Request) :
    ∃ (ledger : Ledger) (database : Database), ledger.Recounts (archive.history file) ∧
      archive.vault.call key request.call =
        ((ledger.call request.call).1,
          { archive.vault with disk := archive.vault.disk.insert file database }) ∧
      database.Represents (ledger.call request.call).2 := by
  rcases Call.kind_ne_of_isStorage request.isStorage with ⟨started, stopped⟩
  rcases sound.contents found held with ⟨database, ledger, contents, represents, recounts⟩
  rcases (Database.answers : (Host.of Database.call : Host Unit Database).Answers _) ()
    request.call database ledger represents with ⟨same, still⟩
  have answer : (database.call request.call).1 = (ledger.call request.call).1 := same
  refine ⟨ledger, (database.call request.call).2, recounts, ?_, still⟩
  simp only [Vault.call, found, Vault.callDurable_of_contents contents key started stopped, answer]

theorem ask (sound : archive.Sound) (key : EngineKey) (request : Request) :
    (archive.perform (.ask key request)).Sound := by
  cases found : archive.vault.engines.find? key with
  | none =>
      have holds : archive.vault.fileOf? key = none := by rw [Vault.fileOf?, found]; rfl
      simp only [perform, noted, holds, Vault.call, found]
      exact sound
  | some engine =>
      rcases sound.durable key engine found with ⟨inner, rfl⟩
      have holds := Vault.fileOf?_of_durable found
      cases held : inner.file with
      | none =>
          simp only [perform, noted, holds, held, Vault.call_of_closed found held]
          exact sound
      | some file =>
          rcases sound.call_of_open found held request with
            ⟨ledger, database, recounts, called, represents⟩
          simp only [perform, noted, holds, held, called]
          cases answered : (ledger.call request.call).1 with
          | error fault =>
              rw [Ledger.call_of_error answered] at represents
              exact sound.write file represents recounts fun _ _ => rfl
          | ok answer =>
              dsimp only
              refine sound.write file represents ?_ fun other different => ?_
              · rw [Function.update_self]
                exact recounts.push answered
              · rw [Function.update_of_ne different]

/-- Whatever is done next, it leaves all sound. -/
theorem perform (sound : archive.Sound) (deed : Deed) : (archive.perform deed).Sound := by
  cases deed with
  | make path => exact sound.make path
  | start key => exact sound.start key
  | stop key => exact sound.stop key
  | ask key request => exact sound.ask key request

theorem run (sound : archive.Sound) (deeds : List Deed) : (archive.run deeds).Sound := by
  induction deeds generalizing archive with
  | nil => exact sound
  | cons deed later inductionStep => exact inductionStep (sound.perform deed)

/-- Starting an engine that is open is starting it on a file that is held. -/
theorem start_of_open (sound : archive.Sound) {key : EngineKey} {file : FileName}
    (holds : archive.vault.fileOf? key = some file) :
    archive.vault.call key .start = (.error (.database .alreadyOpen), archive.vault) := by
  rcases Option.bind_eq_some_iff.mp holds with ⟨engine, found, held⟩
  rcases sound.durable key engine found with ⟨inner, rfl⟩
  exact Vault.start_of_held found (sound.present key inner file found held).2 holds

end Sound
end Archive

/-- After any row of deeds, of which any number of engines and files may be the object, a file is
held by one engine at most.  Starting an engine on a file that is held, or an engine that is open,
fails and changes nothing at all.  An engine that is not open refuses whatever is asked, for a wrong
total or else for not being open, and nothing changes.  An engine that is open answers as a new
ledger does after the calls that have succeeded on its file, which were themselves answered so; and
no number was given out twice on one file. -/
theorem lifecycle_sound (deeds : List Deed) :
    let archive := Archive.empty.run deeds
    let vault := archive.vault
    (∀ key other file, vault.fileOf? key = some file → vault.fileOf? other = some file →
      key = other) ∧
    (∀ key other engine file, vault.durable? key = some engine →
      FilePath.locate vault.disk.contains engine.path = .ok file →
      vault.fileOf? other = some file →
      vault.call key .start = (.error (.database .alreadyOpen), vault)) ∧
    (∀ key file, vault.fileOf? key = some file →
      vault.call key .start = (.error (.database .alreadyOpen), vault)) ∧
    (∀ key engine (request : Request), vault.durable? key = some engine → engine.file = none →
      vault.call key request.call =
        (.error (request.call.mistake?.getD .notInitialized), vault)) ∧
    (∀ key file (request : Request), vault.fileOf? key = some file →
      (vault.call key request.call).1 =
        ((Ledger.host.after () (archive.asked file) .empty).call request.call).1) ∧
    (∀ file, archive.told file = Ledger.host.dialogue () (archive.asked file) .empty ∧
      (archive.told file).issued.Nodup) := by
  intro archive vault
  have sound : archive.Sound := Archive.sound_empty.run deeds
  refine ⟨sound.alone,
    fun key other engine file named => Vault.start_of_held (Vault.find?_of_durable? named),
    fun key file => sound.start_of_open,
    fun key engine request named closed =>
      Vault.call_of_closed (Vault.find?_of_durable? named) closed request,
    fun key file request holds => ?_, fun file => ?_⟩
  · rcases Option.bind_eq_some_iff.mp holds with ⟨engine, found, held⟩
    rcases sound.durable key engine found with ⟨inner, rfl⟩
    rcases sound.call_of_open found held request with
      ⟨ledger, database, recounts, called, represents⟩
    rw [called, recounts.after]
    rfl
  · have recounts : ∃ ledger : Ledger, ledger.Recounts (archive.history file) := by
      cases here : archive.vault.disk.find? file with
      | none =>
          rw [sound.absent file here]
          exact ⟨_, .nil⟩
      | some database =>
          rcases sound.recounted file database here with ⟨ledger, _, recounts⟩
          exact ⟨ledger, recounts⟩
    rcases recounts with ⟨ledger, recounts⟩
    refine ⟨recounts.told, ?_⟩
    rw [Archive.told, recounts.stemsFrom.issued]
    exact MessageId.nodup_upTo ledger.last

/-- Two engines on one file, of which the second one opens what the first one has written.  Starts
of the second before the first has stopped, and of the first after the second has started, fail. -/
theorem lifecycle_sound_shared :
    let nines : Digest := ⟨List.replicate 32 9, rfl⟩
    let first : EngineKey := ⟨0⟩
    let second : EngineKey := ⟨1⟩
    let deeds : List Deed :=
      [.make "mail.redb", .make "./mail.redb", .start first, .start second,
        .ask first ⟨.openMessage {}, rfl⟩, .ask first ⟨.addChunk nines [1], rfl⟩, .stop first,
        .ask first ⟨.openMessage {}, rfl⟩, .start second, .ask second ⟨.openMessage {}, rfl⟩,
        .ask second ⟨.addChunk nines [2], rfl⟩]
    let archive := Archive.empty.run deeds
    let vault := archive.vault
    (archive.told "mail.redb").issued = [⟨1⟩, ⟨2⟩] ∧
      (archive.told "mail.redb").additions nines = [[1], [2]] ∧
      vault.durable? first = some ⟨"mail.redb", none⟩ ∧
      vault.fileOf? second = some "mail.redb" ∧
      vault.call first .start = (.error (.database .alreadyOpen), vault) ∧
      vault.call second .start = (.error (.database .alreadyOpen), vault) ∧
      vault.call first (.closeMessage ⟨1⟩ 1 .empty {}) = (.error (.sizeMismatch 1 0), vault) ∧
      (vault.call second (.getChunk nines)).1 = .ok ⟨nines, [1], 2⟩ := by
  intro nines first second deeds archive vault
  have closed : vault.durable? first = some ⟨"mail.redb", none⟩ := by decide +kernel
  have opened : vault.fileOf? second = some "mail.redb" := by decide +kernel
  have issued : (archive.told "mail.redb").issued = [⟨1⟩, ⟨2⟩] := by decide +kernel
  have added : (archive.told "mail.redb").additions nines = [[1], [2]] := by decide +kernel
  have leads : FilePath.locate (fun _ => false) "mail.redb" = .ok "mail.redb" := rfl
  rcases lifecycle_sound deeds with ⟨_, onHeld, onOpen, refused, answered, recorded⟩
  have recounts : (Ledger.host.after () (archive.asked "mail.redb") .empty).Recounts
      (archive.history "mail.redb") :=
    ⟨rfl, (recorded "mail.redb").1⟩
  have chunk : _ = (archive.told "mail.redb").answerTo (.getChunk nines) :=
    recounts.stemsFrom.answer (.getChunk nines)
  refine ⟨issued, added, closed, opened,
    onHeld first second _ "mail.redb" closed (FilePath.locate_of_ok leads _) opened,
    onOpen second "mail.redb" opened,
    refused first _ ⟨.closeMessage ⟨1⟩ 1 .empty {}, rfl⟩ closed rfl, ?_⟩
  rw [answered second "mail.redb" ⟨.getChunk nines, rfl⟩ opened]
  rw [Chronicle.answerTo, Chronicle.held?, added] at chunk
  exact chunk

end Store
end MailVault
