import MailVault.Proofs.Store.Reachable
import MailVault.Saver

/-!
# Savers that fail to start

A start can fail when the backend object is read, when the settings are checked, when an
engine is made and when it is started.  In each case the engine that was given stays
with the saver, and nothing that is stored changes.  The settings that were given do not
stay: the start has taken them out of the saver, and only one that succeeds puts
settings back.

A saver without settings is therefore the same after a failed start, and can be started
again as if nothing had happened.  A saver with settings is no longer ready, and the next
start that succeeds runs with the settings of its backend object.
-/

namespace MailVault

open Store (EngineKey Engine Vault Durable Volatile)

/-! ## Vaults after a start that failed -/

theorem Table.storeIn_of_none {α β : Type} [DecidableEq α] {key : α} {entries : List (α × β)}
    (new : Table.findIn key entries = none) (value : β) :
    Table.storeIn key value entries = entries ++ [(key, value)] := by
  induction entries with
  | nil => rfl
  | cons entry rest inductionStep =>
      rcases entry with ⟨first, old⟩
      rw [Table.findIn] at new
      by_cases here : first = key
      · rw [if_pos here] at new
        cases new
      · rw [if_neg here] at new
        rw [Table.storeIn, if_neg here, inductionStep new, List.cons_append]

namespace Store.Vault

/-- The engines with old numbers have what they had in memory and hold the files that they held, and
the files are the same. -/
structure Unharmed (vault later : Vault) : Prop where
  disk : later.disk = vault.disk
  memory : ∀ key : EngineKey, key.index < vault.made →
    (later.engines.find? key).bind Engine.memory? = (vault.engines.find? key).bind Engine.memory?
  held : ∀ key : EngineKey, key.index < vault.made → later.fileOf? key = vault.fileOf? key

theorem Unharmed.refl (vault : Vault) : vault.Unharmed vault :=
  ⟨rfl, fun _ _ => rfl, fun _ _ => rfl⟩

theorem find?_add_of_lt (vault : Vault) (engine : Engine) {key : EngineKey}
    (old : key.index < vault.made) :
    (vault.add engine).2.engines.find? key = vault.engines.find? key := by
  have different : key ≠ ⟨vault.made⟩ := by
    rintro rfl
    exact Nat.lt_irrefl _ old
  exact (Table.find?_insert _ _ _ _).trans (if_neg different)

theorem find?_add (vault : Vault) (engine : Engine) :
    (vault.add engine).2.engines.find? ⟨vault.made⟩ = some engine :=
  (Table.find?_insert _ _ _ _).trans (if_pos rfl)

theorem unharmed_add (vault : Vault) (engine : Engine) : vault.Unharmed (vault.add engine).2 where
  disk := rfl
  memory key old := by rw [find?_add_of_lt vault engine old]
  held key old := by rw [fileOf?, find?_add_of_lt vault engine old, fileOf?]

/-- A start that fails changes nothing, or it fails by a plan, and then only the plan goes on. -/
theorem start_error_cases {vault later : Vault} {key : EngineKey} {fault : Fault}
    (failed : vault.call key .start = (.error fault, later)) :
    later = vault ∨ ∃ engine plan, vault.engines.find? key = some (.faulty engine) ∧
      later = vault.put key (.faulty (engine.schedule .start plan)) := by
  unfold call at failed
  cases found : vault.engines.find? key with
  | none =>
      rw [found] at failed
      cases failed
      exact Or.inl rfl
  | some engine =>
      rw [found] at failed
      cases engine with
      | volatile engine => cases failed
      | durable engine =>
          rcases vault.startDurable_cases key engine with ⟨other, refused⟩ | ⟨file, _, _, started⟩
          · cases refused.symm.trans failed
            exact Or.inl rfl
          · cases started.symm.trans failed
      | faulty engine =>
          simp only at failed
          rcases engine.call_cases Volatile.call .start with ⟨other, _, planned⟩ | reached
          · rw [planned] at failed
            cases failed
            exact Or.inr ⟨engine, _, rfl, rfl⟩
          · rw [reached] at failed
            cases failed

/-- An engine that fails by a plan keeps what it has. -/
theorem Unharmed.start_error {vault now later : Vault} (unharmed : vault.Unharmed now)
    {key : EngineKey} {fault : Fault} (failed : now.call key .start = (.error fault, later)) :
    vault.Unharmed later := by
  rcases start_error_cases failed with rfl | ⟨engine, plan, found, rfl⟩
  · exact unharmed
  · refine ⟨unharmed.disk, fun other old => ?_, fun other old => ?_⟩
    · rw [← unharmed.memory other old, put, Table.find?_insert]
      by_cases same : other = key
      · rw [if_pos same, same, found]
        rfl
      · rw [if_neg same]
    · rw [← unharmed.held other old, fileOf?_put]
      by_cases same : other = key
      · rw [if_pos same, same, fileOf?, found]
        rfl
      · rw [if_neg same]

/-! ## Vaults in which new engines fare alike -/

/-- Both vaults have the same files, of which the same ones are held. -/
structure Alike (vault other : Vault) : Prop where
  orderly : vault.Orderly
  orderly' : other.Orderly
  disk : other.disk = vault.disk
  held : ∀ file, other.isHeld file = vault.isHeld file

theorem Orderly.alike {vault : Vault} (orderly : vault.Orderly) : vault.Alike vault :=
  ⟨orderly, orderly, rfl, fun _ => rfl⟩

theorem Orderly.isHeld_add {vault : Vault} (orderly : vault.Orderly) {engine : Engine}
    (empty : engine.heldFile? = none) (file : FileName) :
    (vault.add engine).2.isHeld file = vault.isHeld file := by
  have new : Table.findIn ⟨vault.made⟩ vault.engines.entries = none := by
    cases listed : vault.engines.find? ⟨vault.made⟩ with
    | none => exact listed
    | some other => exact absurd (orderly _ other listed) (Nat.lt_irrefl _)
  change (Table.storeIn _ engine vault.engines.entries).any _ = _
  rw [Table.storeIn_of_none new, List.any_append, List.any_cons, List.any_nil, empty, Bool.or_false]
  exact Bool.or_false _

theorem Orderly.alike_add {vault : Vault} (orderly : vault.Orderly) {engine : Engine}
    (empty : engine.heldFile? = none) : vault.Alike (vault.add engine).2 :=
  ⟨orderly, orderly.add engine, rfl, orderly.isHeld_add empty⟩

/-- A new engine starts alike in both vaults, or fails alike. -/
theorem Alike.start_add {vault other : Vault} (alike : vault.Alike other) {engine : Engine}
    (empty : engine.heldFile? = none) :
    let first := (vault.add engine).2.call ⟨vault.made⟩ .start
    let second := (other.add engine).2.call ⟨other.made⟩ .start
    second.1 = first.1 ∧ second.2.disk = first.2.disk ∧
      second.2.engines.find? ⟨other.made⟩ = first.2.engines.find? ⟨vault.made⟩ := by
  have same (one : Vault) (changed : Engine) :
      ((one.add engine).2.put ⟨one.made⟩ changed).engines.find? ⟨one.made⟩ = some changed :=
    (Table.find?_insert _ _ _ _).trans (if_pos rfl)
  intro first second
  simp only [first, second, call, find?_add]
  cases engine with
  | volatile engine => exact ⟨rfl, alike.disk, (same other _).trans (same vault _).symm⟩
  | faulty engine => exact ⟨rfl, alike.disk, (same other _).trans (same vault _).symm⟩
  | durable engine =>
      have held (file : FileName) : (other.add (.durable engine)).2.isHeld file =
          (vault.add (.durable engine)).2.isHeld file := by
        rw [alike.orderly'.isHeld_add empty, alike.orderly.isHeld_add empty, alike.held]
      have disk : (other.add (.durable engine)).2.disk = (vault.add (.durable engine)).2.disk :=
        alike.disk
      simp only [callDurable, startDurable, disk, held]
      cases FilePath.locate (vault.add (.durable engine)).2.disk.contains engine.path with
      | error fault => exact ⟨rfl, disk, (find?_add other _).trans (find?_add vault _).symm⟩
      | ok file =>
          dsimp only
          by_cases taken : (vault.add (.durable engine)).2.isHeld file = true
          · rw [if_pos taken, if_pos taken]
            exact ⟨rfl, disk, (find?_add other _).trans (find?_add vault _).symm⟩
          · rw [if_neg taken, if_neg taken]
            exact ⟨rfl, rfl, (same other _).trans (same vault _).symm⟩

end Store.Vault

/-- The engine that settings want is in memory, or it is durable and was not started. -/
theorem Settings.makeEngine_cases {settings : Settings} {engine : Engine}
    (made : settings.makeEngine = .ok engine) :
    engine = .volatile (.new settings.level) ∨ ∃ path, engine = .durable (.new path) := by
  unfold makeEngine at made
  split at made
  · cases made
    exact Or.inl rfl
  · cases made
    exact Or.inr ⟨_, rfl⟩
  · cases made

theorem Settings.heldFile?_makeEngine {settings : Settings} {engine : Engine}
    (made : settings.makeEngine = .ok engine) : engine.heldFile? = none := by
  rcases makeEngine_cases made with rfl | ⟨path, rfl⟩
  · rfl
  · rfl

/-! ## The ways of a start -/

namespace Saver

def stripped (saver : Saver) : Saver :=
  { saver with settings := none }

/-- The engine that was given is provided, or there is none to be provided, or it is a new one. -/
theorem provide_cases (saver : Saver) (settings : Settings) (vault : Vault) :
    (∃ key, saver.store = some key ∧ saver.provide settings vault = (.ok key, vault)) ∨
    (∃ fault, saver.provide settings vault = (.error fault, vault)) ∨
    ∃ engine, settings.makeEngine = .ok engine ∧
      saver.provide settings vault = (.ok ⟨vault.made⟩, (vault.add engine).2) := by
  unfold provide
  cases saver.store with
  | some key => exact Or.inl ⟨key, rfl, rfl⟩
  | none =>
      cases settings.makeEngine with
      | error fault => exact Or.inr (Or.inl ⟨fault, rfl⟩)
      | ok engine => exact Or.inr (Or.inr ⟨engine, rfl, rfl⟩)

/-- A start fails when settings are chosen, when an engine is provided or when it is started, or it
leaves the saver with the settings and the engine. -/
theorem start_cases (saver : Saver) (backend : Json.Fields) (vault : Vault) :
    (∃ fault, saver.choose backend = .error fault ∧
      saver.start backend vault = (.error (.settings fault), saver.stripped, vault)) ∨
    ∃ settings, saver.choose backend = .ok settings ∧
      ((∃ fault now, saver.provide settings vault = (.error fault, now) ∧
        saver.start backend vault = (.error (.settings fault), saver.stripped, now)) ∨
      ∃ key now, saver.provide settings vault = (.ok key, now) ∧
        ((∃ fault later, now.call key .start = (.error fault, later) ∧
          saver.start backend vault = (.error (.storage fault), saver.stripped, later)) ∨
        ∃ later, now.call key .start = (.ok (), later) ∧
          saver.start backend vault = (.ok (), ⟨some settings, some key⟩, later))) := by
  unfold start
  cases chosen : saver.choose backend with
  | error fault => exact Or.inl ⟨fault, rfl, rfl⟩
  | ok settings =>
      refine Or.inr ⟨settings, rfl, ?_⟩
      dsimp only
      rcases saver.provide settings vault with ⟨answer, now⟩
      cases answer with
      | error fault => exact Or.inl ⟨fault, now, rfl, rfl⟩
      | ok key =>
          refine Or.inr ⟨key, now, rfl, ?_⟩
          dsimp only
          rcases now.call key .start with ⟨result, later⟩
          cases result with
          | error fault => exact Or.inl ⟨fault, later, rfl, rfl⟩
          | ok _ => exact Or.inr ⟨later, rfl, rfl⟩

/-- Settings that were given are the ones that are chosen, and otherwise those of the backend
object are. -/
theorem choose_ok {saver : Saver} {backend : Json.Fields} {settings : Settings}
    (chosen : saver.choose backend = .ok settings) :
    saver.settings = some settings ∨
      saver.settings = none ∧ Settings.ofBackend backend = .ok settings := by
  have checked (found : Settings)
      (valid : (found.validate.bind fun _ => .ok found) = .ok settings) : found = settings := by
    cases result : found.validate with
    | error fault =>
        rw [result] at valid
        cases valid
    | ok _ =>
        rw [result] at valid
        exact Except.ok.inj valid
  unfold choose at chosen
  cases given : saver.settings with
  | some found =>
      rw [given] at chosen
      exact Or.inl (congrArg some (checked found chosen))
  | none =>
      rw [given] at chosen
      cases read : Settings.ofBackend backend with
      | error fault =>
          rw [read] at chosen
          cases chosen
      | ok found =>
          rw [read] at chosen
          exact Or.inr ⟨rfl, congrArg _ (checked found chosen)⟩

theorem choose_of_start_ok {saver started : Saver} {backend : Json.Fields} {vault later : Vault}
    (ok : saver.start backend vault = (.ok (), started, later)) :
    ∃ settings, saver.choose backend = .ok settings ∧ started.settings = some settings := by
  rcases saver.start_cases backend vault with ⟨_, _, failed⟩ | ⟨settings, chosen, ways⟩
  · cases failed.symm.trans ok
  · rcases ways with ⟨_, _, _, failed⟩ | ⟨key, now, _, ⟨_, _, _, failed⟩ | ⟨_, _, done⟩⟩
    · cases failed.symm.trans ok
    · cases failed.symm.trans ok
    · cases done.symm.trans ok
      exact ⟨settings, chosen, rfl⟩

section Failed

variable {saver after : Saver} {backend : Json.Fields} {vault later : Vault} {fault : SaverFault}

/-- A start that fails takes the settings out of the saver, and it does nothing to the vault but to
add an engine and to call one that does not start. -/
theorem of_start_error (failed : saver.start backend vault = (.error fault, after, later)) :
    after = saver.stripped ∧
      (later = vault ∨ ∃ settings key now cause,
        saver.provide settings vault = (.ok key, now) ∧
          now.call key .start = (.error cause, later)) := by
  rcases saver.start_cases backend vault with ⟨_, _, refused⟩ | ⟨settings, _, ways⟩
  · cases refused.symm.trans failed
    exact ⟨rfl, Or.inl rfl⟩
  · rcases ways with ⟨_, now, provided, refused⟩ | ⟨key, now, provided, ways⟩
    · cases refused.symm.trans failed
      refine ⟨rfl, Or.inl ?_⟩
      rcases saver.provide_cases settings vault with ⟨_, _, other⟩ | ⟨_, other⟩ | ⟨_, _, other⟩
      · cases other.symm.trans provided
      · cases other.symm.trans provided
        rfl
      · cases other.symm.trans provided
    · rcases ways with ⟨cause, _, called, refused⟩ | ⟨_, _, done⟩
      · cases refused.symm.trans failed
        exact ⟨rfl, Or.inr ⟨settings, key, now, cause, provided, called⟩⟩
      · cases done.symm.trans failed

theorem unharmed_of_start_error
    (failed : saver.start backend vault = (.error fault, after, later)) :
    vault.Unharmed later := by
  rcases (of_start_error failed).2 with rfl | ⟨settings, key, now, cause, provided, called⟩
  · exact .refl _
  · have unharmed : vault.Unharmed now := by
      rcases saver.provide_cases settings vault with ⟨_, _, other⟩ | ⟨_, other⟩ | ⟨engine, _, other⟩
      · cases other.symm.trans provided
        exact .refl vault
      · cases other.symm.trans provided
      · cases other.symm.trans provided
        exact vault.unharmed_add engine
    exact unharmed.start_error called

/-- If an engine was added, it was not started, and new engines fare as before. -/
theorem alike_of_start_error (new : saver.store = none) (orderly : vault.Orderly)
    (failed : saver.start backend vault = (.error fault, after, later)) : vault.Alike later := by
  rcases (of_start_error failed).2 with rfl | ⟨settings, key, now, cause, provided, called⟩
  · exact orderly.alike
  · rcases saver.provide_cases settings vault with
      ⟨_, given, _⟩ | ⟨_, other⟩ | ⟨engine, made, other⟩
    · rw [new] at given
      cases given
    · cases other.symm.trans provided
    · cases other.symm.trans provided
      -- A new engine has no plan by which it could fail, so that it was not changed.
      rcases Vault.start_error_cases called with rfl | ⟨planned, _, found, _⟩
      · exact orderly.alike_add (Settings.heldFile?_makeEngine made)
      · cases (vault.find?_add engine).symm.trans found
        rcases Settings.makeEngine_cases made with impossible | ⟨_, impossible⟩
        · cases impossible
        · cases impossible

end Failed

/-! ## Starting again -/

/-- Two starts that differ at most in the number of the engine. -/
structure SameStart (first second : Except SaverFault Unit × Saver × Vault) : Prop where
  answer : second.1 = first.1
  settings : second.2.1.settings = first.2.1.settings
  disk : second.2.2.disk = first.2.2.disk
  engine : second.2.1.store.bind second.2.2.engines.find? =
    first.2.1.store.bind first.2.2.engines.find?

/-- A saver without an engine starts alike in vaults in which new engines fare alike. -/
theorem sameStart_of_alike {saver : Saver} (new : saver.store = none) {vault other : Vault}
    (alike : vault.Alike other) (backend : Json.Fields) :
    SameStart (saver.start backend vault) (saver.start backend other) := by
  unfold start provide
  rw [new]
  cases saver.choose backend with
  | error fault => exact ⟨rfl, rfl, alike.disk, rfl⟩
  | ok settings =>
      dsimp only
      cases made : settings.makeEngine with
      | error fault => exact ⟨rfl, rfl, alike.disk, rfl⟩
      | ok engine =>
          rcases alike.start_add (Settings.heldFile?_makeEngine made) with ⟨answer, disk, found⟩
          dsimp only [Vault.add] at answer disk found ⊢
          generalize Vault.call _ ⟨vault.made⟩ .start = first at answer disk found ⊢
          generalize Vault.call _ ⟨other.made⟩ .start = second at answer disk found ⊢
          rcases first with ⟨result, left⟩
          rcases second with ⟨_, left'⟩
          cases answer
          cases result with
          | error fault => exact ⟨rfl, rfl, disk, rfl⟩
          | ok _ => exact ⟨rfl, rfl, disk, found⟩

/-- A start that fails leaves the saver with its engine and without settings, and no engine and no
file loses anything.  A saver that had no settings is the same as before; if it had no engine
either, every later start goes as it would have gone without the failed one.  A saver that had
settings makes no splitters any more, and the next start that succeeds has the settings of its own
backend object, where those that were given would have been used before. -/
theorem settings_of_failed_start {saver after : Saver} {backend : Json.Fields}
    {vault later : Vault} {fault : SaverFault}
    (failed : saver.start backend vault = (.error fault, after, later)) :
    after = { saver with settings := none } ∧ vault.Unharmed later ∧
    (saver.settings = none → after = saver ∧
      (saver.store = none → vault.Orderly → ∀ next,
        SameStart (saver.start next vault) (after.start next later))) ∧
    ∀ settings, saver.settings = some settings →
      after.decorate = .error .notReady ∧
      (∀ buffer, after.decorateBuffer buffer = .error .notReady) ∧
      ∀ next now started last,
        (after.start next now = (.ok (), started, last) →
          ∃ others, Settings.ofBackend next = .ok others ∧ started.settings = some others) ∧
        (saver.start next now = (.ok (), started, last) → started.settings = some settings) := by
  have bare : after = saver.stripped := (of_start_error failed).1
  refine ⟨bare, unharmed_of_start_error failed, fun none => ?_, fun settings given => ?_⟩
  · have same : after = saver := by
      rw [bare, stripped, ← none]
    refine ⟨same, fun new orderly next => ?_⟩
    rw [same]
    exact sameStart_of_alike new (alike_of_start_error new orderly failed) next
  · rw [bare]
    refine ⟨rfl, fun _ => rfl, fun next now started last => ⟨fun ok => ?_, fun ok => ?_⟩⟩
    · rcases choose_of_start_ok ok with ⟨others, chosen, same⟩
      rcases choose_ok chosen with impossible | ⟨_, read⟩
      · cases impossible
      · exact ⟨others, read, same⟩
    · rcases choose_of_start_ok ok with ⟨others, chosen, same⟩
      rcases choose_ok chosen with kept | ⟨none, _⟩
      · rw [same, ← kept, given]
      · rw [given] at none
        cases none

/-- A vault with one engine in memory, whose first start fails. -/
def flaky : Vault :=
  (Vault.empty.add (.faulty ⟨.new 0,
    Table.empty.insert .start (.failing 0 1 (.compression "disk full"))⟩)).2

/-- A saver with that engine, to which chunks of nine bytes were given. -/
def nines : Saver where
  settings := some (Settings.memory.withChunkSize 9)
  store := some ⟨0⟩

/-- A backend object that asks for chunks of seven bytes. -/
def sevens : Json.Fields :=
  [("chunksaver_chunk_size", .int 7), ("chunksaver_storage_engine", .text "memory")]

/-- What a failed start leaves is not what was there before. -/
theorem settings_not_kept :
    ¬ ∀ (saver after : Saver) (backend : Json.Fields) (vault later : Vault) (fault : SaverFault),
      saver.start backend vault = (.error fault, after, later) →
        after.settings = saver.settings ∧ after.store = saver.store ∧
        after.decorate = saver.decorate ∧
        (∀ buffer, after.decorateBuffer buffer = saver.decorateBuffer buffer) ∧
        ∀ next, SameStart (saver.start next later) (after.start next later) := by
  intro kept
  have settings := (kept nines _ sevens flaky _ (.storage (.compression "disk full")) rfl).1
  cases settings

/-- The saver is not ready after its engine has failed once.  Started again, it has chunks of seven
bytes, although it would have had chunks of nine. -/
theorem settings_of_failed_start_flaky :
    let failing := nines.start sevens flaky
    let again := failing.2.1.start sevens failing.2.2
    failing.1 = .error (.storage (.compression "disk full")) ∧
      failing.2.1.decorate = .error .notReady ∧
      again.1 = .ok () ∧
      (∃ others, Settings.ofBackend sevens = .ok others ∧ again.2.1.settings = some others) ∧
      again.2.1.settings.map Settings.chunkSize = some 7 ∧
      (nines.start sevens failing.2.2).2.1.settings.map Settings.chunkSize = some 9 := by
  intro failing again
  have failed : nines.start sevens flaky =
      (.error (.storage (.compression "disk full")), failing.2.1, failing.2.2) := rfl
  rcases (settings_of_failed_start failed).2.2.2 _ rfl with ⟨unready, _, retried⟩
  have started : failing.2.1.start sevens failing.2.2 = (.ok (), again.2.1, again.2.2) := rfl
  exact ⟨rfl, unready, rfl, (retried _ _ _ _).1 started, rfl, rfl⟩

end Saver
end MailVault
