import MailVault.Proofs.Message.Encoding
import MailVault.Saver

/-!
# What settings make of a backend object

A backend object is shared by all stages of a server, and holds more than the settings
of a saver.  Four keys count.  What values each of them takes, and what is reported of a
value that it does not take, is said here without reading anything.

Reading goes through the keys in the order of their names, so that the first key with a
value that it does not take decides what is reported.  The range of the compression level
is looked at afterwards, when all four values are known.
-/

namespace MailVault

open Json

namespace Settings

/-- The keys of a backend object that count. -/
inductive Key where
  | chunkSize
  | level
  | path
  | engine
deriving DecidableEq

namespace Key

def name : Key → String
  | chunkSize => "chunksaver_chunk_size"
  | level => "chunksaver_compress_level"
  | path => "chunksaver_database_path"
  | engine => "chunksaver_storage_engine"

/-- Integers that fit into sixty-four bits with a sign. -/
def Fits (number : Int) : Prop :=
  -9223372036854775808 ≤ number ∧ number < 9223372036854775808

/-- The values that may stand under a key. -/
def Takes : Key → Value → Prop
  | chunkSize, .int number => Fits number
  | level, .int number => Fits number
  | path, .null => True
  | path, .text _ => True
  | engine, .text _ => True
  | _, _ => False

def wanted : Key → Wanted
  | chunkSize => .signed
  | level => .signed
  | path => .path
  | engine => .text

/-- What is reported of a value that a key does not take. -/
def refusal : Key → Value → Mismatch
  | chunkSize, .int number => .range number .signed
  | level, .int number => .range number .signed
  | key, value => .kind value key.wanted

/-- The object has nothing under the key that it does not take. -/
def Admits (key : Key) (backend : Fields) : Prop :=
  ∀ value, backend.lookup key.name = some value → key.Takes value

/-- The integer under a key, zero if there is none. -/
def integer (key : Key) (backend : Fields) : Int :=
  match backend.lookup key.name with
  | some (.int number) => number
  | _ => 0

def text? (key : Key) (backend : Fields) : Option String :=
  match backend.lookup key.name with
  | some (.text content) => some content
  | _ => none

end Key

/-! ## Reading one key -/

section Reading

variable {value : Value}

theorem signed_of_fits {number : Int} (fits : Key.Fits number) :
    Read.signed (.int number) = .ok number :=
  if_pos fits

theorem signed_of_not_takes {key : Key} (signed : key = .chunkSize ∨ key = .level)
    (refused : ¬ key.Takes value) : Read.signed value = .error (key.refusal value) := by
  cases value with
  | int number =>
      rcases signed with rfl | rfl
      · exact if_neg refused
      · exact if_neg refused
  | _ =>
      rcases signed with rfl | rfl
      · rfl
      · rfl

theorem path_of_not_takes (refused : ¬ Key.path.Takes value) :
    Read.nullable Read.path value = .error (Key.path.refusal value) := by
  cases value with
  | null => exact absurd trivial refused
  | text content => exact absurd trivial refused
  | _ => rfl

theorem text_of_not_takes (refused : ¬ Key.engine.Takes value) :
    Read.text value = .error (Key.engine.refusal value) := by
  cases value with
  | text content => exact absurd trivial refused
  | _ => rfl

variable {backend : Fields}

/-- A value that the reader refuses ends the reading of its field. -/
theorem get?_of_refused {α : Type} {name : String} {reader : Reader α} {fault : Mismatch}
    (found : backend.lookup name = some value) (refused : reader value = .error fault) :
    backend.get? name reader = .error fault := by
  rw [Fields.get?, found]
  change (reader value).map some = .error fault
  rw [refused]
  rfl

/-- Both keys for integers are read in the same way. -/
theorem get?_integer {key : Key} (signed : key = .chunkSize ∨ key = .level)
    (admits : key.Admits backend) :
    ∃ found, backend.get? key.name Read.signed = .ok found ∧
      found.getD 0 = key.integer backend := by
  rw [Fields.get?, Key.integer]
  cases present : backend.lookup key.name with
  | none => exact ⟨none, rfl, rfl⟩
  | some value =>
      have takes := admits value present
      cases value with
      | int number =>
          have fits : Key.Fits number := by
            rcases signed with rfl | rfl
            · exact takes
            · exact takes
          refine ⟨some number, ?_, rfl⟩
          change (Read.signed (.int number)).map some = _
          rw [signed_of_fits fits]
          rfl
      | _ => rcases signed with rfl | rfl <;> exact False.elim takes

theorem get?_path (admits : Key.path.Admits backend) :
    ∃ found, backend.get? Key.path.name (Read.nullable Read.path) = .ok found ∧
      found.join = Key.path.text? backend := by
  rw [Fields.get?, Key.text?]
  cases present : backend.lookup Key.path.name with
  | none => exact ⟨none, rfl, rfl⟩
  | some value =>
      have takes := admits value present
      cases value with
      | null => exact ⟨some none, rfl, rfl⟩
      | text content => exact ⟨some (some content), rfl, rfl⟩
      | _ => exact False.elim takes

theorem get?_engine (admits : Key.engine.Admits backend) :
    backend.get? Key.engine.name Read.text = .ok (Key.engine.text? backend) := by
  rw [Fields.get?, Key.text?]
  cases present : backend.lookup Key.engine.name with
  | none => rfl
  | some value =>
      have takes := admits value present
      cases value with
      | text content => rfl
      | _ => exact False.elim takes

end Reading

/-! ## Reading the object -/

namespace Raw

variable {backend : Fields}

/-- The four fields are read in the order of the names of their keys. -/
theorem ofFields_eq (backend : Fields) :
    ofFields backend = do
      let chunkSize ← backend.get? Key.chunkSize.name Read.signed
      let level ← backend.get? Key.level.name Read.signed
      let path ← backend.get? Key.path.name (Read.nullable Read.path)
      let engine ← backend.get? Key.engine.name Read.text
      return ⟨chunkSize.getD 0, level.getD 0, path.join, engine.getD ""⟩ :=
  rfl

theorem ofFields_congr {other : Fields}
    (same : ∀ key : Key, other.lookup key.name = backend.lookup key.name) :
    ofFields other = ofFields backend := by
  have equal : ∀ {α : Type} (key : Key) (reader : Reader α),
      other.get? key.name reader = backend.get? key.name reader := by
    intro α key reader
    rw [Fields.get?, Fields.get?, same key]
  rw [ofFields_eq, ofFields_eq, equal, equal, equal, equal]

/-- Where every key takes its value, the values are put together. -/
theorem ofFields_of_admits (admits : ∀ key : Key, key.Admits backend) :
    ofFields backend = .ok
      ⟨Key.chunkSize.integer backend, Key.level.integer backend, Key.path.text? backend,
        (Key.engine.text? backend).getD ""⟩ := by
  rcases get?_integer (.inl rfl) (admits .chunkSize) with ⟨size, sizeRead, sizeIs⟩
  rcases get?_integer (.inr rfl) (admits .level) with ⟨level, levelRead, levelIs⟩
  rcases get?_path (admits .path) with ⟨path, pathRead, pathIs⟩
  rw [ofFields_eq, sizeRead, levelRead, pathRead, get?_engine (admits .engine), ← sizeIs,
    ← levelIs, ← pathIs]
  rfl

/-- The first key, by name, that does not take its value is the one that is reported. -/
theorem ofFields_of_refused {key : Key} {value : Value}
    (found : backend.lookup key.name = some value) (refused : ¬ key.Takes value)
    (first : ∀ earlier : Key, earlier.name < key.name → earlier.Admits backend) :
    ofFields backend = .error (key.refusal value) := by
  rw [ofFields_eq]
  cases key with
  | chunkSize =>
      rw [get?_of_refused found (signed_of_not_takes (.inl rfl) refused)]
      rfl
  | level =>
      rcases get?_integer (.inl rfl) (first .chunkSize (by decide)) with ⟨size, sizeRead, _⟩
      rw [sizeRead, get?_of_refused found (signed_of_not_takes (.inr rfl) refused)]
      rfl
  | path =>
      rcases get?_integer (.inl rfl) (first .chunkSize (by decide)) with ⟨size, sizeRead, _⟩
      rcases get?_integer (.inr rfl) (first .level (by decide)) with ⟨level, levelRead, _⟩
      rw [sizeRead, levelRead, get?_of_refused found (path_of_not_takes refused)]
      rfl
  | engine =>
      rcases get?_integer (.inl rfl) (first .chunkSize (by decide)) with ⟨size, sizeRead, _⟩
      rcases get?_integer (.inr rfl) (first .level (by decide)) with ⟨level, levelRead, _⟩
      rcases get?_path (first .path (by decide)) with ⟨path, pathRead, _⟩
      rw [sizeRead, levelRead, pathRead, get?_of_refused found (text_of_not_takes refused)]
      rfl

end Raw

namespace Key

/-- The keys in the order of their names. -/
def ordered : List Key :=
  [chunkSize, level, path, engine]

theorem mem_ordered (key : Key) : key ∈ ordered := by
  cases key <;> decide

theorem ordered_sorted : ordered.Pairwise fun first second => first.name < second.name := by
  decide

theorem all_or_first (backend : Fields) (keys : List Key) :
    (∀ key ∈ keys, key.Admits backend) ∨
      ∃ before key after value, keys = before ++ key :: after ∧
        (∀ earlier ∈ before, earlier.Admits backend) ∧
        backend.lookup key.name = some value ∧ ¬ key.Takes value := by
  induction keys with
  | nil => exact Or.inl nofun
  | cons key later inductionStep =>
      by_cases admits : key.Admits backend
      · rcases inductionStep with all | ⟨before, other, after, value, rfl, earlier, found⟩
        · exact Or.inl (List.forall_mem_cons.mpr ⟨admits, all⟩)
        · exact Or.inr ⟨key :: before, other, after, value, rfl,
            List.forall_mem_cons.mpr ⟨admits, earlier⟩, found⟩
      · unfold Admits at admits
        rcases Classical.not_forall.mp admits with ⟨value, refuses⟩
        rcases Classical.not_imp.mp refuses with ⟨found, refused⟩
        exact Or.inr ⟨[], key, later, value, rfl, nofun, found, refused⟩

/-- All keys take their values, or there is a first one, by name, that does not. -/
theorem all_or_first_by_name (backend : Fields) :
    (∀ key : Key, key.Admits backend) ∨
      ∃ (key : Key) (value : Value), backend.lookup key.name = some value ∧
        ¬ key.Takes value ∧
        ∀ earlier : Key, earlier.name < key.name → earlier.Admits backend := by
  rcases all_or_first backend ordered with
    all | ⟨before, key, after, value, split, admits, found, refused⟩
  · exact Or.inl fun key => all key (mem_ordered key)
  · refine Or.inr ⟨key, value, found, refused, fun earlier before' => ?_⟩
    have sorted := ordered_sorted
    have member := mem_ordered earlier
    rw [split] at sorted member
    rcases List.mem_append.mp member with first | rest
    · exact admits earlier first
    · -- The names from the key on are not before its own.
      rcases List.mem_cons.mp rest with rfl | later
      · exact absurd before' (String.lt_irrefl _)
      · have behind := (List.pairwise_append.mp sorted).2.1
        have after' := (List.pairwise_cons.mp behind).1 earlier later
        exact absurd (String.lt_trans before' after') (String.lt_irrefl _)

end Key

/-! ## Settings -/

section Settled

variable {backend : Fields}

/-- Whether the compression level is one that there is. -/
def Key.levelIsRight (backend : Fields) : Prop :=
  ∀ asked, backend.lookup Key.level.name = some (.int asked) → 0 ≤ asked ∧ asked ≤ 9

theorem level_integer (admits : Key.level.Admits backend) :
    Key.levelIsRight backend ↔
      0 ≤ Key.level.integer backend ∧ Key.level.integer backend ≤ 9 := by
  unfold Key.levelIsRight Key.integer
  cases found : backend.lookup Key.level.name with
  | none => exact ⟨fun _ => by decide, fun _ _ none => by cases none⟩
  | some value =>
      have takes := admits value found
      cases value with
      | int asked =>
          constructor
          · intro right
            exact right asked rfl
          · rintro right other same
            cases same
            exact right
      | _ => exact False.elim takes

/-- Where every key takes its value, only the level can be wrong. -/
theorem ofBackend_of_admits (admits : ∀ key : Key, key.Admits backend) :
    ofBackend backend =
      if Key.level.integer backend < 0 ∨ 9 < Key.level.integer backend then
        .error (.level (Key.level.integer backend))
      else .ok
        { chunkSize := Transit.capOf (Key.chunkSize.integer backend).toNat
          engine := .ofName ((Key.engine.text? backend).getD "")
          level := (Key.level.integer backend).toNat
          path := Key.path.text? backend } := by
  rw [ofBackend, Raw.ofFields_of_admits admits]
  rfl

/-- A value that its key does not take is reported before the level is looked at. -/
theorem ofBackend_of_refused {key : Key} {value : Value}
    (found : backend.lookup key.name = some value) (refused : ¬ key.Takes value)
    (first : ∀ earlier : Key, earlier.name < key.name → earlier.Admits backend) :
    ofBackend backend = .error (.mismatch (key.refusal value)) := by
  rw [ofBackend, Raw.ofFields_of_refused found refused first]

theorem ofBackend_of_level (admits : ∀ key : Key, key.Admits backend) {asked : Int}
    (found : backend.lookup Key.level.name = some (.int asked))
    (wrong : ¬ (0 ≤ asked ∧ asked ≤ 9)) : ofBackend backend = .error (.level asked) := by
  have same : Key.level.integer backend = asked := by rw [Key.integer, found]
  rw [ofBackend_of_admits admits, same, if_pos (by omega)]

/-- There are settings just when all keys take their values and the level is one that there is. -/
theorem ofBackend_ok_iff :
    (∃ settings, ofBackend backend = .ok settings) ↔
      (∀ key : Key, key.Admits backend) ∧ Key.levelIsRight backend := by
  constructor
  · rintro ⟨settings, ok⟩
    rcases Key.all_or_first_by_name backend with admits | ⟨key, value, found, refused, first⟩
    · refine ⟨admits, (level_integer (admits .level)).mpr ?_⟩
      rw [ofBackend_of_admits admits] at ok
      split at ok
      · cases ok
      · omega
    · rw [ofBackend_of_refused found refused first] at ok
      cases ok
  · rintro ⟨admits, right⟩
    have range := (level_integer (admits .level)).mp right
    rw [ofBackend_of_admits admits, if_neg (by omega)]
    exact ⟨_, rfl⟩

/-- What a backend object asks for as the size of a chunk: a positive number, or the default. -/
def sizeLimit (backend : Fields) : Nat :=
  if 0 < Key.chunkSize.integer backend then (Key.chunkSize.integer backend).toNat else 16384

theorem chunkSize_of_ofBackend {settings : Settings} (ok : ofBackend backend = .ok settings) :
    settings.chunkSize = sizeLimit backend := by
  rw [ofBackend_of_admits (ofBackend_ok_iff.mp ⟨settings, ok⟩).1] at ok
  split at ok
  · cases ok
  · cases ok
    unfold sizeLimit Transit.capOf
    by_cases positive : 0 < Key.chunkSize.integer backend
    · rw [if_pos positive, if_neg (by omega)]
    · rw [if_neg positive, if_pos (by omega)]
      rfl

end Settled
end Settings

/-! ## Savers without overrides -/

namespace Saver

/-- A saver to which neither settings nor an engine were given. -/
def bare : Saver where
  settings := none
  store := none

/-- When such a saver starts, its settings are those of the backend object. -/
theorem start_bare {backend : Fields} {vault later : Store.Vault} {saver : Saver}
    (started : bare.start backend vault = (.ok (), saver, later)) :
    ∃ settings engine, Settings.ofBackend backend = .ok settings ∧
      saver = ⟨some settings, some engine⟩ := by
  unfold start at started
  cases chosen : bare.choose backend with
  | error fault =>
      rw [chosen] at started
      cases started
  | ok settings =>
      have read : Settings.ofBackend backend = .ok settings := by
        unfold choose bare at chosen
        cases read : Settings.ofBackend backend with
        | error fault =>
            rw [read] at chosen
            cases chosen
        | ok found =>
            rw [read] at chosen
            change (found.validate.bind fun _ => .ok found) = .ok settings at chosen
            cases valid : found.validate with
            | error fault =>
                rw [valid] at chosen
                cases chosen
            | ok _ =>
                rw [valid] at chosen
                exact chosen
      simp only [chosen] at started
      rcases provided : bare.provide settings vault with ⟨answer, middle⟩
      rw [provided] at started
      cases answer with
      | error fault => cases started
      | ok key =>
          simp only at started
          rcases called : middle.call key .start with ⟨result, last⟩
          rw [called] at started
          cases result with
          | error fault => cases started
          | ok _ =>
              cases started
              exact ⟨settings, key, read, rfl⟩

end Saver
end MailVault
