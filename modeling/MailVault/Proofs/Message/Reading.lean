import Mathlib.Control.Monad.Basic
import MailVault.Message.Reader
import MailVault.Proofs.Store.Notes

/-!
# Reading a manifest in pieces

A reader is followed here over an engine whose chunks stay as they are.  What the engine
has is a function from digests to bytes or to a fault, and apart from that any call may
be answered with a fault that passes.  Nothing else is known of the engine, so that the
statements hold in memory, over files, and behind a wrapper that lets calls fail.

What a reader still has to hand out are the rest of the chunk in its hands and the chunks
that wait, up to the first one that is missing or of a wrong size.  Loading a chunk moves
bytes between the two and leaves these pieces as they are, also when it fails, and a read
takes its bytes off the first piece.  So the pieces that are ahead decide what a read
answers, unless the engine answers its last lookup with a fault.  A reader that has met
such faults and another one that has not are compared by their pieces.
-/

namespace MailVault

open Store (Fault Host Ledger Note)

variable {κ σ : Type}

/-! ## Engines whose chunks stay -/

/-- An engine that has these contents as long as only chunks are looked up.  `Holds` is what is
known of its state, and `Passing` tells which faults any call may be answered with. -/
structure Store.Host.Steady (host : Host κ σ) (store : κ)
    (contents : Digest → Except Fault Bytes) (Passing : Fault → Prop) (Holds : σ → Prop) :
    Prop where
  stays : ∀ digest state, Holds state → Holds (host.call store (.getChunk digest) state).2
  answers : ∀ digest state, Holds state →
    (∃ fault, Passing fault ∧
      (host.call store (.getChunk digest) state).1 = .error fault) ∨
    (host.call store (.getChunk digest) state).1.map StoredChunk.data = contents digest

/-- The bytes of the chunks of a ledger. -/
def Store.Ledger.contents (ledger : Ledger) (digest : Digest) : Except Fault Bytes :=
  (ledger.getChunk digest).map StoredChunk.data

/-- An engine that answers as a ledger does has the chunks of the ledger. -/
theorem Store.Host.AnswersAt.steady {host : Host κ σ} {store : κ}
    {Represents : σ → Ledger → Prop} (answers : host.AnswersAt store Represents)
    (ledger : Ledger) :
    host.Steady store ledger.contents (fun _ => False) (Represents · ledger) where
  stays digest state represents :=
    (answers ⟨.getChunk digest, rfl⟩ state ledger represents).2
  answers digest state represents := by
    right
    rw [(answers ⟨.getChunk digest, rfl⟩ state ledger represents).1]
    rfl

/-- Calls that fail on their way leave the contents as they are. -/
theorem Store.Host.Steady.interrupted {host : Host κ σ} {store : κ}
    {contents : Digest → Except Fault Bytes} {Passing : Fault → Prop} {Holds : σ → Prop}
    (steady : host.Steady store contents Passing Holds) (faults : Nat → Option Fault) :
    (host.interrupted faults).Steady store contents
      (fun fault => Passing fault ∨ ∃ number, faults number = some fault)
      (fun numbered => Holds numbered.inner) where
  stays digest numbered holds := by
    rcases host.interrupted_cases faults store (.getChunk digest) numbered with
      ⟨fault, _, failed⟩ | reached
    · rw [failed]
      exact holds
    · rw [reached]
      exact steady.stays digest numbered.inner holds
  answers digest numbered holds := by
    rcases host.interrupted_cases faults store (.getChunk digest) numbered with
      ⟨fault, planned, failed⟩ | reached
    · rw [failed]
      exact Or.inl ⟨fault, Or.inr ⟨_, planned⟩, rfl⟩
    · rw [reached]
      rcases steady.answers digest numbered.inner holds with ⟨fault, passing, failed⟩ | same
      · exact Or.inl ⟨fault, Or.inl passing, failed⟩
      · exact Or.inr same

/-! ## What a manifest can be read as -/

namespace Descriptor

/-- Whether a chunk is there and has the size that its descriptor tells. -/
def isIntact (contents : Digest → Except Fault Bytes) (descriptor : Descriptor) : Bool :=
  match contents descriptor.digest with
  | .error _ => false
  | .ok data => data.length = descriptor.size

/-- The bytes of a chunk that is there. -/
def dataIn (contents : Digest → Except Fault Bytes) (descriptor : Descriptor) : Bytes :=
  match contents descriptor.digest with
  | .error _ => []
  | .ok data => data

/-- What is wrong with a chunk that is not intact. -/
def flaw (contents : Digest → Except Fault Bytes) (descriptor : Descriptor) : Fault :=
  match contents descriptor.digest with
  | .error fault => fault
  | .ok data => .sizeMismatch data.length descriptor.size

theorem length_dataIn {contents : Digest → Except Fault Bytes} {descriptor : Descriptor}
    (intact : descriptor.isIntact contents = true) :
    (descriptor.dataIn contents).length = descriptor.size := by
  unfold isIntact at intact
  unfold dataIn
  cases found : contents descriptor.digest with
  | error fault =>
      rw [found] at intact
      cases intact
  | ok data =>
      rw [found] at intact
      exact of_decide_eq_true intact

end Descriptor

namespace MessageReader

variable {host : Host κ σ} {store : κ} {contents : Digest → Except Fault Bytes}
  {Passing : Fault → Prop} {Holds : σ → Prop}

/-- The bytes of the longest row of intact chunks at the front. -/
def readable (contents : Digest → Except Fault Bytes) (entries : List Descriptor) : Bytes :=
  (entries.takeWhile (Descriptor.isIntact contents)).flatMap (Descriptor.dataIn contents)

/-- The first chunk that is not intact. -/
def broken? (contents : Digest → Except Fault Bytes) (entries : List Descriptor) :
    Option Descriptor :=
  entries.find? fun descriptor => !descriptor.isIntact contents

section Readable

variable {entries : List Descriptor} {descriptor : Descriptor}

theorem readable_of_intact (intact : descriptor.isIntact contents = true) :
    readable contents (descriptor :: entries) =
      descriptor.dataIn contents ++ readable contents entries := by
  rw [readable, List.takeWhile_cons_of_pos intact, List.flatMap_cons, readable]

theorem readable_of_broken (broken : ¬ descriptor.isIntact contents = true) :
    readable contents (descriptor :: entries) = [] := by
  rw [readable, List.takeWhile_cons_of_neg broken, List.flatMap_nil]

theorem length_readable
    (intact : ∀ descriptor ∈ entries, descriptor.isIntact contents = true) :
    (readable contents entries).length = Manifest.sizeOf entries := by
  induction entries with
  | nil => rfl
  | cons descriptor later inductionStep =>
      have first := intact descriptor List.mem_cons_self
      rw [readable_of_intact first, List.length_append, Descriptor.length_dataIn first,
        inductionStep fun other member => intact other (List.mem_cons_of_mem _ member),
        Manifest.sizeOf]

theorem broken?_append (before after : List Descriptor) :
    broken? contents (before ++ after) =
      (broken? contents before).or (broken? contents after) :=
  List.find?_append

theorem broken?_of_intact (intact : descriptor.isIntact contents = true) :
    broken? contents (descriptor :: entries) = broken? contents entries :=
  List.find?_cons_of_neg (by rw [intact]; decide)

theorem broken?_of_broken (broken : ¬ descriptor.isIntact contents = true) :
    broken? contents (descriptor :: entries) = some descriptor := by
  rw [Bool.not_eq_true] at broken
  exact List.find?_cons_of_pos (by rw [broken]; rfl)

theorem broken?_eq_none_iff :
    broken? contents entries = none ↔
      ∀ descriptor ∈ entries, descriptor.isIntact contents = true := by
  simp only [broken?, List.find?_eq_none, Bool.not_eq_true', Bool.not_eq_false]

/-- Intact chunks in front do not change which chunk is the first broken one. -/
theorem broken?_of_drop {count : Nat} {later : List Descriptor}
    (intact : ∀ other ∈ entries.take count, other.isIntact contents = true)
    (waiting : entries.drop count = descriptor :: later)
    (broken : ¬ descriptor.isIntact contents = true) :
    broken? contents entries = some descriptor := by
  rw [← List.take_append_drop count entries, broken?_append, broken?_eq_none_iff.mpr intact,
    waiting, broken?_of_broken broken]
  rfl

end Readable

/-! ## Loading chunks -/

/-- The bytes that a reader can still hand out. -/
def ahead (contents : Digest → Except Fault Bytes) (reader : MessageReader κ) : Bytes :=
  reader.current ++ readable contents reader.waiting

/-- The bytes ahead as the reads come upon them: what is left of the chunk in the hands of the
reader, and then the intact chunks one by one.  Chunks without bytes are not met by any read. -/
def pieces (contents : Digest → Except Fault Bytes) (reader : MessageReader κ) : List Bytes :=
  (reader.current :: (reader.waiting.takeWhile (Descriptor.isIntact contents)).map
    (Descriptor.dataIn contents)).filter (· ≠ [])

theorem filter_of_ne_nil {piece : Bytes} (some : piece ≠ []) (later : List Bytes) :
    (piece :: later).filter (· ≠ []) = piece :: later.filter (· ≠ []) :=
  List.filter_cons_of_pos (decide_eq_true some)

theorem flatten_pieces (reader : MessageReader κ) :
    (reader.pieces contents).flatten = reader.ahead contents := by
  rw [pieces, List.flatten_filter_ne_nil, List.flatten_cons, ← List.flatMap_def, ahead, readable]

theorem ne_nil_of_mem_pieces {reader : MessageReader κ} {piece : Bytes}
    (member : piece ∈ reader.pieces contents) : piece ≠ [] :=
  of_decide_eq_true (List.mem_filter.mp member).2

/-- The reader is at some place in the manifest, and has loaded intact chunks only. -/
structure Placed (store : κ) (manifest : Manifest) (contents : Digest → Except Fault Bytes)
    (reader : MessageReader κ) : Prop where
  store_eq : reader.store = store
  manifest_eq : reader.manifest = manifest
  intact : ∀ descriptor ∈ manifest.entries.take reader.next, descriptor.isIntact contents = true

theorem Placed.waiting_eq {manifest : Manifest} {reader : MessageReader κ}
    (placed : Placed store manifest contents reader) :
    reader.waiting = manifest.entries.drop reader.next := by
  rw [waiting, placed.manifest_eq]

/-- Looking up a chunk is answered with a passing fault, with the bytes of an intact chunk, or with
the flaw of a broken one. -/
theorem fetch_cases (steady : host.Steady store contents Passing Holds)
    (descriptor : Descriptor) {state : σ} (holds : Holds state) :
    Holds (fetch host store descriptor state).2 ∧
      ((∃ fault, Passing fault ∧
          (host.call store (.getChunk descriptor.digest) state).1 = .error fault ∧
          (fetch host store descriptor state).1 = .error fault) ∨
        (descriptor.isIntact contents = true ∧
          (fetch host store descriptor state).1 = .ok (descriptor.dataIn contents)) ∨
        (¬ descriptor.isIntact contents = true ∧
          (fetch host store descriptor state).1 = .error (descriptor.flaw contents))) := by
  have stays := steady.stays descriptor.digest state holds
  have answers := steady.answers descriptor.digest state holds
  unfold fetch Descriptor.isIntact Descriptor.dataIn Descriptor.flaw
  rcases split : host.call store (.getChunk descriptor.digest) state with ⟨answer, left⟩
  rw [split] at stays answers
  cases answer with
  | error fault =>
      refine ⟨stays, ?_⟩
      rcases answers with ⟨other, passing, same⟩ | same
      · cases same
        exact Or.inl ⟨fault, passing, rfl, rfl⟩
      · rw [← same]
        exact Or.inr (Or.inr ⟨Bool.false_ne_true, rfl⟩)
  | ok chunk =>
      rcases answers with ⟨other, _, impossible⟩ | same
      · cases impossible
      · rw [← same]
        simp only [Except.map, decide_eq_true_eq]
        by_cases expected : chunk.size = descriptor.size
        · rw [if_pos expected]
          exact ⟨stays, Or.inr (Or.inl ⟨expected, rfl⟩)⟩
        · rw [if_neg expected]
          exact ⟨stays, Or.inr (Or.inr ⟨expected, rfl⟩)⟩

/-- A lookup is noted with its answer, and otherwise it is the same. -/
theorem fetch_noted (host : Host κ σ) (store : κ) (descriptor : Descriptor) (state : σ)
    (notes : List Note) :
    fetch host.noted store descriptor ⟨state, notes⟩ =
      ((fetch host store descriptor state).1, ⟨(fetch host store descriptor state).2, notes ++
        [.getChunk descriptor.digest
          (host.call store (.getChunk descriptor.digest) state).1]⟩) := by
  unfold fetch
  simp only [Host.noted, Note.of]
  rcases host.call store (.getChunk descriptor.digest) state with ⟨answer, left⟩
  cases answer with
  | error fault => rfl
  | ok chunk =>
      by_cases expected : chunk.size = descriptor.size
      · simp only [if_pos expected]
      · simp only [if_neg expected]

/-- The last of some calls has looked up the chunk that is next, and was answered with a fault. -/
def Denied (after : MessageReader κ) (calls : List Note) (fault : Fault) : Prop :=
  ∃ earlier descriptor later, after.waiting = descriptor :: later ∧
    calls = earlier ++ [.getChunk descriptor.digest (.error fault)]

theorem Denied.later {after : MessageReader κ} {calls : List Note} {fault : Fault}
    (denied : after.Denied calls fault) (note : Note) : after.Denied (note :: calls) fault := by
  rcases denied with ⟨earlier, descriptor, later, waits, rfl⟩
  exact ⟨note :: earlier, descriptor, later, waits, rfl⟩

/-- What loading leaves and answers, and the calls that it makes. -/
structure Loaded (store : κ) (manifest : Manifest) (contents : Digest → Except Fault Bytes)
    (Passing : Fault → Prop) (reader : MessageReader κ) (answer : Except Fault Unit)
    (after : MessageReader κ) (calls : List Note) : Prop where
  placed : Placed store manifest contents after
  /-- Bytes only move from the chunks that wait to the hands of the reader. -/
  pieces_eq : after.pieces contents = reader.pieces contents
  ended : answer = .ok () → after.current = [] → after.waiting = []
  /-- A fault is the answer to the last call, or it belongs to the chunk that is next. -/
  failed : ∀ fault, answer = .error fault → (Passing fault ∧ after.Denied calls fault) ∨
    after.current = [] ∧ ∃ descriptor later, after.waiting = descriptor :: later ∧
      ¬ descriptor.isIntact contents = true ∧ fault = descriptor.flaw contents

/-- The chunk that waits first, when it is intact, is taken into the hands of the reader. -/
theorem Placed.taken {manifest : Manifest} {reader : MessageReader κ} {descriptor : Descriptor}
    {later : List Descriptor} (placed : Placed store manifest contents reader)
    (waits : reader.waiting = descriptor :: later) (empty : reader.current = [])
    (intact : descriptor.isIntact contents = true) :
    let after : MessageReader κ :=
      { reader with next := reader.next + 1, current := descriptor.dataIn contents }
    Placed store manifest contents after ∧ after.waiting = later ∧
      after.pieces contents = reader.pieces contents := by
  intro after
  have waited := placed.waiting_eq.symm.trans waits
  have rest : after.waiting = later := by
    change reader.manifest.entries.drop (reader.next + 1) = later
    rw [placed.manifest_eq, ← List.drop_drop, waited, List.drop_one, List.tail_cons]
  refine ⟨⟨placed.store_eq, placed.manifest_eq, fun other member => ?_⟩, rest, ?_⟩
  · have entry : manifest.entries[reader.next]? = some descriptor := by
      rw [← List.head?_drop, waited, List.head?_cons]
    rw [List.take_add_one, entry, List.mem_append, Option.mem_toList] at member
    rcases member with before | same
    · exact placed.intact other before
    · cases same
      exact intact
  · rw [pieces, pieces, rest, waits, empty, List.takeWhile_cons_of_pos intact]
    rfl

/-- Loading goes over the chunks that wait until one has bytes.  A host that notes its calls is
loaded from in the same way. -/
theorem loadFrom_loaded (steady : host.Steady store contents Passing Holds)
    {manifest : Manifest} (waiting : List Descriptor) {reader : MessageReader κ} {state : σ}
    (waits : reader.waiting = waiting) (empty : reader.current = [])
    (placed : Placed store manifest contents reader) (holds : Holds state) (notes : List Note) :
    let (answer, after, left) := loadFrom host waiting reader state
    Holds left ∧ ∃ calls, Loaded store manifest contents Passing reader answer after calls ∧
      loadFrom host.noted waiting reader ⟨state, notes⟩ =
        (answer, after, ⟨left, notes ++ calls⟩) := by
  induction waiting generalizing reader state notes with
  | nil =>
      refine ⟨holds, [], ⟨placed, rfl, fun _ _ => waits, nofun⟩, ?_⟩
      rw [List.append_nil]
      rfl
  | cons descriptor later inductionStep =>
      rcases fetch_cases steady descriptor holds with ⟨stays, fetched⟩
      have noted := fetch_noted host reader.store descriptor state notes
      rw [← placed.store_eq] at stays fetched
      unfold loadFrom
      rw [noted]
      generalize (host.call reader.store (.getChunk descriptor.digest) state).1 = reply at *
      rcases split : fetch host reader.store descriptor state with ⟨answer, left⟩
      rw [split] at stays fetched
      rcases fetched with ⟨fault, passing, denied, failed⟩ | ⟨intact, found⟩ | ⟨broken, failed⟩
      · cases failed
        refine ⟨stays, _, ⟨placed, rfl, nofun, fun other same => ?_⟩, rfl⟩
        cases same
        exact Or.inl ⟨passing, [], descriptor, later, waits, by rw [denied]; rfl⟩
      · cases found
        rcases placed.taken waits empty intact with ⟨kept, rest, unmoved⟩
        by_cases nothing : descriptor.dataIn contents = []
        · simp only [if_pos nothing]
          rcases inductionStep rest nothing kept stays
            (notes ++ [.getChunk descriptor.digest reply]) with ⟨holds', calls, loaded, same⟩
          refine ⟨holds', .getChunk descriptor.digest reply :: calls, ⟨loaded.placed,
            loaded.pieces_eq.trans unmoved, loaded.ended, fun fault failed => ?_⟩, ?_⟩
          · rcases loaded.failed fault failed with ⟨passing, denied⟩ | stopped
            · exact Or.inl ⟨passing, denied.later _⟩
            · exact Or.inr stopped
          · rw [same, List.append_assoc]
            rfl
        · simp only [if_neg nothing]
          exact ⟨stays, _, ⟨kept, unmoved, fun _ none => absurd none nothing, nofun⟩, rfl⟩
      · cases failed
        refine ⟨stays, _, ⟨placed, rfl, nofun, fun other same => ?_⟩, rfl⟩
        cases same
        exact Or.inr ⟨empty, descriptor, later, waits, broken, rfl⟩

/-- A reader that has bytes in its hands loads none. -/
theorem load_loaded (steady : host.Steady store contents Passing Holds) {manifest : Manifest}
    {reader : MessageReader κ} (placed : Placed store manifest contents reader) {state : σ}
    (holds : Holds state) (notes : List Note) :
    let (answer, after, left) := reader.load host state
    Holds left ∧ ∃ calls, Loaded store manifest contents Passing reader answer after calls ∧
      reader.load host.noted ⟨state, notes⟩ = (answer, after, ⟨left, notes ++ calls⟩) := by
  unfold load
  by_cases empty : reader.current = []
  · rw [if_pos empty, if_pos empty]
    exact loadFrom_loaded steady reader.waiting rfl empty placed holds notes
  · rw [if_neg empty, if_neg empty]
    refine ⟨holds, [], ⟨placed, rfl, fun _ none => absurd none empty, nofun⟩, ?_⟩
    rw [List.append_nil]

/-! ## One read -/

/-- What a read of this size takes off the front of a row of pieces, and what it leaves. -/
def serve (most : Nat) : List Bytes → Bytes × List Bytes
  | [] => ([], [])
  | piece :: later =>
    (piece.take most, if piece.drop most = [] then later else piece.drop most :: later)

theorem length_serve_le (most : Nat) (pieces : List Bytes) :
    (serve most pieces).1.length ≤ most := by
  cases pieces with
  | nil => exact Nat.zero_le most
  | cons piece later => exact List.length_take_le most piece

/-- What is taken and what is left are the same bytes as before. -/
theorem serve_append (most : Nat) (pieces : List Bytes) :
    (serve most pieces).1 ++ (serve most pieces).2.flatten = pieces.flatten := by
  cases pieces with
  | nil => rfl
  | cons piece later =>
      rw [serve, List.flatten_cons]
      by_cases all : piece.drop most = []
      · rw [if_pos all, List.take_of_length_le (List.drop_eq_nil_iff.mp all)]
      · rw [if_neg all, List.flatten_cons, ← List.append_assoc, List.take_append_drop]

theorem serve_zero {pieces : List Bytes} (filled : ∀ piece ∈ pieces, piece ≠ []) :
    serve 0 pieces = ([], pieces) := by
  cases pieces with
  | nil => rfl
  | cons piece later =>
      have some : ¬ piece.drop 0 = [] := filled piece List.mem_cons_self
      rw [serve, if_neg some, List.take_zero, List.drop_zero]

/-- A reader that has bytes in its hands, unless no chunk waits, hands them out as its first
piece. -/
theorem serve_pieces {reader : MessageReader κ} (ended : reader.current = [] → reader.waiting = [])
    (most : Nat) :
    let after : MessageReader κ := { reader with current := reader.current.drop most }
    serve most (reader.pieces contents) = (reader.current.take most, after.pieces contents) := by
  intro after
  have waits : after.waiting = reader.waiting := rfl
  have left : after.current = reader.current.drop most := rfl
  by_cases empty : reader.current = []
  · rw [pieces, pieces, waits, left, empty, ended empty, List.drop_nil, List.take_nil]
    rfl
  · rw [pieces, pieces, waits, left, filter_of_ne_nil empty, serve]
    by_cases all : reader.current.drop most = []
    · rw [if_pos all, all]
      rfl
    · rw [if_neg all, filter_of_ne_nil all]

/-- The calls that a read makes, with their answers. -/
def lookups (reader : MessageReader κ) (host : Host κ σ) (most : Nat) (state : σ) : List Note :=
  (reader.read host.noted most ⟨state, []⟩).2.2.notes

/-- What a read leaves and answers, and the calls that it makes. -/
structure Step (store : κ) (manifest : Manifest) (contents : Digest → Except Fault Bytes)
    (Passing : Fault → Prop) (reader : MessageReader κ) (most : Nat)
    (answer : Except Fault Bytes) (after : MessageReader κ) (calls : List Note) : Prop where
  placed : Placed store manifest contents after
  /-- The bytes of a successful read come off the front, and a failed one takes none. -/
  served : ∀ data, answer = .ok data →
    serve most (reader.pieces contents) = (data, after.pieces contents)
  unmoved : ∀ fault, answer = .error fault → after.pieces contents = reader.pieces contents
  /-- No bytes for a read that asked for some mean that no chunk is left. -/
  ended : 0 < most → answer = .ok [] → reader.ahead contents = [] ∧
    ∀ descriptor ∈ manifest.entries, descriptor.isIntact contents = true
  asked : ∀ fault, answer = .error fault → 0 < most
  failed : ∀ fault, answer = .error fault → (Passing fault ∧ after.Denied calls fault) ∨
    reader.ahead contents = [] ∧ ∃ descriptor,
      broken? contents manifest.entries = some descriptor ∧ fault = descriptor.flaw contents

/-- Every read is such a step. -/
theorem read_step (steady : host.Steady store contents Passing Holds) {manifest : Manifest}
    {reader : MessageReader κ} (placed : Placed store manifest contents reader) (most : Nat)
    {state : σ} (holds : Holds state) :
    Step store manifest contents Passing reader most (reader.read host most state).1
        (reader.read host most state).2.1 (reader.lookups host most state) ∧
      Holds (reader.read host most state).2.2 := by
  unfold lookups read
  by_cases zero : most = 0
  · rw [if_pos zero, if_pos zero]
    refine ⟨⟨placed, fun data same => ?_, nofun, fun some => absurd zero (Nat.ne_of_gt some),
      nofun, nofun⟩, holds⟩
    cases same
    rw [zero]
    exact serve_zero fun piece => ne_nil_of_mem_pieces
  · rw [if_neg zero, if_neg zero]
    have loading := load_loaded steady placed holds []
    rcases split : reader.load host state with ⟨answer, after, left⟩
    rw [split] at loading
    rcases loading with ⟨stays, calls, loaded, noted⟩
    have ahead_eq : after.ahead contents = reader.ahead contents := by
      rw [← flatten_pieces, loaded.pieces_eq, flatten_pieces]
    rw [noted]
    cases answer with
    | error fault =>
        refine ⟨⟨loaded.placed, nofun, fun _ _ => loaded.pieces_eq, nofun,
          fun _ _ => Nat.pos_of_ne_zero zero, fun other same => ?_⟩, stays⟩
        cases same
        rcases loaded.failed fault rfl with
          denied | ⟨empty, descriptor, later, waits, broken, flawed⟩
        · exact Or.inl denied
        · refine Or.inr ⟨?_, descriptor, ?_, flawed⟩
          · rw [← ahead_eq, ahead, empty, waits, readable_of_broken broken, List.append_nil]
          · exact broken?_of_drop loaded.placed.intact (loaded.placed.waiting_eq.symm.trans waits)
              broken
    | ok _ =>
        refine ⟨⟨⟨loaded.placed.store_eq, loaded.placed.manifest_eq, loaded.placed.intact⟩,
          fun data same => ?_, nofun, fun some none => ?_, nofun, nofun⟩, stays⟩
        · cases same
          rw [← loaded.pieces_eq]
          exact serve_pieces (loaded.ended rfl) most
        · have empty : after.current = [] :=
            (List.take_eq_nil_iff.mp (Except.ok.inj none)).resolve_left zero
          have ended := loaded.ended rfl empty
          refine ⟨?_, fun descriptor member => loaded.placed.intact descriptor ?_⟩
          · rw [← ahead_eq, ahead, empty, ended]
            rfl
          · rw [List.take_of_length_le (List.drop_eq_nil_iff.mp
              (loaded.placed.waiting_eq.symm.trans ended))]
            exact member

namespace Step

variable {manifest : Manifest} {reader after : MessageReader κ} {most : Nat}
  {answer : Except Fault Bytes} {calls : List Note}

/-- The bytes that a read hands out are off the front of those that were ahead. -/
theorem taken (step : Step store manifest contents Passing reader most answer after calls)
    {data : Bytes} (ok : answer = .ok data) :
    data.length ≤ most ∧ data ++ after.ahead contents = reader.ahead contents := by
  have served := step.served data ok
  have short := length_serve_le most (reader.pieces contents)
  have front := serve_append most (reader.pieces contents)
  rw [served] at short front
  rw [flatten_pieces, flatten_pieces] at front
  exact ⟨short, front⟩

theorem ahead_of_error
    (step : Step store manifest contents Passing reader most answer after calls) {fault : Fault}
    (failed : answer = .error fault) : after.ahead contents = reader.ahead contents := by
  rw [← flatten_pieces, step.unmoved fault failed, flatten_pieces]

/-- A read that asks for bytes fails when there are none in front of the first broken chunk. -/
theorem fails_at_broken
    (step : Step store manifest contents Passing reader most answer after calls)
    (nothing : reader.ahead contents = []) {descriptor : Descriptor}
    (broken : broken? contents manifest.entries = some descriptor) (some : 0 < most) :
    ∃ fault, answer = .error fault ∧
      (Passing fault ∧ after.Denied calls fault ∨ fault = descriptor.flaw contents) := by
  cases result : answer with
  | ok data =>
      -- There are no bytes, so that the answer would tell that all chunks are intact.
      have front := (step.taken result).2
      rw [nothing, List.append_eq_nil_iff] at front
      rw [front.1] at result
      have intact := (step.ended some result).2 descriptor (List.mem_of_find?_eq_some broken)
      have isBroken := List.find?_some broken
      rw [intact] at isBroken
      cases isBroken
  | error fault =>
      refine ⟨fault, rfl, ?_⟩
      rcases step.failed fault result with denied | ⟨_, other, found, flawed⟩
      · exact Or.inl denied
      · rw [broken] at found
        cases found
        exact Or.inr flawed

/-- Of two readers that have the same pieces ahead, one may be denied a chunk.  Otherwise they answer
in the same way. -/
theorem alike {ι : Type} {shop : ι} {twin twinAfter : MessageReader ι}
    {other : Except Fault Bytes} {others : List Note}
    (step : Step store manifest contents Passing reader most answer after calls)
    (calm : Step shop manifest contents (fun _ => False) twin most other twinAfter others)
    (abreast : twin.pieces contents = reader.pieces contents) :
    (∀ data, answer = .ok data →
        other = .ok data ∧ twinAfter.pieces contents = after.pieces contents) ∧
      ∀ fault, answer = .error fault →
        Passing fault ∧ after.Denied calls fault ∨ other = .error fault := by
  have ahead : twin.ahead contents = reader.ahead contents := by
    rw [← flatten_pieces, abreast, flatten_pieces]
  constructor
  · intro data ok
    cases result : other with
    | ok given =>
        have served := calm.served given result
        rw [abreast, step.served data ok] at served
        rcases Prod.mk.inj served with ⟨rfl, still⟩
        exact ⟨rfl, still.symm⟩
    | error fault =>
        rcases calm.failed fault result with ⟨⟨⟩, _⟩ | ⟨nothing, descriptor, broken, _⟩
        rcases step.fails_at_broken (ahead.symm.trans nothing) broken (calm.asked fault result)
          with ⟨_, failed, _⟩
        rw [ok] at failed
        cases failed
  · intro fault failed
    rcases step.failed fault failed with denied | ⟨nothing, descriptor, broken, flawed⟩
    · exact Or.inl denied
    · rcases calm.fails_at_broken (ahead.trans nothing) broken (step.asked fault failed) with
        ⟨_, same, ⟨⟨⟩, _⟩ | rfl⟩
      exact Or.inr (flawed ▸ same)

end Step

/-! ## Reads in a row -/

/-- A row of reads of these sizes: what they answer, and what they leave. -/
def reads (host : Host κ σ) :
    List Nat → MessageReader κ → σ → List (Except Fault Bytes) × MessageReader κ × σ
  | [], reader, state => ([], reader, state)
  | most :: later, reader, state =>
    match reader.read host most state with
    | (answer, reader, state) =>
      match reads host later reader state with
      | (answers, reader, state) => (answer :: answers, reader, state)

def delivered (answers : List (Except Fault Bytes)) : Bytes :=
  answers.flatMap fun answer => answer.toOption.getD []

/-- The sizes of the reads that did not fail. -/
def answered (sizes : List Nat) (answers : List (Except Fault Bytes)) : List Nat :=
  ((sizes.zip answers).filter fun read => read.2.isOk).map Prod.fst

/-- What a row of reads hands out, and what is ahead after it, are what was ahead before. -/
theorem reads_spec (steady : host.Steady store contents Passing Holds) {manifest : Manifest}
    (sizes : List Nat) {reader : MessageReader κ} {state : σ}
    (placed : Placed store manifest contents reader) (holds : Holds state) :
    let outcome := reads host sizes reader state
    Placed store manifest contents outcome.2.1 ∧ Holds outcome.2.2 ∧
      delivered outcome.1 ++ outcome.2.1.ahead contents = reader.ahead contents := by
  induction sizes generalizing reader state with
  | nil => exact ⟨placed, holds, rfl⟩
  | cons most later inductionStep =>
      rcases read_step steady placed most holds with ⟨step, stays⟩
      rcases inductionStep step.placed stays with ⟨kept, holds', same⟩
      refine ⟨kept, holds', ?_⟩
      change ((reader.read host most state).1.toOption.getD [] ++
        delivered (reads host later (reader.read host most state).2.1 _).1) ++ _ = _
      rw [List.append_assoc]
      refine (congrArg _ same).trans ?_
      cases answer : (reader.read host most state).1 with
      | error fault => exact step.ahead_of_error answer
      | ok data => exact (step.taken answer).2

/-- The reads that did not fail are answered in the same way by an engine that is asked for nothing
else and never fails, and what is ahead after them is the same. -/
theorem reads_alike (steady : host.Steady store contents Passing Holds) {ι ρ : Type}
    {other : Host ι ρ} {shop : ι} {Fit : ρ → Prop}
    (calm : other.Steady shop contents (fun _ => False) Fit) {manifest : Manifest}
    (sizes : List Nat) {reader : MessageReader κ} {twin : MessageReader ι} {state : σ} {now : ρ}
    (placed : Placed store manifest contents reader)
    (twinPlaced : Placed shop manifest contents twin) (holds : Holds state) (fit : Fit now)
    (abreast : twin.pieces contents = reader.pieces contents) :
    let run := reads host sizes reader state
    let quiet := reads other (answered sizes run.1) twin now
    quiet.1 = run.1.filter Except.isOk ∧
      quiet.2.1.pieces contents = run.2.1.pieces contents := by
  induction sizes generalizing reader twin state now with
  | nil => exact ⟨rfl, abreast⟩
  | cons most later inductionStep =>
      rcases read_step steady placed most holds with ⟨step, stays⟩
      simp only [reads]
      rcases first : reader.read host most state with ⟨answer, after, left⟩
      rw [first] at step stays
      cases answer with
      | error fault =>
          -- The other engine is not asked for this read, and the pieces are still the same.
          exact inductionStep step.placed twinPlaced stays fit
            (abreast.trans (step.unmoved fault rfl).symm)
      | ok data =>
          rcases read_step calm twinPlaced most fit with ⟨twinStep, fits⟩
          rcases (step.alike twinStep abreast).1 data rfl with ⟨same, still⟩
          rcases second : twin.read other most now with ⟨twinAnswer, twinAfter, rest⟩
          rw [second] at twinStep fits same still
          subst same
          have sizes : answered (most :: later) (.ok data :: (reads host later after left).1) =
              most :: answered later (reads host later after left).1 := rfl
          rcases inductionStep step.placed twinStep.placed stays fits still with ⟨answers, last⟩
          simp only [sizes, reads, second]
          exact ⟨congrArg (Except.ok data :: ·) answers, last⟩

/-- A new reader has the readable bytes of its manifest ahead. -/
theorem placed_ofManifest (store : κ) (manifest : Manifest)
    (contents : Digest → Except Fault Bytes) :
    Placed store manifest contents (ofManifest store manifest) where
  store_eq := rfl
  manifest_eq := rfl
  intact := by
    intro descriptor member
    cases member

theorem ahead_ofManifest (store : κ) (manifest : Manifest)
    (contents : Digest → Except Fault Bytes) :
    (ofManifest store manifest).ahead contents = readable contents manifest.entries := rfl

/-- Reads of any sizes follow the readable bytes of a manifest.  What was handed out is always a
prefix of them, and a read that asks for bytes and gets none tells the end of an intact manifest.
A read fails only when the engine answers its last lookup with a passing fault, or when the next
chunk is broken and the bytes in front of it are all handed out; from then on every read that asks
for bytes fails, for that chunk or with a passing fault.  A read that fails takes nothing away from
the reads after it: an engine that never fails, asked only for the other ones, gives the same
answers, and the same one to the next read. -/
theorem reads_follow_manifest (steady : host.Steady store contents Passing Holds)
    (manifest : Manifest) {state : σ} (holds : Holds state) (sizes : List Nat) (most : Nat) :
    let whole := readable contents manifest.entries
    let run := reads host sizes (ofManifest store manifest) state
    let next := run.2.1.read host most run.2.2
    let asked := run.2.1.lookups host most run.2.2
    delivered run.1 <+: whole ∧
      (∀ data, next.1 = .ok data →
        data.length ≤ most ∧ delivered run.1 ++ data <+: whole ∧
          (0 < most → data = [] →
            (∀ descriptor ∈ manifest.entries, descriptor.isIntact contents = true) ∧
              delivered run.1 = whole ∧
              (delivered run.1).length = (ofManifest store manifest).totalSize)) ∧
      (∀ fault, next.1 = .error fault →
        (∀ later, delivered run.1 ++ delivered (reads host later next.2.1 next.2.2).1 <+: whole) ∧
          (Passing fault ∧ next.2.1.Denied asked fault ∨ delivered run.1 = whole ∧
            ∃ descriptor, broken? contents manifest.entries = some descriptor ∧
              fault = descriptor.flaw contents)) ∧
      (∀ descriptor, broken? contents manifest.entries = some descriptor →
        delivered run.1 = whole → ∀ later further, 0 < further →
          let reached := reads host later run.2.1 run.2.2
          let last := reached.2.1.read host further reached.2.2
          ∃ fault, last.1 = .error fault ∧
            (Passing fault ∧ last.2.1.Denied (reached.2.1.lookups host further reached.2.2) fault ∨
              fault = descriptor.flaw contents)) ∧
      ∀ {ι ρ : Type} (other : Host ι ρ) (shop : ι) (Fit : ρ → Prop) (now : ρ),
        other.Steady shop contents (fun _ => False) Fit → Fit now →
        let quiet := reads other (answered sizes run.1) (ofManifest shop manifest) now
        quiet.1 = run.1.filter Except.isOk ∧
          (next.1 = (quiet.2.1.read other most quiet.2.2).1 ∨
            ∃ fault, next.1 = .error fault ∧ Passing fault ∧ next.2.1.Denied asked fault) := by
  intro whole run next asked
  rcases reads_spec steady sizes (placed_ofManifest store manifest contents) holds with
    ⟨placed, stays, account⟩
  rw [ahead_ofManifest] at account
  rcases read_step steady placed most stays with ⟨step, stays'⟩
  refine ⟨⟨_, account⟩, fun data answer => ?_, fun fault answer => ⟨fun later => ?_, ?_⟩, ?_, ?_⟩
  · rcases step.taken answer with ⟨short, front⟩
    refine ⟨short, ⟨next.2.1.ahead contents, ?_⟩, fun some none => ?_⟩
    · rw [List.append_assoc, front]
      exact account
    · rcases step.ended some (none ▸ answer) with ⟨nothing, intact⟩
      rw [nothing, List.append_nil] at account
      refine ⟨intact, account, ?_⟩
      rw [account]
      exact length_readable intact
  · rcases reads_spec steady later step.placed stays' with ⟨_, _, further⟩
    rw [step.ahead_of_error answer] at further
    refine ⟨(reads host later next.2.1 next.2.2).2.1.ahead contents, ?_⟩
    rw [List.append_assoc, further]
    exact account
  · rcases step.failed fault answer with denied | ⟨nothing, flawed⟩
    · exact Or.inl denied
    · rw [nothing, List.append_nil] at account
      exact Or.inr ⟨account, flawed⟩
  · intro descriptor broken reaches later further some reached last
    have nothing : run.2.1.ahead contents = [] := by
      rw [reaches] at account
      exact List.append_right_eq_self.mp account
    rcases reads_spec steady later placed stays with ⟨placed', stays'', rest⟩
    rw [nothing, List.append_eq_nil_iff] at rest
    exact (read_step steady placed' further stays'').1.fails_at_broken rest.2 broken some
  · intro ι ρ other shop Fit now calm fit quiet
    have quietPlaced := placed_ofManifest shop manifest contents
    rcases reads_alike steady calm sizes (placed_ofManifest store manifest contents) quietPlaced
      holds fit rfl with ⟨same, abreast⟩
    rcases reads_spec calm (answered sizes run.1) quietPlaced fit with ⟨quietPlaced', fits, _⟩
    rcases step.alike (read_step calm quietPlaced' most fits).1 abreast with ⟨onOk, onError⟩
    refine ⟨same, ?_⟩
    cases answer : next.1 with
    | ok data => exact Or.inl (onOk data answer).1.symm
    | error fault =>
        rcases onError fault answer with ⟨passing, denied⟩ | failed
        · exact Or.inr ⟨fault, rfl, passing, denied⟩
        · exact Or.inl failed.symm

def uniform (byte : UInt8) : Digest :=
  ⟨List.replicate 32 byte, List.length_replicate⟩

/-- A vault with one empty engine in memory. -/
def shelf : Store.Vault :=
  (Store.Vault.empty.add (.volatile (Store.Volatile.new 6))).2

/-- The engine is given a chunk of three bytes and one without bytes. -/
def stocking : List Store.Request :=
  [⟨.addChunk (uniform 1) [1, 2, 3], rfl⟩, ⟨.addChunk (uniform 0) [], rfl⟩]

/-- The vault after that, before any chunk is looked up. -/
def stocked : Store.Numbered Store.Vault where
  calls := 0
  inner := Store.Vault.host.after ⟨0⟩ stocking shelf

/-- The first chunk is named twice with the empty one between, and then with a size that is
wrong. -/
def damaged : Manifest where
  entries :=
    [{ digest := uniform 1, size := 3, part := "1" }, { digest := uniform 0, size := 0, part := "1" },
      { digest := uniform 1, size := 3, part := "1" }, { digest := uniform 1, size := 9, part := "1" }]

/-- The call on the vault that does not reach the engine. -/
def slip (number : Nat) : Option Fault :=
  if number = 1 then some .notInitialized else none

/-- Three bytes are handed out before the call that fails on its way, and three after it.  Then the
chunk of the wrong size stops the reads; without that chunk they end at the total size.  The engine
itself gives the same answers when it is asked for the successful reads only. -/
theorem reads_follow_damaged :
    let host := Store.Vault.host.interrupted slip
    let first := reads host [2, 5] (ofManifest ⟨0⟩ damaged) stocked
    let failing := first.2.1.read host 4 first.2.2
    let last := reads host [2, 5, 4, 4] (ofManifest ⟨0⟩ damaged) stocked
    let quiet := reads Store.Vault.host [2, 5, 4] (ofManifest ⟨0⟩ damaged) stocked.inner
    let all := reads host [2, 5, 4, 4] (ofManifest ⟨0⟩ ⟨damaged.entries.take 3⟩) stocked
    failing.1 = .error .notInitialized ∧
      (∀ later, [1, 2, 3] ++ delivered (reads host later failing.2.1 failing.2.2).1 <+:
        [1, 2, 3, 1, 2, 3]) ∧
      failing.2.1.Denied (first.2.1.lookups host 4 first.2.2) .notInitialized ∧
      delivered last.1 = [1, 2, 3, 1, 2, 3] ∧
      (∀ later, let reached := reads host later last.2.1 last.2.2
        ∃ fault, (reached.2.1.read host 4 reached.2.2).1 = .error fault ∧
          (fault = .notInitialized ∨ fault = .sizeMismatch 3 9)) ∧
      quiet.1 = last.1.filter Except.isOk ∧
      (all.2.1.read host 4 all.2.2).1 = .ok [] ∧ (delivered all.1).length = 6 := by
  intro host first failing last quiet all
  have keeps : shelf.Keeps ⟨0⟩ Ledger.empty :=
    .memory (Store.Volatile.new 6) rfl (Store.Volatile.represents_new 6)
  have calm := (Store.Vault.answersAt ⟨0⟩).steady
    (Ledger.host.after () stocking Ledger.empty)
  have steady := calm.interrupted slip
  have holds : stocked.inner.Keeps ⟨0⟩ (Ledger.host.after () stocking Ledger.empty) :=
    (Store.Vault.answersAt ⟨0⟩).after keeps stocking
  have front : delivered first.1 = [1, 2, 3] := by decide +kernel
  have whole : readable (Ledger.host.after () stocking Ledger.empty).contents damaged.entries =
      [1, 2, 3, 1, 2, 3] := by decide +kernel
  have fails : failing.1 = .error .notInitialized := by decide +kernel
  have complete : delivered last.1 = [1, 2, 3, 1, 2, 3] := by decide +kernel
  have succeeded : answered [2, 5, 4, 4] last.1 = [2, 5, 4] := by decide +kernel
  have ends : (all.2.1.read host 4 all.2.2).1 = .ok [] := by decide +kernel
  rcases (reads_follow_manifest steady damaged holds [2, 5] 4).2.2.1 _ fails with
    ⟨continues, because⟩
  rcases reads_follow_manifest steady damaged holds [2, 5, 4, 4] 4 with
    ⟨_, _, _, stops, forgotten⟩
  rw [whole, front] at continues because
  refine ⟨fails, continues, ?_, complete, fun later => ?_, ?_, ends, ?_⟩
  · rcases because with ⟨_, denied⟩ | ⟨early, _⟩
    · exact denied
    · cases early
  · rcases stops { digest := uniform 1, size := 9, part := "1" } (by decide +kernel) complete later
      4 (by decide) with ⟨fault, failed, ⟨⟨⟨⟩⟩ | ⟨number, planned⟩, _⟩ | flawed⟩
    · refine ⟨fault, failed, Or.inl ?_⟩
      unfold slip at planned
      split at planned
      · exact (Option.some.inj planned).symm
      · cases planned
    · exact ⟨fault, failed, Or.inr flawed⟩
  · have answers := (forgotten Store.Vault.host ⟨0⟩ _ _ calm holds).1
    rwa [succeeded] at answers
  · exact (((reads_follow_manifest steady _ holds [2, 5, 4, 4] 4).2.1 [] ends).2.2
      (by decide) rfl).2.2

end MessageReader
end MailVault
