import Mathlib.Data.List.TakeWhile
import MailVault.Proofs.Message.Reading
import MailVault.Proofs.Store.Reachable

/-!
# Two ways to read a message

A message can be collected at once, or handed out by a reader until its end.  Both go
through the chunks of one manifest, but only the reader looks at the sizes in it.  So
they differ on manifests with wrong sizes, and nowhere else.

Where the reader stops is the first chunk that is missing or of a wrong size, and where
collecting stops is the first chunk that is missing.  A row of chunks is therefore cut
twice, at the first missing chunk and in front of it at the first wrong size.  What the
two ways answer is read off from these cuts, in whatever order the faults come.
-/

namespace MailVault

open Store (Fault Host Ledger Vault EngineKey)

variable {κ σ : Type}

/-! ## Rows of chunks -/

/-- The bytes of all chunks in a row, or the fault of the first one that is missing. -/
def collect (contents : Digest → Except Fault Bytes) : List Descriptor → Except Fault Bytes
  | [] => .ok []
  | descriptor :: later =>
    (contents descriptor.digest).bind fun data => (collect contents later).map (data ++ ·)

/-- The fault at which a reader stops. -/
def stop? (contents : Digest → Except Fault Bytes) (entries : List Descriptor) : Option Fault :=
  (MessageReader.broken? contents entries).map (Descriptor.flaw contents)

/-- The first descriptor of a row that tells another size than that of the stored chunk.  The
chunks before it are stored and have the sizes that their descriptors tell. -/
structure FirstMisfit (stored : Digest → Except Fault StoredChunk) (entries : List Descriptor)
    (before : List Descriptor) (descriptor : Descriptor) (chunk : StoredChunk) : Prop where
  split : ∃ after, entries = before ++ descriptor :: after
  found : stored descriptor.digest = .ok chunk
  differs : chunk.size ≠ descriptor.size
  fit : ∀ earlier ∈ before, ∃ other,
    stored earlier.digest = .ok other ∧ other.size = earlier.size

section Rows

variable {contents : Digest → Except Fault Bytes} {entries : List Descriptor}

/-- Either all chunks of a row are there, and their bytes are collected, or collecting fails for
the first one that is missing. -/
theorem collect_cases (contents : Digest → Except Fault Bytes) (entries : List Descriptor) :
    ((∀ entry ∈ entries, ∃ data, contents entry.digest = .ok data) ∧
      collect contents entries = .ok (entries.flatMap (Descriptor.dataIn contents))) ∨
    ∃ present missing after fault, entries = present ++ missing :: after ∧
      (∀ entry ∈ present, ∃ data, contents entry.digest = .ok data) ∧
      contents missing.digest = .error fault ∧ collect contents entries = .error fault := by
  induction entries with
  | nil => exact Or.inl ⟨nofun, rfl⟩
  | cons descriptor later inductionStep =>
      cases found : contents descriptor.digest with
      | error fault =>
          refine Or.inr ⟨[], descriptor, later, fault, rfl, nofun, found, ?_⟩
          rw [collect, found]
          rfl
      | ok data =>
          have bytes : descriptor.dataIn contents = data := by
            rw [Descriptor.dataIn, found]
          rcases inductionStep with
            ⟨all, collected⟩ | ⟨present, missing, after, fault, split, before, here, failed⟩
          · refine Or.inl ⟨List.forall_mem_cons.mpr ⟨⟨data, found⟩, all⟩, ?_⟩
            rw [collect, found, collected, List.flatMap_cons, bytes]
            rfl
          · refine Or.inr ⟨descriptor :: present, missing, after, fault, ?_,
              List.forall_mem_cons.mpr ⟨⟨data, found⟩, before⟩, here, ?_⟩
            · rw [split, List.cons_append]
            · rw [collect, found, failed]
              rfl

theorem exists_of_isIntact {descriptor : Descriptor}
    (intact : descriptor.isIntact contents = true) :
    ∃ data, contents descriptor.digest = .ok data := by
  unfold Descriptor.isIntact at intact
  cases found : contents descriptor.digest with
  | ok data => exact ⟨data, rfl⟩
  | error fault =>
      rw [found] at intact
      cases intact

theorem collect_of_intact (intact : ∀ entry ∈ entries, entry.isIntact contents = true) :
    collect contents entries = .ok (entries.flatMap (Descriptor.dataIn contents)) := by
  rcases collect_cases contents entries with
    ⟨_, collected⟩ | ⟨present, missing, after, fault, split, _, here, _⟩
  · exact collected
  · have member : missing ∈ entries := by
      rw [split]
      exact List.mem_append_right present List.mem_cons_self
    rcases exists_of_isIntact (intact missing member) with ⟨data, found⟩
    rw [here] at found
    cases found

theorem collect_of_unbroken (unbroken : MessageReader.broken? contents entries = none) :
    collect contents entries = .ok (MessageReader.readable contents entries) ∧
      (MessageReader.readable contents entries).length = Manifest.sizeOf entries := by
  have intact := MessageReader.broken?_eq_none_iff.mp unbroken
  refine ⟨?_, MessageReader.length_readable intact⟩
  rw [collect_of_intact intact, MessageReader.readable, List.takeWhile_eq_self_iff.mpr intact]

theorem readable_eq_of_split {before : List Descriptor} {descriptor : Descriptor}
    (intact : ∀ entry ∈ before, entry.isIntact contents = true)
    (broken : ¬ descriptor.isIntact contents = true) (after : List Descriptor) :
    MessageReader.readable contents (before ++ descriptor :: after) =
      before.flatMap (Descriptor.dataIn contents) := by
  rw [MessageReader.readable, List.takeWhile_append_of_pos intact,
    List.takeWhile_cons_of_neg broken, List.append_nil]

end Rows

/-! ## Rows of stored chunks -/

section Stored

variable {ledger : Ledger} {entries : List Descriptor} {descriptor : Descriptor}

theorem contents_eq_ok {digest : Digest} {data : Bytes}
    (found : ledger.contents digest = .ok data) :
    ∃ chunk, ledger.getChunk digest = .ok chunk ∧ chunk.data = data := by
  unfold Ledger.contents at found
  cases stored : ledger.getChunk digest with
  | ok chunk =>
      rw [stored] at found
      exact ⟨chunk, rfl, Except.ok.inj found⟩
  | error fault =>
      rw [stored] at found
      cases found

theorem contents_eq_error {digest : Digest} {fault : Fault}
    (missing : ledger.contents digest = .error fault) :
    ledger.getChunk digest = .error fault ∧ fault = .unknownChunk digest := by
  unfold Ledger.contents Ledger.getChunk at missing
  unfold Ledger.getChunk
  cases known : ledger.chunks.find? digest with
  | some held =>
      rw [known] at missing
      cases missing
  | none =>
      rw [known] at missing
      cases missing
      exact ⟨rfl, rfl⟩

theorem isIntact_iff :
    descriptor.isIntact ledger.contents = true ↔
      ∃ chunk, ledger.getChunk descriptor.digest = .ok chunk ∧ chunk.size = descriptor.size := by
  unfold Descriptor.isIntact Ledger.contents
  cases ledger.getChunk descriptor.digest with
  | error fault =>
      refine ⟨nofun, ?_⟩
      rintro ⟨_, impossible, _⟩
      cases impossible
  | ok chunk =>
      constructor
      · intro fits
        exact ⟨chunk, rfl, of_decide_eq_true fits⟩
      · rintro ⟨other, same, fits⟩
        cases same
        exact decide_eq_true fits

/-- Where all chunks are stored, the first broken one is the first one of a wrong size. -/
theorem firstMisfit_of_broken
    (stored : ∀ entry ∈ entries, ∃ data, ledger.contents entry.digest = .ok data)
    (broken : MessageReader.broken? ledger.contents entries = some descriptor) :
    ∃ before chunk, FirstMisfit ledger.getChunk entries before descriptor chunk ∧
      descriptor.flaw ledger.contents = .sizeMismatch chunk.size descriptor.size := by
  rcases List.find?_eq_some_iff_append.mp broken with ⟨isBroken, before, after, split, intact⟩
  have member : descriptor ∈ entries := by
    rw [split]
    exact List.mem_append_right before List.mem_cons_self
  rcases stored descriptor member with ⟨data, found⟩
  rcases contents_eq_ok found with ⟨chunk, here, rfl⟩
  refine ⟨before, chunk, ⟨⟨after, split⟩, here, fun fits => ?_, fun earlier front => ?_⟩, ?_⟩
  · rw [isIntact_iff.mpr ⟨chunk, here, fits⟩] at isBroken
    cases isBroken
  · have sound := intact earlier front
    rw [Bool.not_not] at sound
    exact isIntact_iff.mp sound
  · rw [Descriptor.flaw, found]
    rfl

/-- What was collected up to the first wrong size is what can be read, and the chunk comes next. -/
theorem FirstMisfit.collect_eq {before : List Descriptor} {chunk : StoredChunk} {whole : Bytes}
    (misfit : FirstMisfit ledger.getChunk entries before descriptor chunk)
    (collected : collect ledger.contents entries = .ok whole) :
    collect ledger.contents before = .ok (MessageReader.readable ledger.contents entries) ∧
      ∃ rest, whole = MessageReader.readable ledger.contents entries ++ chunk.data ++ rest := by
  rcases misfit.split with ⟨after, split⟩
  have intact : ∀ entry ∈ before, entry.isIntact ledger.contents = true :=
    fun entry member => isIntact_iff.mpr (misfit.fit entry member)
  have broken : ¬ descriptor.isIntact ledger.contents = true := by
    rw [isIntact_iff]
    rintro ⟨other, found, fits⟩
    rw [misfit.found] at found
    cases found
    exact misfit.differs fits
  have front := readable_eq_of_split intact broken after
  rw [split, front]
  refine ⟨collect_of_intact intact, ?_⟩
  have bytes : descriptor.dataIn ledger.contents = chunk.data := by
    rw [Descriptor.dataIn, Ledger.contents, misfit.found]
    rfl
  rcases collect_cases ledger.contents entries with ⟨_, done⟩ | ⟨_, _, _, _, _, _, _, failed⟩
  · rw [done, split, List.flatMap_append, List.flatMap_cons] at collected
    refine ⟨after.flatMap (Descriptor.dataIn ledger.contents), ?_⟩
    rw [← Except.ok.inj collected, bytes, List.append_assoc]
  · rw [failed] at collected
    cases collected

/-- Collecting fails for a chunk that is not stored.  A reader stops there too, unless it has
stopped before at a wrong size. -/
theorem stop?_of_collect_error {fault : Fault}
    (failed : collect ledger.contents entries = .error fault) :
    ∃ present missing after, entries = present ++ missing :: after ∧
      fault = .unknownChunk missing.digest ∧
      ledger.getChunk missing.digest = .error (.unknownChunk missing.digest) ∧
      (∀ entry ∈ present, ∃ chunk, ledger.getChunk entry.digest = .ok chunk) ∧
      (stop? ledger.contents entries = some fault ∨
        ∃ before descriptor chunk, FirstMisfit ledger.getChunk present before descriptor chunk ∧
          stop? ledger.contents entries =
            some (.sizeMismatch chunk.size descriptor.size)) := by
  rcases collect_cases ledger.contents entries with
    ⟨_, done⟩ | ⟨present, missing, after, other, split, stored, here, failed'⟩
  · rw [done] at failed
    cases failed
  · rw [failed'] at failed
    cases failed
    rcases contents_eq_error here with ⟨absent, rfl⟩
    refine ⟨present, missing, after, split, rfl, absent, fun entry member => ?_, ?_⟩
    · rcases stored entry member with ⟨data, found⟩
      rcases contents_eq_ok found with ⟨chunk, known, _⟩
      exact ⟨chunk, known⟩
    · have isBroken : ¬ missing.isIntact ledger.contents = true := by
        rw [Descriptor.isIntact, here]
        exact Bool.false_ne_true
      have stops : stop? ledger.contents entries =
          ((MessageReader.broken? ledger.contents present).or (some missing)).map
            (Descriptor.flaw ledger.contents) := by
        rw [stop?, split, MessageReader.broken?_append, MessageReader.broken?_of_broken isBroken]
      rw [stops]
      -- In front of the missing chunk all are stored, so that only a size can be wrong there.
      cases broken : MessageReader.broken? ledger.contents present with
      | none =>
          left
          simp only [Option.none_or, Option.map_some, Descriptor.flaw, here]
      | some descriptor =>
          rcases firstMisfit_of_broken stored broken with ⟨before, chunk, misfit, flaw⟩
          exact Or.inr ⟨before, descriptor, chunk, misfit, congrArg some flaw⟩

end Stored

/-! ## Reading to the end -/

/-- Reads that each ask for some bytes, until one fails or tells the end: the bytes that are handed
out, and the fault. -/
inductive ReadsOut (host : Host κ σ) : MessageReader κ → σ → Bytes → Option Fault → Prop where
  | ended {reader : MessageReader κ} {state : σ} {most : Nat} (some : 0 < most)
    (nothing : (reader.read host most state).1 = .ok []) : ReadsOut host reader state [] none
  | failed {reader : MessageReader κ} {state : σ} {most : Nat} {fault : Fault} (some : 0 < most)
    (refused : (reader.read host most state).1 = .error fault) :
    ReadsOut host reader state [] (.some fault)
  | more {reader : MessageReader κ} {state : σ} {most : Nat} {data rest : Bytes}
    {ending : Option Fault} (some : 0 < most) (handed : (reader.read host most state).1 = .ok data)
    (bytes : data ≠ [])
    (later : ReadsOut host (reader.read host most state).2.1 (reader.read host most state).2.2
      rest ending) :
    ReadsOut host reader state (data ++ rest) ending

namespace MessageReader

variable {host : Host κ σ} {store : κ} {contents : Digest → Except Fault Bytes} {Holds : σ → Prop}
  {manifest : Manifest}

/-- Reads of any sizes hand out what was ahead, and end where the reader stops. -/
theorem readsOut_eq (steady : host.Steady store contents (fun _ => False) Holds)
    {reader : MessageReader κ} {state : σ} {data : Bytes} {ending : Option Fault}
    (out : ReadsOut host reader state data ending)
    (placed : Placed store manifest contents reader) (holds : Holds state) :
    data = reader.ahead contents ∧ ending = stop? contents manifest.entries := by
  induction out with
  | @ended reader state most some nothing =>
      rcases (read_step steady placed most holds).1.ended some nothing with ⟨empty, intact⟩
      rw [empty, stop?, broken?_eq_none_iff.mpr intact]
      exact ⟨rfl, rfl⟩
  | @failed reader state most fault some refused =>
      rcases (read_step steady placed most holds).1.failed fault refused with
        ⟨⟨⟩, _⟩ | ⟨empty, descriptor, broken, flawed⟩
      rw [empty, stop?, broken, flawed]
      exact ⟨rfl, rfl⟩
  | @more reader state most data rest ending some handed bytes later inductionStep =>
      rcases read_step steady placed most holds with ⟨step, stays⟩
      rcases inductionStep step.placed stays with ⟨ahead, ends⟩
      rw [← (step.taken handed).2, ← ahead]
      exact ⟨rfl, ends⟩

/-- There are such reads: each one that is not the last has a byte less ahead. -/
theorem exists_readsOut (steady : host.Steady store contents (fun _ => False) Holds)
    {reader : MessageReader κ} {state : σ} (placed : Placed store manifest contents reader)
    (holds : Holds state) : ∃ data ending, ReadsOut host reader state data ending := by
  induction left : (reader.ahead contents).length using Nat.strong_induction_on generalizing
    reader state with
  | _ count inductionStep =>
      rcases read_step steady placed 1 holds with ⟨step, stays⟩
      cases answer : (reader.read host 1 state).1 with
      | error fault => exact ⟨[], some fault, .failed Nat.one_pos answer⟩
      | ok data =>
          by_cases nothing : data = []
          · exact ⟨[], none, .ended Nat.one_pos (nothing ▸ answer)⟩
          · have fewer : ((reader.read host 1 state).2.1.ahead contents).length < count := by
              have front := congrArg List.length (step.taken answer).2
              rw [List.length_append, left] at front
              have some : 0 < data.length := List.length_pos_iff.mpr nothing
              omega
            rcases inductionStep _ fewer step.placed stays rfl with ⟨rest, ending, later⟩
            exact ⟨data ++ rest, ending, .more Nat.one_pos answer nothing later⟩

/-- All that is left is handed out at once, unless the reader stops. -/
theorem drain_eq (steady : host.Steady store contents (fun _ => False) Holds)
    (entries : List Descriptor) {reader : MessageReader κ} (here : reader.store = store)
    (done : Bytes) {state : σ} (holds : Holds state) :
    (drain host entries reader done state).1 =
      (stop? contents entries).elim
        (.ok (done ++ reader.current ++ readable contents entries)) .error := by
  induction entries generalizing reader done state with
  | nil => rw [readable, List.takeWhile_nil, List.flatMap_nil, List.append_nil]; rfl
  | cons descriptor later inductionStep =>
      rcases fetch_cases steady descriptor holds with ⟨stays, fetched⟩
      rw [← here] at stays fetched
      unfold drain
      rcases split : fetch host reader.store descriptor state with ⟨answer, left⟩
      rw [split] at stays fetched
      rcases fetched with ⟨_, ⟨⟩, _, _⟩ | ⟨intact, found⟩ | ⟨broken, failed⟩
      · cases found
        have next : stop? contents (descriptor :: later) = stop? contents later := by
          rw [stop?, broken?_of_intact intact, stop?]
        rw [next, readable_of_intact intact, ← List.append_assoc]
        have moved : MessageReader.store
            { reader with next := reader.next + 1, current := descriptor.dataIn contents } =
              store := here
        exact inductionStep moved (done ++ reader.current) stays
      · cases failed
        rw [stop?, broken?_of_broken broken]
        rfl

end MessageReader

/-- Collecting the chunks of a row asks for each of them in turn. -/
theorem readChunks_eq {host : Host κ σ} {store : κ} {contents : Digest → Except Fault Bytes}
    {Holds : σ → Prop} (steady : host.Steady store contents (fun _ => False) Holds)
    (entries : List Descriptor) {state : σ} (holds : Holds state) :
    (readChunks host store entries state).1 = collect contents entries := by
  induction entries generalizing state with
  | nil => rfl
  | cons descriptor later inductionStep =>
      have stays := steady.stays descriptor.digest state holds
      have answer := (steady.answers descriptor.digest state holds).resolve_left
        (not_exists.mpr fun _ failed => failed.1)
      rw [collect, ← answer, readChunks]
      rcases split : host.call store (.getChunk descriptor.digest) state with ⟨chunk, left⟩
      rw [split] at stays
      cases chunk with
      | error fault => rfl
      | ok chunk =>
          have rest := inductionStep stays
          dsimp only
          rcases split' : readChunks host store later left with ⟨collected, last⟩
          rw [split'] at rest
          rw [← rest]
          cases collected with
          | error fault => rfl
          | ok data => rfl

/-! ## Both ways at an open engine -/

section Engines

variable {vault : Vault} {key : EngineKey} {ledger : Ledger}

/-- Both ways look the message up first, and they part only when it is known. -/
theorem opened_cases (keeps : vault.Keeps key ledger) (id : MessageId) :
    ((MessageReader.openMessage Vault.host key id vault).1 = .error (.unknownMessage id) ∧
      (readMessage Vault.host key id vault).1 = .error (.unknownMessage id)) ∨
    ∃ record, ledger.messages.find? id = some record ∧
      (vault.call key (.getMessage id)).1 = .ok record ∧
      (MessageReader.openMessage Vault.host key id vault).1 =
        .ok (MessageReader.ofManifest key record.manifest) ∧
      (MessageReader.openMessage Vault.host key id vault).2.Keeps key ledger ∧
      (readMessage Vault.host key id vault).1 =
        collect ledger.contents record.manifest.entries := by
  rcases Vault.answersAt key ⟨.getMessage id, rfl⟩ vault ledger keeps with ⟨asked, still⟩
  change (vault.call key (.getMessage id)).1 = ledger.getMessage id at asked
  change (vault.call key (.getMessage id)).2.Keeps key ledger at still
  unfold MessageReader.openMessage readMessage
  simp only [Vault.host]
  rcases split : vault.call key (.getMessage id) with ⟨answer, left⟩
  rw [split] at asked still
  dsimp only at asked
  rw [asked, Ledger.getMessage]
  cases known : ledger.messages.find? id with
  | none => exact Or.inl ⟨rfl, rfl⟩
  | some record =>
      have steady := (Vault.answersAt key).steady ledger
      exact Or.inr ⟨record, rfl, rfl, rfl, still,
        readChunks_eq steady record.manifest.entries still⟩

end Engines

/-- At an open engine of any vault that comes about, opening a reader fails just when collecting the
message fails because it is not known.  A reader hands out the same bytes and ends in the same way
whatever the sizes of the reads are.  If it comes to the end, the message is collected as these
bytes, and they are as many as the manifest and the record tell.  If it stops although the message
can be collected, then at the first wrong size, with the bytes before that chunk.  And if a chunk
is missing it stops too, for that chunk or for a wrong size in front of it. -/
theorem readings_agree {vault : Vault} (reachable : vault.Reachable) {key : EngineKey}
    (isOpen : vault.IsOpen key) (id : MessageId) :
    let stored := fun digest => (vault.call key (.getChunk digest)).1
    let collected := (readMessage Vault.host key id vault).1
    let opened := MessageReader.openMessage Vault.host key id vault
    ((∃ fault, opened.1 = .error fault) ↔ ∃ other, collected = .error (.unknownMessage other)) ∧
    (∀ fault, opened.1 = .error fault → fault = .unknownMessage id ∧ collected = .error fault) ∧
    ∀ reader, opened.1 = .ok reader →
      (∃ data ending, ReadsOut Vault.host reader opened.2 data ending) ∧
      ∀ data ending, ReadsOut Vault.host reader opened.2 data ending →
        (reader.readToEnd Vault.host opened.2).1 = ending.elim (.ok data) .error ∧
        (ending = none → collected = .ok data ∧ data.length = reader.totalSize ∧
          ∃ record, (vault.call key (.getMessage id)).1 = .ok record ∧
            record.totalBytes = data.length) ∧
        (∀ whole fault, collected = .ok whole → ending = some fault →
          ∃ before descriptor chunk,
            FirstMisfit stored reader.manifest.entries before descriptor chunk ∧
            fault = .sizeMismatch chunk.size descriptor.size ∧
            (readChunks Vault.host key before vault).1 = .ok data ∧
            ∃ rest, whole = data ++ chunk.data ++ rest) ∧
        (∀ fault, collected = .error fault →
          ∃ present missing after, reader.manifest.entries = present ++ missing :: after ∧
            fault = .unknownChunk missing.digest ∧ stored missing.digest = .error fault ∧
            (∀ entry ∈ present, ∃ chunk, stored entry.digest = .ok chunk) ∧
            (ending = some fault ∨ ∃ before descriptor chunk,
              FirstMisfit stored present before descriptor chunk ∧
                ending = some (.sizeMismatch chunk.size descriptor.size))) := by
  intro stored collected opened
  rcases reachable.keeps isOpen with ⟨ledger, keeps, balanced⟩
  have steady := (Vault.answersAt key).steady ledger
  have chunks : stored = ledger.getChunk :=
    funext fun digest => (Vault.answersAt key ⟨.getChunk digest, rfl⟩ vault ledger keeps).1
  rcases opened_cases keeps id with
    ⟨unopened, uncollected⟩ | ⟨record, known, found, isReader, still, gathered⟩
  · refine ⟨⟨fun _ => ⟨id, uncollected⟩, fun _ => ⟨_, unopened⟩⟩, fun fault refused => ?_,
      fun reader accepted => ?_⟩
    · cases unopened.symm.trans refused
      exact ⟨rfl, uncollected⟩
    · cases unopened.symm.trans accepted
  · have settled : collected = collect ledger.contents record.manifest.entries := gathered
    refine ⟨⟨?_, ?_⟩, fun fault refused => ?_, fun reader accepted => ?_⟩
    · rintro ⟨fault, refused⟩
      cases isReader.symm.trans refused
    · rintro ⟨other, failed⟩
      rcases stop?_of_collect_error (settled.symm.trans failed) with ⟨_, _, _, _, impossible, _⟩
      cases impossible
    · cases isReader.symm.trans refused
    · cases isReader.symm.trans accepted
      have placed := MessageReader.placed_ofManifest key record.manifest ledger.contents
      refine ⟨MessageReader.exists_readsOut steady placed still, fun data ending out => ?_⟩
      rcases MessageReader.readsOut_eq steady out placed still with ⟨ahead, ends⟩
      rw [MessageReader.ahead_ofManifest] at ahead
      rw [chunks, settled, ahead, ends]
      refine ⟨?_, fun none => ?_, fun whole fault complete stopped => ?_,
        fun fault failed => ?_⟩
      · exact MessageReader.drain_eq steady _ rfl [] still
      · have unbroken := Option.map_eq_none_iff.mp none
        rcases collect_of_unbroken unbroken with ⟨same, length⟩
        refine ⟨same, length, record, found, ?_⟩
        rw [balanced id record known, length]
        rfl
      · rcases Option.map_eq_some_iff.mp stopped with ⟨descriptor, broken, flaw⟩
        have present : ∀ entry ∈ record.manifest.entries,
            ∃ data, ledger.contents entry.digest = .ok data := by
          rcases collect_cases ledger.contents record.manifest.entries with
            ⟨all, _⟩ | ⟨_, _, _, _, _, _, _, failed⟩
          · exact all
          · rw [failed] at complete
            cases complete
        rcases firstMisfit_of_broken present broken with ⟨before, chunk, misfit, mismatch⟩
        rcases misfit.collect_eq complete with ⟨front, rest⟩
        exact ⟨before, descriptor, chunk, misfit, flaw.symm.trans mismatch,
          (readChunks_eq steady before keeps).trans front, rest⟩
      · rcases stop?_of_collect_error failed with
          ⟨present, missing, after, split, rfl, absent, others, stops⟩
        exact ⟨present, missing, after, split, rfl, absent, others, stops⟩

/-- A message of nine bytes is collected, of which a reader hands out six before it stops at the
last chunk. -/
theorem readings_agree_damaged :
    let closing : List Store.Request :=
      [⟨.openMessage {}, rfl⟩, ⟨.closeMessage ⟨1⟩ 15 MessageReader.damaged {}, rfl⟩]
    let vault := Vault.host.after ⟨0⟩ (MessageReader.stocking ++ closing) MessageReader.shelf
    let opened := MessageReader.openMessage Vault.host ⟨0⟩ ⟨1⟩ vault
    let reader := MessageReader.ofManifest ⟨0⟩ MessageReader.damaged
    opened.1 = .ok reader ∧
      (readMessage Vault.host ⟨0⟩ ⟨1⟩ vault).1 = .ok [1, 2, 3, 1, 2, 3, 1, 2, 3] ∧
      ReadsOut Vault.host reader opened.2 [1, 2, 3, 1, 2, 3] (some (.sizeMismatch 3 9)) ∧
      ∃ before descriptor chunk,
        FirstMisfit (fun digest => (vault.call ⟨0⟩ (.getChunk digest)).1)
          MessageReader.damaged.entries before descriptor chunk ∧
        (readChunks Vault.host ⟨0⟩ before vault).1 = .ok [1, 2, 3, 1, 2, 3] := by
  intro closing vault opened reader
  have reachable : vault.Reachable :=
    (Vault.Reachable.empty.add (.memory 6)).after ⟨0⟩ (MessageReader.stocking ++ closing)
  have isOpen : vault.IsOpen ⟨0⟩ := Or.inl ⟨_, rfl⟩
  have isReader : opened.1 = .ok reader := rfl
  have collected : (readMessage Vault.host ⟨0⟩ ⟨1⟩ vault).1 = .ok [1, 2, 3, 1, 2, 3, 1, 2, 3] := by
    decide +kernel
  have out : ReadsOut Vault.host reader opened.2 ([1, 2, 3] ++ ([1, 2, 3] ++ []))
      (some (.sizeMismatch 3 9)) := by
    refine .more (Nat.succ_pos 7) (by decide +kernel) (List.cons_ne_nil _ _) ?_
    refine .more (Nat.succ_pos 2) (by decide +kernel) (List.cons_ne_nil _ _) ?_
    exact .failed (Nat.succ_pos 0) (by decide +kernel)
  rcases (readings_agree reachable isOpen ⟨1⟩).2.2 reader isReader with ⟨_, every⟩
  rcases (every _ _ out).2.2.1 _ _ collected rfl with
    ⟨before, descriptor, chunk, misfit, _, front, _⟩
  exact ⟨isReader, collected, out, before, descriptor, chunk, misfit, front⟩

end MailVault
