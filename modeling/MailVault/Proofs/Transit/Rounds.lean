import MailVault.Proofs.Store.Notes
import MailVault.Proofs.Transit.Contents
import MailVault.Proofs.Transit.Unfailing

/-!
# How a write fills chunks

A write is a loop.  In a round it puts as many bytes into the buffer as there is room for, and
stores the chunk if it is full then.  A round that finds no room stores the chunk and takes in
nothing; this leaves room, because the cap is not zero, so that the next round does take in
something.  No answer of a store can keep the loop going: a fault ends it.

Since a chunk is stored as soon as it is full, the bytes alone decide where chunks end, and
not the writes that they came with.  The number of chunks is a quotient, and what stays
pending is the remainder.
-/

namespace MailVault

namespace Store

variable {κ σ : Type}

theorem Host.Unfailing.noted {host : Host κ σ} {key : κ} {Sound : σ → Prop}
    (unfailing : host.Unfailing key Sound) :
    host.noted.Unfailing key fun state => Sound state.inner where
  opens opening state sound := unfailing.opens opening state.inner sound
  takes digest data state sound := unfailing.takes digest data state.inner sound
  keeps request state sound := unfailing.keeps request state.inner sound

end Store

namespace Transit

open Store (Fault Host Note Noted)

variable {κ σ ρ : Type}

/-! ## Rounds -/

/-- Where a write stands before a round: the buffer, the bytes that are still to be taken in, and
the store. -/
structure Intake (κ σ : Type) where
  buffer : Buffer κ
  rest : Bytes
  state : σ

/-- What a round leads to: the next one, or the end of the write. -/
inductive Round (κ σ : Type) where
  | goesOn (next : Intake κ σ)
  | ends (result : Except Fault Unit) (buffer : Buffer κ) (state : σ)

namespace Buffer

/-- Bytes that are put behind others are put there together with them. -/
theorem append_append (buffer : Buffer κ) (first second : Bytes) :
    (buffer.append first).append second = buffer.append (first ++ second) := by
  simp only [append, Blake3.Hasher.update_update, List.append_assoc]

theorem Hashed.append_nil {buffer : Buffer κ} (hashed : buffer.Hashed) :
    buffer.append [] = buffer := by
  have hasher : buffer.hasher.update [] = buffer.hasher := by
    rw [hashed, Blake3.Hasher.update_update, List.append_nil]
  rw [Buffer.append, hasher, List.append_nil]

theorem feed_of_short (buffer : Buffer κ) (host : Host κ σ) {data : Bytes} (some : data ≠ [])
    (short : data.length < buffer.room) (state : σ) :
    buffer.feed host data state = (.ok (), buffer.append data, state) := by
  have less : (data.take buffer.room).length < buffer.room := by
    rw [List.length_take]
    omega
  rw [feed, if_neg some, if_pos less]

/-- Bytes that leave no room fill the buffer, which is flushed then, and the others follow. -/
theorem feed_of_long (buffer : Buffer κ) (host : Host κ σ) {data : Bytes} (some : data ≠ [])
    (long : buffer.room ≤ data.length) (state : σ) :
    buffer.feed host data state =
      match (buffer.append (data.take buffer.room)).flush host state with
      | (.error fault, buffer, state) => (.error fault, buffer, state)
      | (.ok (), after, state) => after.feed host (data.drop buffer.room) state := by
  have full : ¬ (data.take buffer.room).length < buffer.room := by
    rw [List.length_take]
    omega
  rw [feed, if_neg some, if_neg full, flush, if_neg (buffer.filled_ne_nil some)]
  rcases made : (buffer.append (data.take buffer.room)).deposit host state with ⟨result, now⟩
  cases result with
  | error fault => simp only [made]
  | ok _ => simp only [made]

end Buffer

namespace Intake

def flush (intake : Intake κ σ) (host : Host κ σ) : Round κ σ :=
  match intake.buffer.flush host intake.state with
  | (.error fault, buffer, state) => .ends (.error fault) buffer state
  | (.ok (), buffer, state) => .goesOn ⟨buffer, intake.rest, state⟩

/-- Put as many bytes into the buffer as there is room for. -/
def fill (intake : Intake κ σ) : Intake κ σ where
  buffer := intake.buffer.append (intake.rest.take intake.buffer.room)
  rest := intake.rest.drop intake.buffer.room
  state := intake.state

def round (intake : Intake κ σ) (host : Host κ σ) : Round κ σ :=
  if intake.rest = [] then .ends (.ok ()) intake.buffer intake.state
  else if intake.buffer.room = 0 then intake.flush host
  else if intake.fill.buffer.cap ≤ intake.fill.buffer.pending.length then intake.fill.flush host
  else .goesOn intake.fill

/-- How a write ends, if a number of rounds is enough for it. -/
def rounds (host : Host κ σ) : Nat → Intake κ σ → Option (Except Fault Unit × Buffer κ × σ)
  | 0, _ => none
  | count + 1, intake =>
    match intake.round host with
    | .ends result buffer state => some (result, buffer, state)
    | .goesOn next => rounds host count next

/-- What is left to be done: every byte, and first of all a chunk if there is no room. -/
def work (intake : Intake κ σ) : Nat :=
  intake.rest.length + if intake.buffer.room = 0 then 1 else 0

/-- A buffer without room is filled with nothing, so both ways to a flush are one. -/
theorem round_eq {intake : Intake κ σ} (hashed : intake.buffer.Hashed) (some : intake.rest ≠ [])
    (host : Host κ σ) :
    intake.round host =
      if intake.buffer.room ≤ intake.rest.length then intake.fill.flush host
      else .goesOn intake.fill := by
  rw [round, if_neg some]
  by_cases none : intake.buffer.room = 0
  · have same : intake.fill = intake := by
      rcases intake with ⟨buffer, rest, state⟩
      simp only at none hashed
      simp only [fill, none, List.take_zero, List.drop_zero, hashed.append_nil]
    rw [if_pos none, if_pos (by omega), same]
  · have full : intake.fill.buffer.cap ≤ intake.fill.buffer.pending.length ↔
        intake.buffer.room ≤ intake.rest.length := by
      simp only [fill, Buffer.append, Buffer.room, List.length_append, List.length_take] at none ⊢
      omega
    rw [if_neg none]
    exact if_congr full rfl rfl

/-- A round ends the write as feeding the buffer does, or it leads to one with the same end and with
less to be done. -/
theorem round_spec {intake : Intake κ σ} (hashed : intake.buffer.Hashed) (host : Host κ σ) :
    match intake.round host with
    | .ends result buffer state =>
      intake.buffer.feed host intake.rest intake.state = (result, buffer, state)
    | .goesOn next =>
      next.buffer.Hashed ∧ next.work < intake.work ∧
        next.buffer.feed host next.rest next.state =
          intake.buffer.feed host intake.rest intake.state := by
  by_cases none : intake.rest = []
  · rw [round, if_pos none]
    simp only
    rw [Buffer.feed, if_pos none]
  · have positive : 0 < intake.rest.length := List.length_pos_iff.mpr none
    rw [round_eq hashed none]
    by_cases long : intake.buffer.room ≤ intake.rest.length
    · have filled : intake.fill =
          ⟨intake.buffer.append (intake.rest.take intake.buffer.room),
            intake.rest.drop intake.buffer.room, intake.state⟩ := rfl
      rw [if_pos long, intake.buffer.feed_of_long host none long, filled, flush]
      rcases (intake.buffer.append (intake.rest.take intake.buffer.room)).flush_cases host
        intake.state with ⟨empty, _⟩ | ⟨_, refused | stored⟩
      · exact absurd empty (intake.buffer.filled_ne_nil none)
      · rcases refused with ⟨fault, now, flushed⟩
        simp only [flushed]
      · rcases stored with ⟨now, _, flushed⟩
        simp only [flushed]
        refine ⟨Buffer.hashed_of_empty rfl rfl, ?_, trivial⟩
        have room : (intake.buffer.append (intake.rest.take intake.buffer.room)).flushed.room ≠ 0 :=
          Nat.pos_iff_ne_zero.mp intake.buffer.cap_pos
        rw [work, work, if_neg room, List.length_drop]
        split <;> omega
    · have short := Nat.lt_of_not_le long
      rw [if_neg long, intake.buffer.feed_of_short host none short]
      refine ⟨hashed.append _, ?_, ?_⟩
      · have room : (intake.buffer.append (intake.rest.take intake.buffer.room)).room ≠ 0 := by
          simp only [Buffer.append, Buffer.room, List.length_append, List.length_take] at short ⊢
          omega
        rw [fill, work, work, if_neg room, List.length_drop]
        omega
      · rw [fill, List.take_of_length_le (Nat.le_of_lt short),
          List.drop_of_length_le (Nat.le_of_lt short), Buffer.feed, if_pos rfl]

/-- Enough rounds end a write as feeding the buffer does. -/
theorem rounds_eq (host : Host κ σ) {count : Nat} {intake : Intake κ σ}
    (hashed : intake.buffer.Hashed) (enough : intake.work < count) :
    rounds host count intake = some (intake.buffer.feed host intake.rest intake.state) := by
  induction count generalizing intake with
  | zero => exact absurd enough (Nat.not_lt_zero _)
  | succ count inductionStep =>
      have spec := round_spec hashed host
      rw [rounds]
      cases led : intake.round host with
      | ends result buffer state =>
          rw [led] at spec
          exact congrArg some spec.symm
      | goesOn next =>
          rw [led] at spec
          rcases spec with ⟨still, less, same⟩
          rw [← same]
          exact inductionStep still (Nat.lt_of_lt_of_le less (Nat.le_of_lt_succ enough))

theorem work_le (intake : Intake κ σ) : intake.work ≤ intake.rest.length + 1 := by
  unfold work
  split <;> omega

end Intake

namespace Buffer

/-! ## Writes one after the other -/

/-- What is fed after bytes that were taken in is fed as if it came with them. -/
theorem feed_append {buffer middle : Buffer κ} {host : Host κ σ} {first : Bytes} {state now : σ}
    (fed : buffer.feed host first state = (.ok (), middle, now)) (second : Bytes) :
    buffer.feed host (first ++ second) state = middle.feed host second now := by
  -- Rounds that fill the buffer are the same whatever follows; only the one that leaves room is
  -- not, since there the bytes that follow are put behind those of the first row.
  fun_induction feed buffer host first state with
  | case1 buffer state =>
      cases fed
      rfl
  | case2 buffer data state some less =>
      cases fed
      have short : data.length < buffer.room := by
        rw [List.length_take] at less
        omega
      have both : data ++ second ≠ [] := List.append_ne_nil_of_left_ne_nil some second
      have room : (buffer.append data).room = buffer.room - data.length := by
        simp only [append, room, List.length_append]
        omega
      by_cases none : second = []
      · rw [none, List.append_nil, feed_of_short _ _ some short, feed, if_pos rfl]
      · by_cases long : buffer.room ≤ (data ++ second).length
        · have rest : (buffer.append data).room ≤ second.length := by
            rw [room]
            rw [List.length_append] at long
            omega
          have take : (data ++ second).take buffer.room =
              data ++ second.take (buffer.room - data.length) := by
            rw [List.take_append, List.take_of_length_le (Nat.le_of_lt short)]
          have drop : (data ++ second).drop buffer.room =
              second.drop (buffer.room - data.length) := by
            rw [List.drop_append, List.drop_of_length_le (Nat.le_of_lt short), List.nil_append]
          rw [feed_of_long _ _ both long, feed_of_long _ _ none rest, room, append_append, take,
            drop]
        · have further : second.length < (buffer.append data).room := by
            rw [room]
            rw [List.length_append] at long
            omega
          rw [feed_of_short _ _ both (Nat.lt_of_not_le long), feed_of_short _ _ none further,
            append_append]
  | case3 buffer data state some long full fault after deposited => cases fed
  | case4 buffer data state some less full after deposited inductionStep =>
      have long : buffer.room ≤ data.length := by
        rw [List.length_take] at less
        omega
      have both : data ++ second ≠ [] := List.append_ne_nil_of_left_ne_nil some second
      have flushed : (buffer.append (data.take buffer.room)).flush host state =
          (.ok (), full.flushed, after) := by
        rw [flush, if_neg (buffer.filled_ne_nil some), deposited]
      rw [feed_of_long _ _ both (by rw [List.length_append]; omega),
        List.take_append_of_le_length long, List.drop_append_of_le_length long, flushed]
      exact inductionStep fed

theorem feed_of_write {buffer after : Buffer κ} {host : Host κ σ} {data : Bytes} {count : Nat}
    {state now : σ} (written : buffer.write host data state = (.ok count, after, now)) :
    buffer.feed host data state = (.ok (), after, now) := by
  rw [write] at written
  rcases fed : buffer.feed host data state with ⟨result, later, done⟩
  rw [fed] at written
  cases result with
  | error fault => cases written
  | ok _ =>
      cases written
      rfl

/-- Two writes one after the other leave the buffer and the store as one write of all bytes. -/
theorem write_append {buffer middle : Buffer κ} {host : Host κ σ} {first : Bytes} {count : Nat}
    {state now : σ} (written : buffer.write host first state = (.ok count, middle, now))
    (second : Bytes) :
    (buffer.write host (first ++ second) state).2 = (middle.write host second now).2 := by
  rw [write, write, feed_append (feed_of_write written) second]
  rcases middle.feed host second now with ⟨result, after, done⟩
  cases result with
  | error fault => rfl
  | ok _ => rfl

/-! ## The chunks of a write -/

/-- The note of an addition of a piece under its digest, which has succeeded. -/
def Adds (piece : Bytes) (note : Note) : Prop :=
  ∃ known, note = .addChunk (Digest.of piece) piece (.ok known)

theorem Hashed.adds {buffer : Buffer κ} (hashed : buffer.Hashed) {host : Host κ σ}
    {state now : Noted σ} (deposited : buffer.deposit host.noted state = (.ok (), now)) :
    ∃ note, Adds buffer.pending note ∧ now.notes = state.notes ++ [note] := by
  rcases deposit_eq_ok deposited with ⟨store, known, _, called⟩
  rw [hashed.digest] at called
  rcases Prod.ext_iff.mp called with ⟨answer, left⟩
  refine ⟨.addChunk (Digest.of buffer.pending) buffer.pending (.ok known), ⟨known, rfl⟩, ?_⟩
  simp only at answer left
  rw [← left, ← answer]
  rfl

/-- Bytes that are fed into a buffer which is not over its cap are cut, with those that were
pending, into pieces of the size of the cap.  Each piece is added, and less than a piece stays
pending. -/
theorem feed_cuts {buffer after : Buffer κ} {host : Host κ σ} {data : Bytes} {state now : Noted σ}
    (hashed : buffer.Hashed)
    (least : buffer.pending.length < buffer.cap ∨
      buffer.pending.length = buffer.cap ∧ data ≠ [])
    (fed : buffer.feed host.noted data state = (.ok (), after, now)) :
    ∃ pieces notes, buffer.pending ++ data = pieces.flatten ++ after.pending ∧
      (∀ piece ∈ pieces, piece.length = buffer.cap) ∧ after.pending.length < buffer.cap ∧
      now.notes = state.notes ++ notes ∧ List.Forall₂ Adds pieces notes := by
  fun_induction feed buffer host.noted data state with
  | case1 buffer state =>
      cases fed
      refine ⟨[], [], List.append_nil _, List.forall_mem_nil _, ?_, (List.append_nil _).symm, .nil⟩
      exact least.resolve_right fun full => full.2 rfl
  | case2 buffer data state some short =>
      cases fed
      refine ⟨[], [], rfl, List.forall_mem_nil _, ?_, (List.append_nil _).symm, .nil⟩
      simp only [append, room, List.length_append, List.length_take] at short ⊢
      omega
  | case3 buffer data state some long full fault now deposited => cases fed
  | case4 buffer data state some long full middle deposited inductionStep =>
      have size : full.pending.length = buffer.cap := by
        simp only [full, append, room, List.length_append, List.length_take] at long ⊢
        omega
      have ready : full.Hashed := hashed.append _
      rcases ready.adds deposited with ⟨note, adds, noted⟩
      rcases inductionStep (hashed_of_empty rfl rfl) (Or.inl buffer.cap_pos) fed with
        ⟨pieces, notes, joined, sizes, less, further, all⟩
      refine ⟨full.pending :: pieces, note :: notes, ?_, ?_, less, ?_, .cons adds all⟩
      · have rest : data.drop buffer.room = pieces.flatten ++ after.pending := joined
        rw [List.flatten_cons, List.append_assoc, ← rest]
        change _ = (buffer.pending ++ data.take buffer.room) ++ data.drop buffer.room
        rw [List.append_assoc, List.take_append_drop]
      · exact List.forall_mem_cons.mpr ⟨size, sizes⟩
      · rw [further, noted, List.append_assoc, List.singleton_append]

/-- Pieces of one size are as many as the size goes into the length of the whole. -/
theorem count_pieces {pieces : List Bytes} {size : Nat} {rest whole : Bytes}
    (sizes : ∀ piece ∈ pieces, piece.length = size) (less : rest.length < size)
    (joined : whole = pieces.flatten ++ rest) :
    pieces.length = whole.length / size ∧ rest.length = whole.length % size := by
  have total : pieces.flatten.length = size * pieces.length := by
    have same : pieces.map List.length = List.replicate pieces.length size :=
      List.map_eq_replicate_iff.mpr sizes
    rw [List.length_flatten, same, List.sum_replicate_nat, Nat.mul_comm]
  have length : rest.length + size * pieces.length = whole.length := by
    rw [joined, List.length_append, total, Nat.add_comm]
  have unique := (Nat.div_mod_unique (Nat.zero_lt_of_lt less)).mpr ⟨length, less⟩
  exact ⟨unique.1.symm, unique.2.symm⟩

end Buffer

open Buffer (Adds Order)

/-- A buffer was told anything, whatever the stores behind it answered, and now data is written.
The loop of the write ends after at most two rounds more than there are bytes, also if the store
fails.

If the store takes every chunk, and the bytes that are pending are not more than the cap, data
that is not empty completes as many chunks as the cap goes into the bytes that were pending and
written.  Each of them is added with just as many bytes as the cap says, no other call is made,
and the remainder stays pending.  And two writes leave the buffer and the store just as one write
of both data does. -/
theorem writes_add_up (past : Host κ ρ) (begun : ρ) (orders : List (Order κ)) (host : Host κ σ) :
    let buffer := ((Buffer.new : Buffer κ).run past begun orders).1
    (∀ data state, ∃ result,
      Intake.rounds host (data.length + 2) ⟨buffer, data, state⟩ =
        some (result, (buffer.write host data state).2) ∧
      (buffer.write host data state).1 = result.map fun _ => data.length) ∧
    ∀ key Sound, host.Unfailing key Sound → buffer.store = some key →
      (∀ data (state : Noted σ), Sound state.inner → data ≠ [] →
        buffer.pending.length ≤ buffer.cap →
        ∃ after now pieces notes,
          buffer.write host.noted data state = (.ok data.length, after, now) ∧
          buffer.pending ++ data = pieces.flatten ++ after.pending ∧
          now.notes = state.notes ++ notes ∧ List.Forall₂ Adds pieces notes ∧
          (∀ piece ∈ pieces, piece.length = buffer.cap) ∧
          notes.length = (buffer.pending.length + data.length) / buffer.cap ∧
          after.pending.length = (buffer.pending.length + data.length) % buffer.cap) ∧
      ∀ first second state, Sound state →
        ∃ middle now, buffer.write host first state = (.ok first.length, middle, now) ∧
          (middle.write host second now).1 = .ok second.length ∧
          buffer.write host (first ++ second) state =
            (.ok (first ++ second).length, (middle.write host second now).2) := by
  intro buffer
  have hashed : buffer.Hashed := (Buffer.told_run past begun orders).hashed
  refine ⟨?_, ?_⟩
  · intro data state
    have ended : Intake.rounds host (data.length + 2) ⟨buffer, data, state⟩ =
        some (buffer.feed host data state) :=
      Intake.rounds_eq host hashed (Nat.lt_succ_of_le (Intake.work_le _))
    rw [ended, Buffer.write]
    rcases buffer.feed host data state with ⟨result, after, now⟩
    cases result with
    | error fault => exact ⟨_, rfl, rfl⟩
    | ok _ => exact ⟨_, rfl, rfl⟩
  · intro key Sound unfailing store
    constructor
    · intro data state sound nonempty least
      have ok := buffer.write_unfailing unfailing.noted store data sound
      rcases written : buffer.write host.noted data state with ⟨result, after, now⟩
      rw [written] at ok
      simp only at ok
      subst ok
      have full := (Nat.lt_or_eq_of_le least).imp_right fun same => And.intro same nonempty
      rcases Buffer.feed_cuts hashed full (Buffer.feed_of_write written) with
        ⟨pieces, notes, joined, sizes, less, noted, adds⟩
      rcases Buffer.count_pieces sizes less joined with ⟨count, rest⟩
      rw [List.length_append] at count rest
      exact ⟨after, now, pieces, notes, rfl, joined, noted, adds, sizes, adds.length_eq ▸ count,
        rest⟩
    · intro first second state sound
      have ok := buffer.write_unfailing unfailing store first sound
      have course := buffer.write_course host first state
      have whole := buffer.write_unfailing unfailing store (first ++ second) sound
      rcases written : buffer.write host first state with ⟨result, middle, now⟩
      rw [written] at ok course
      simp only at ok
      subst ok
      rcases course with ⟨_, _, _, course⟩
      have further := middle.write_unfailing unfailing (course.fixed.2.trans store) second
        (course.sound unfailing store sound)
      exact ⟨middle, now, rfl, further, Prod.ext whole (Buffer.write_append written second)⟩

/-- A buffer of four bytes that is full, because the store refused the chunk. -/
def brimming : Buffer Store.EngineKey :=
  (Buffer.new.run .scripted [] [.setStore ⟨0⟩, .capTo 4, .write [1, 2, 3, 4]]).1

/-- The refused chunk is stored before the first byte is taken in. -/
theorem writes_add_up_brimming :
    let memory : Store.Vault := (Store.Vault.empty.add (.volatile (.new 6))).2
    let data : Bytes := [5, 6, 7, 8, 9]
    let whole := brimming.write Store.Vault.host data memory
    (∃ result, Intake.rounds Store.Vault.host 7 ⟨brimming, data, memory⟩ =
      some (result, whole.2)) ∧
    (∃ after now pieces,
      brimming.write Store.Vault.host.noted data ⟨memory, []⟩ = (.ok 5, after, now) ∧
      List.Forall₂ Adds pieces now.notes ∧ (∀ piece ∈ pieces, piece.length = 4) ∧
      now.notes.length = 2 ∧ after.pending.length = 1) ∧
    ∃ middle now, brimming.write Store.Vault.host [5, 6] memory = (.ok 2, middle, now) ∧
      whole.2 = (middle.write Store.Vault.host [7, 8, 9] now).2 := by
  intro memory data whole
  have cap : brimming.cap = 4 := by decide +kernel
  have store : brimming.store = some ⟨0⟩ := by decide +kernel
  have blank : Store.Vault.Keeps ⟨0⟩ memory .empty :=
    .memory (.new 6) rfl (Store.Volatile.represents_new 6)
  rcases writes_add_up .scripted [] [.setStore ⟨0⟩, .capTo 4, .write [1, 2, 3, 4]]
    Store.Vault.host with ⟨ends, unfailing⟩
  rcases unfailing ⟨0⟩ _ (Store.Vault.answersAt ⟨0⟩).unfailing store with ⟨cuts, joins⟩
  refine ⟨?_, ?_, ?_⟩
  · rcases ends data memory with ⟨result, ended, _⟩
    exact ⟨result, ended⟩
  · rcases cuts data ⟨memory, []⟩ ⟨_, blank⟩ (by decide) (by decide +kernel) with
      ⟨after, now, pieces, notes, written, _, noted, adds, sizes, count, rest⟩
    have all : now.notes = notes := noted.trans (List.nil_append _)
    have count_eq : (brimming.pending.length + data.length) / brimming.cap = 2 := by
      decide +kernel
    have rest_eq : (brimming.pending.length + data.length) % brimming.cap = 1 := by
      decide +kernel
    exact ⟨after, now, pieces, written, all ▸ adds,
      fun piece member => (sizes piece member).trans cap,
      all ▸ count.trans count_eq, rest.trans rest_eq⟩
  · rcases joins [5, 6] [7, 8, 9] memory ⟨_, blank⟩ with ⟨middle, now, written, _, joined⟩
    have same := congrArg Prod.snd joined
    exact ⟨middle, now, written, same⟩

end Transit
end MailVault
