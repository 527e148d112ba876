import Mathlib.Data.Nat.PSub
import MailVault.Proofs.Transit.Cuts
import MailVault.Proofs.Transit.Leg
import MailVault.Proofs.Transit.Renewal
import MailVault.Proofs.Transit.Unfailing

/-!
# Offsets that stay in range

Parts tell by offsets in the stream where to cut.  To find the bytes of a write that belong to
an offset, offsets are added and subtracted, and slices are taken between the differences.  Such
operations have a range: a sum may be too large, a difference may be less than zero, and a slice
may begin behind its end or end behind the bytes.

Here chunking is spelled out with operations that have no result then.  All the same it has a
result, and it does what the splitter does with a cursor.  No list of parts changes this, however
stale or malformed it is, and the only fault that can end a write is one that the store has
answered.
-/

namespace MailVault
namespace Transit

open Store (Fault Host)

variable {κ σ τ : Type}

/-! ## Operations with a range -/

/-- The sum of two offsets, if it is an offset. -/
def sumOf? (left right : Nat) : Option Nat :=
  if left + right < 2 ^ 64 then some (left + right) else none

theorem sumOf?_of_small {left right : Nat} (small : left + right < 2 ^ 64) :
    sumOf? left right = some (left + right) :=
  if_pos small

/-- The elements of a row from one place to another, if these are places of the row and the second
one is not before the first. -/
def sliceOf? {α : Type} (row : List α) (first last : Nat) : Option (List α) :=
  if first ≤ last ∧ last ≤ row.length then some ((row.take last).drop first) else none

theorem drop_zipIdx {α : Type} (row : List α) (start count : Nat) :
    (row.zipIdx start).drop count = (row.drop count).zipIdx (start + count) := by
  induction count generalizing row start with
  | zero => rfl
  | succ count inductionStep =>
      cases row with
      | nil => rfl
      | cons first others =>
          rw [List.zipIdx_cons, List.drop_succ_cons, List.drop_succ_cons, inductionStep,
            Nat.add_assoc, Nat.add_comm 1 count]

/-- Where a write stands that works with offsets: the splitter, the store, and the slices that were
handed to the buffer so far. -/
structure Handover (κ σ : Type) where
  splitter : Splitter κ
  state : σ
  handed : List Bytes

/-- How far a step gets: to an offset, or to a fault of the store. -/
abbrev Outcome (κ σ : Type) := Except Fault Nat × Handover κ σ

/-- Go on from the offset that was reached.  A fault ends the write. -/
def Outcome.onward (outcome : Outcome κ σ) (next : Nat → Handover κ σ → Option (Outcome κ σ)) :
    Option (Outcome κ σ) :=
  match outcome with
  | (.error fault, now) => some (.error fault, now)
  | (.ok reached, now) => next reached now

namespace Handover

/-- Hand the bytes from the offset that was reached to a target over to the buffer. -/
def bufferUntil? (now : Handover κ σ) (host : Host κ σ) (base : Nat) (data : Bytes)
    (reached target : Nat) : Option (Outcome κ σ) := do
  let finish ← sumOf? base data.length
  let stop := min target finish
  let first ← reached.psub base
  let last ← stop.psub base
  let slice ← sliceOf? data first last
  match now.splitter.buffer.write host slice now.state with
  | (.error fault, buffer, state) =>
    some (.error fault, ⟨.recount { now.splitter with buffer := buffer }, state,
      now.handed ++ [slice]⟩)
  | (.ok bytes, buffer, state) =>
    some (.ok stop, ⟨.count { now.splitter with buffer := buffer } bytes, state,
      now.handed ++ [slice]⟩)

/-- Cut at a boundary of a part that is ahead, if the write reaches it. -/
def cutAt? (now : Handover κ σ) (host : Host κ σ) (base : Nat) (data : Bytes) (part : Mime.Part)
    (boundary reached : Nat) : Option (Outcome κ σ) :=
  if 0 < boundary ∧ reached ≤ boundary then do
    (← now.bufferUntil? host base data reached boundary).onward fun reached now =>
      if reached = boundary then
        match now.splitter.buffer.flush host now.state with
        | (.error fault, buffer, state) =>
          some (.error fault, ⟨{ now.splitter with buffer := buffer }, state, now.handed⟩)
        | (.ok (), buffer, state) =>
          some (.ok reached, ⟨{ now.splitter with buffer := buffer.relabel part }, state,
            now.handed⟩)
      else some (.ok reached, now)
  else some (.ok reached, now)

/-- Cut at the start of a part and at the end of its headers. -/
def cutPart? (now : Handover κ σ) (host : Host κ σ) (base : Nat) (data : Bytes) (part : Mime.Part)
    (reached : Nat) : Option (Outcome κ σ) := do
  (← now.cutAt? host base data part part.start reached).onward fun reached now =>
    now.cutAt? host base data part part.bodyStart reached

/-- Go through the parts with their indices until the offset behind the write is reached; what is
left after the last part belongs to it. -/
def scan? (host : Host κ σ) (base : Nat) (data : Bytes) (stop last : Nat) :
    List (Mime.Part × Nat) → Nat → Handover κ σ → Option (Outcome κ σ)
  | [], reached, now => some (.ok reached, now)
  | (part, index) :: later, reached, now => do
    (← now.cutPart? host base data part reached).onward fun reached now => do
      let rest := if index = last ∧ reached < stop then now.bufferUntil? host base data reached stop
        else some (.ok reached, now)
      (← rest).onward fun reached now =>
        if stop ≤ reached then some (.ok reached, now)
        else scan? host base data stop last later reached now

end Handover

def Session.settle? (session : Session) (parts : List Mime.Part) (position : Nat) :
    Option Session :=
  if parts.length ≤ 2 then some session
  else do
    let limit ← parts.length.psub 2
    let first := min session.progress limit
    let waiting ← sliceOf? parts first limit
    some { session with progress := first + (waiting.takeWhile (isSettled position)).length }

/-- Chunk the bytes of one write.  The outcome has the offset that the scan reached. -/
def Splitter.chunk? (splitter : Splitter κ) (host : Host κ σ) (parts : List Mime.Part)
    (data : Bytes) (state : σ) : Option (Outcome κ σ) := do
  let first ← parts[0]?
  let prepared := splitter.prepare first
  let base := prepared.session.position
  let stop ← sumOf? base data.length
  let last ← parts.length.psub 1
  let waiting := parts.zipIdx.drop (min prepared.session.progress last)
  let scanned ← Handover.scan? host base data stop last waiting base ⟨prepared, state, []⟩
  scanned.onward fun reached now => do
    let session ← now.splitter.session.settle? parts reached
    some (.ok reached, { now with splitter := { now.splitter with session := session } })

/-! ## Cursors within a write -/

/-- A cursor that has gone some way through the bytes of a write. -/
def Cursor.Within (base : Nat) (data : Bytes) (cursor : Cursor) : Prop :=
  ∃ taken, (⟨base, data⟩ : Cursor).Passed taken (.ok cursor)

namespace Cursor.Within

variable {base : Nat} {data : Bytes} {cursor : Cursor}

theorem start (base : Nat) (data : Bytes) : Within base data ⟨base, data⟩ :=
  ⟨[], passed_stay _⟩

theorem passed (within : Within base data cursor) {taken : Bytes} {later : Cursor}
    (further : cursor.Passed taken (.ok later)) : Within base data later := by
  rcases within with ⟨before, so⟩
  exact ⟨before ++ taken, so.trans further⟩

theorem base_le (within : Within base data cursor) : base ≤ cursor.position := by
  rcases within with ⟨taken, _, position⟩
  exact position ▸ Nat.le_add_right _ _

theorem last (within : Within base data cursor) : cursor.last = base + data.length := by
  rcases within with ⟨taken, rest, position⟩
  simp only at rest position
  rw [Cursor.last, position, rest, List.length_append, Nat.add_assoc]

theorem rest (within : Within base data cursor) :
    cursor.rest = data.drop (cursor.position - base) := by
  rcases within with ⟨taken, rest, position⟩
  simp only at rest position
  rw [position, Nat.add_sub_cancel_left, rest, List.drop_left]

/-- Behind the bytes that have passed, there is a slice up to any target that is ahead. -/
theorem sliceOf?_eq (within : Within base data cursor) {target : Nat}
    (ahead : cursor.position ≤ target) :
    sliceOf? data (cursor.position - base) (min target (base + data.length) - base) =
      some (cursor.upTo target) := by
  have begun := within.base_le
  have ends := within.last
  rw [Cursor.last, within.rest, List.length_drop] at ends
  have slice : cursor.position - base ≤ min target (base + data.length) - base ∧
      min target (base + data.length) - base ≤ data.length := by
    omega
  rw [sliceOf?, if_pos slice, List.drop_take, upTo, within.rest, Option.some.injEq,
    List.take_eq_take_iff, List.length_drop]
  omega

end Cursor.Within

/-! ## Chunking in range -/

/-- The store has answered an addition of a chunk with this fault, and was left so. -/
def Refused (host : Host κ σ) (store : κ) (fault : Fault) (after : σ) : Prop :=
  ∃ digest data before, host.call store (.addChunk digest data) before = (.error fault, after)

namespace Buffer

variable {buffer : Buffer κ} {store : κ} (stored : buffer.store = some store) {host : Host κ σ}
  {state now : σ} {fault : Fault}

include stored

theorem refused_of_deposit (failed : buffer.deposit host state = (.error fault, now)) :
    Refused host store fault now := by
  rw [deposit, stored] at failed
  rcases called : host.call store (.addChunk (Digest.ofHasher buffer.hasher) buffer.pending) state
    with ⟨answer, after⟩
  simp only [called] at failed
  cases answer with
  | ok known => cases failed
  | error other =>
      cases failed
      exact ⟨_, _, _, called⟩

theorem refused_of_flush {after : Buffer κ}
    (failed : buffer.flush host state = (.error fault, after, now)) :
    Refused host store fault now := by
  unfold flush at failed
  by_cases none : buffer.pending = []
  · rw [if_pos none] at failed
    cases failed
  · rw [if_neg none] at failed
    rcases made : buffer.deposit host state with ⟨answer, later⟩
    rw [made] at failed
    cases answer with
    | ok _ => cases failed
    | error other =>
        cases failed
        exact refused_of_deposit stored made

theorem refused_of_feed {after : Buffer κ} {data : Bytes}
    (failed : buffer.feed host data state = (.error fault, after, now)) :
    Refused host store fault now := by
  fun_induction feed buffer host data state with
  | case1 buffer state => cases failed
  | case2 buffer data state nonempty short => cases failed
  | case3 buffer data state nonempty long full other later made =>
      have same : full.store = some store := stored
      simp only [Prod.mk.injEq, Except.error.injEq] at failed
      rcases failed with ⟨rfl, _, rfl⟩
      exact refused_of_deposit same made
  | case4 buffer data state nonempty long full later made inductionStep =>
      exact inductionStep stored failed

theorem refused_of_write {after : Buffer κ} {data : Bytes}
    (failed : buffer.write host data state = (.error fault, after, now)) :
    Refused host store fault now := by
  rw [write] at failed
  rcases fed : buffer.feed host data state with ⟨answer, later, finish⟩
  rw [fed] at failed
  cases answer with
  | ok _ => cases failed
  | error other =>
      cases failed
      exact refused_of_feed stored fed

end Buffer

/-- A step with a cursor from a place in a write, and the step with offsets from the same place.
The second one has an outcome, which is that of the first one; the bytes that are handed over are
those that the cursor passes; and the buffer keeps its store, which has answered the fault if there
is one. -/
structure Agrees (host : Host κ σ) (store : κ) (cursor : Cursor) (handed : List Bytes)
    (step : Except Fault Cursor × Splitter κ × σ) (outcome : Option (Outcome κ σ)) : Prop where
  computed : ∃ slices, cursor.Passed slices.flatten step.1 ∧
    outcome = some (step.1.map Cursor.position, ⟨step.2.1, step.2.2, handed ++ slices⟩)
  stored : step.2.1.buffer.store = some store
  refused : ∀ fault, step.1 = .error fault → Refused host store fault step.2.2

namespace Agrees

variable {host : Host κ σ} {store : κ} {cursor : Cursor} {handed : List Bytes}
  {step : Except Fault Cursor × Splitter κ × σ} {outcome : Option (Outcome κ σ)}

theorem stay {splitter : Splitter κ} (stored : splitter.buffer.store = some store) (state : σ)
    (cursor : Cursor) (handed : List Bytes) :
    Agrees host store cursor handed (.ok cursor, splitter, state)
      (some (.ok cursor.position, ⟨splitter, state, handed⟩)) where
  computed := ⟨[], cursor.passed_stay, by rw [List.append_nil]; rfl⟩
  stored := stored
  refused := nofun

/-- Steps that agree are followed by steps that agree. -/
-- The agreement comes behind the colon: as an argument it would be matched along with the step.
theorem onward {next : Cursor → Splitter κ → σ → Except Fault Cursor × Splitter κ × σ}
    {further : Nat → Handover κ σ → Option (Outcome κ σ)}
    (after : ∀ {later : Cursor} {splitter : Splitter κ} {state : σ} {slices : List Bytes},
      cursor.Passed slices.flatten (.ok later) → splitter.buffer.store = some store →
      Agrees host store later (handed ++ slices) (next later splitter state)
        (further later.position ⟨splitter, state, handed ++ slices⟩)) :
    Agrees host store cursor handed step outcome →
      Agrees host store cursor handed
        (match step with
        | (.error fault, splitter, state) => (.error fault, splitter, state)
        | (.ok later, splitter, state) => next later splitter state)
        (outcome.bind fun reached => reached.onward further) := by
  intro agrees
  rcases agrees with ⟨⟨slices, passed, rfl⟩, stored, refused⟩
  rcases step with ⟨_ | later, splitter, state⟩
  · exact ⟨⟨slices, passed, rfl⟩, stored, refused⟩
  · rcases after passed stored with ⟨⟨more, nextPassed, computed⟩, nextStored, nextRefused⟩
    refine ⟨⟨slices ++ more, ?_, ?_⟩, nextStored, nextRefused⟩
    · rw [List.flatten_append]
      exact passed.trans nextPassed
    · rw [← List.append_assoc]
      exact computed

/-- Going on from where one is, is not a step of its own. -/
theorem ends (agrees : Agrees host store cursor handed step outcome) :
    Agrees host store cursor handed step
      (outcome.bind fun reached => reached.onward fun place now => some (.ok place, now)) := by
  have same : (outcome.bind fun reached => reached.onward fun place now => some (.ok place, now)) =
      outcome := by
    rcases outcome with _ | ⟨_ | _, _⟩ <;> rfl
  rw [same]
  exact agrees

end Agrees

section Steps

variable (host : Host κ σ) {store : κ} {base : Nat} {data : Bytes} {cursor : Cursor}
  {splitter : Splitter κ}

theorem bufferUntil_agrees (small : base + data.length < 2 ^ 64)
    (within : cursor.Within base data) (stored : splitter.buffer.store = some store) {target : Nat}
    (ahead : cursor.position ≤ target) (state : σ) (handed : List Bytes) :
    Agrees host store cursor handed (splitter.bufferUntil host target cursor state)
      (Handover.bufferUntil? ⟨splitter, state, handed⟩ host base data cursor.position target) := by
  have stop : base ≤ min target (base + data.length) := by
    have begun := within.base_le
    omega
  rcases splitter.bufferUntil_moves host target cursor state with ⟨_, _, moves⟩
  have kept := moves.course.fixed.2.trans stored
  simp only [Handover.bufferUntil?, sumOf?_of_small small, Nat.psub_eq_sub within.base_le,
    Nat.psub_eq_sub stop, Option.bind_eq_bind, Option.bind_some, within.sliceOf?_eq ahead]
  unfold Splitter.bufferUntil at kept ⊢
  rcases written : splitter.buffer.write host (cursor.upTo target) state with
    ⟨answer, buffer, now⟩
  rw [written] at kept
  cases answer with
  | error fault =>
      refine ⟨⟨[cursor.upTo target], ?_, rfl⟩, kept, fun other same => ?_⟩
      · rw [List.flatten_singleton]
        exact List.take_prefix _ _
      · cases same
        exact Buffer.refused_of_write stored written
  | ok bytes =>
      refine ⟨⟨[cursor.upTo target], ?_, ?_⟩, kept, nofun⟩
      · rw [List.flatten_singleton]
        exact cursor.passed_advance target
      · have position : (cursor.advance target).position = min target (base + data.length) := by
          rw [cursor.position_advance ahead, within.last]
        simp only [Except.map, position]

theorem cutAt_agrees (small : base + data.length < 2 ^ 64) (within : cursor.Within base data)
    (stored : splitter.buffer.store = some store) (part : Mime.Part) (boundary : Nat) (state : σ)
    (handed : List Bytes) :
    Agrees host store cursor handed (splitter.cutAt host part boundary cursor state)
      (Handover.cutAt? ⟨splitter, state, handed⟩ host base data part boundary
        cursor.position) := by
  by_cases skipped : boundary = 0 ∨ boundary < cursor.position
  · have behind : ¬ (0 < boundary ∧ cursor.position ≤ boundary) := by omega
    rw [Splitter.cutAt, if_pos skipped, Handover.cutAt?, if_neg behind]
    exact .stay stored state cursor handed
  · have ahead : 0 < boundary ∧ cursor.position ≤ boundary := by omega
    rw [Splitter.cutAt, if_neg skipped, Handover.cutAt?, if_pos ahead]
    refine Agrees.onward ?_ (bufferUntil_agrees host small within stored ahead.2 state handed)
    intro reached splitter state slices _ stored
    by_cases short : reached.position ≠ boundary
    · rw [if_pos short, if_neg short]
      exact .stay stored state reached (handed ++ slices)
    · rw [if_neg short, if_pos (not_not.mp short)]
      have course := splitter.buffer.flush_course host state
      rcases flushed : splitter.buffer.flush host state with ⟨answer, buffer, now⟩
      rw [flushed] at course
      have kept : buffer.store = some store := course.fixed.2.trans stored
      cases answer with
      | ok _ => exact .stay kept now reached (handed ++ slices)
      | error fault =>
          refine ⟨⟨[], List.nil_prefix, by rw [List.append_nil]; rfl⟩, kept, fun other same => ?_⟩
          cases same
          exact Buffer.refused_of_flush stored flushed

theorem cutPart_agrees (small : base + data.length < 2 ^ 64) (within : cursor.Within base data)
    (stored : splitter.buffer.store = some store) (part : Mime.Part) (state : σ)
    (handed : List Bytes) :
    Agrees host store cursor handed (splitter.cutPart host part cursor state)
      (Handover.cutPart? ⟨splitter, state, handed⟩ host base data part cursor.position) := by
  unfold Splitter.cutPart Handover.cutPart?
  refine Agrees.onward ?_ (cutAt_agrees host small within stored part part.start state handed)
  intro reached splitter state slices passed stored
  exact cutAt_agrees host small (within.passed passed) stored part part.bodyStart state _

/-- Of the parts that are left when the scan begins, the last one has the last index. -/
theorem scan_agrees (small : base + data.length < 2 ^ 64) (within : cursor.Within base data)
    (stored : splitter.buffer.store = some store) (waiting : List Mime.Part) {start last : Nat}
    (ends : start + waiting.length = last + 1) (state : σ) (handed : List Bytes) :
    Agrees host store cursor handed (Splitter.scan host waiting splitter cursor state)
      (Handover.scan? host base data (base + data.length) last (waiting.zipIdx start)
        cursor.position ⟨splitter, state, handed⟩) := by
  induction waiting generalizing splitter cursor start state handed with
  | nil => exact .stay stored state cursor handed
  | cons part later inductionStep =>
      rw [List.length_cons] at ends
      rw [Splitter.scan, List.zipIdx_cons, Handover.scan?]
      refine Agrees.onward ?_ (cutPart_agrees host small within stored part state handed)
      intro reached splitter state slices passed stored
      have still := within.passed passed
      have spent := reached.rest_eq_nil_iff
      rw [still.last] at spent
      -- The loop is left when the write is used up, which the last part sees to in any case.
      by_cases none : reached.rest = []
      · have done := spent.mp none
        have beyond : ¬ (start = last ∧ reached.position < base + data.length) := by omega
        simp only [if_pos none, if_neg beyond, Option.bind_eq_bind, Option.bind_some,
          Outcome.onward, if_pos done]
        exact .stay stored state reached _
      · have more : ¬ base + data.length ≤ reached.position := none ∘ spent.mpr
        by_cases final : later = []
        · have tail : start = last ∧ reached.position < base + data.length := by
            rw [final, List.length_nil] at ends
            omega
          simp only [if_neg none, if_pos tail, still.last, final, List.zipIdx_nil,
            Handover.scan?, ite_self]
          exact (bufferUntil_agrees host small still stored (Nat.le_of_lt tail.2) state _).ends
        · have positive : 0 < later.length := List.length_pos_iff.mpr final
          have further : ¬ (start = last ∧ reached.position < base + data.length) := by omega
          simp only [if_neg none, if_neg final, if_neg further, Option.bind_eq_bind,
            Option.bind_some, Outcome.onward, if_neg more]
          exact inductionStep still stored (by omega) state _

end Steps

theorem Session.settle?_eq (session : Session) (parts : List Mime.Part) (position : Nat) :
    session.settle? parts position = some (session.settle parts position) := by
  unfold settle? settle
  by_cases few : parts.length ≤ 2
  · rw [if_pos few, if_pos few]
  · have difference : parts.length.psub 2 = some (parts.length - 2) :=
      Nat.psub_eq_sub (by omega)
    have slice : min session.progress (parts.length - 2) ≤ parts.length - 2 ∧
        parts.length - 2 ≤ parts.length := by omega
    simp only [if_neg few, difference, Option.bind_eq_bind, Option.bind_some, sliceOf?,
      if_pos slice]

/-- A splitter with a store chunks the bytes of a write with operations that stay in range. -/
theorem Splitter.chunk?_eq (host : Host κ σ) {store : κ} {splitter : Splitter κ}
    (stored : splitter.buffer.store = some store) (first : Mime.Part) (others : List Mime.Part)
    {data : Bytes} (small : splitter.session.position + data.length < 2 ^ 64) (state : σ) :
    ∃ result after now handed,
      splitter.chunk? host (first :: others) data state = some (result, ⟨after, now, handed⟩) ∧
      splitter.chunk host first others data state = (result.map fun _ => (), after, now) ∧
      handed.flatten <+: data ∧
      (∀ reached, result = .ok reached →
        reached = splitter.session.position + data.length ∧ handed.flatten = data) ∧
      ∀ fault, result = .error fault → Refused host store fault now := by
  have position : (splitter.prepare first).session.position = splitter.session.position := by
    rw [prepare_session]
    rfl
  have kept : (splitter.prepare first).buffer.store = some store :=
    (splitter.prepare_moves host first state).course.fixed.2.trans stored
  have last : (first :: others).length.psub 1 = some others.length :=
    Nat.psub_eq_sub (Nat.succ_pos _)
  rw [← position] at small ⊢
  simp only [chunk?, chunk, List.getElem?_cons_zero, last, Option.bind_eq_bind, Option.bind_some,
    sumOf?_of_small small, drop_zipIdx, Nat.zero_add]
  generalize splitter.prepare first = prepared at small kept ⊢
  have some := waiting_ne_nil first others prepared.session.progress
  have ends : min prepared.session.progress others.length +
      ((first :: others).drop (min prepared.session.progress others.length)).length =
        others.length + 1 := by
    rw [List.length_drop, List.length_cons]
    omega
  generalize (first :: others).drop (min prepared.session.progress others.length) = waiting at *
  rcases scan_agrees host small (.start _ data) kept waiting ends state [] with
    ⟨⟨slices, passed, computed⟩, _, refused⟩
  have whole := rest_of_scan host waiting some prepared ⟨prepared.session.position, data⟩ state
  simp only [List.nil_append] at computed
  rw [computed]
  generalize scan host waiting prepared ⟨prepared.session.position, data⟩ state = scanned at *
  rcases scanned with ⟨fault | cursor, after, now⟩
  · refine ⟨.error fault, after, now, slices, rfl, rfl, passed, nofun, fun other same => ?_⟩
    cases same
    exact refused fault rfl
  · have taken : data = slices.flatten := by
      have rest := passed.1
      rwa [whole rfl, List.append_nil] at rest
    have length : cursor.position = prepared.session.position + data.length := by
      rw [taken]
      exact passed.2
    refine ⟨.ok cursor.position, _, now, slices, ?_, rfl, taken ▸ List.prefix_rfl,
      fun other same => ?_, nofun⟩
    · simp only [Option.bind_some, Except.map, Outcome.onward, Session.settle?_eq]
    · cases same
      exact ⟨length, taken.symm⟩

namespace Leg

variable (leg : Leg κ σ τ) {host : Host κ σ} (outlet : Outlet σ τ)

theorem perform_lasts {Related : Splitter κ → Splitter κ → Prop}
    (lasting : Splitter.Lasting host Related) (task : Task) :
    Related leg.splitter (leg.perform host outlet task).2.splitter := by
  cases task with
  | openMessage opening =>
      simp only [perform, Splitter.openMessage_eq]
      exact lasting.opened leg.splitter _
  | write metadata data =>
      rcases leg.splitter.accept_moves host metadata data leg.engines with ⟨_, _, moves⟩
      have moved := lasting.moved moves
      simp only [perform, write]
      rcases accepted : leg.splitter.accept host metadata data leg.engines with
        ⟨answer, splitter, engines⟩
      rw [accepted] at moved
      cases answer with
      | error fault => exact moved
      | ok _ => exact moved
  | closeMessage queueId =>
      rcases leg.splitter.closeMessage_flushed host queueId leg.engines with ⟨_, phase, closed⟩
      simp only [perform, closed]
      exact lasting.closed phase (leg.splitter.buffer.flush_course host leg.engines)

/-- What no call breaks holds between a splitter and what became of it. -/
theorem run_lasts {Related : Splitter κ → Splitter κ → Prop}
    (lasting : Splitter.Lasting host Related) (tasks : List Task) :
    Related leg.splitter (leg.run host outlet tasks).splitter := by
  induction tasks generalizing leg with
  | nil => exact lasting.refl leg.splitter
  | cons task later inductionStep =>
      exact lasting.trans (leg.perform_lasts outlet lasting task) (inductionStep _)

end Leg

/-! ## Any parts after any history -/

/-- A splitter was built over a store and a buffer, and did anything.  Whatever parts a write then
comes with, as long as the offset behind its bytes is in the range of offsets, chunking with
operations that have a range has an outcome, and it is what the splitter does.

The slices that are handed to the buffer are, one behind the other, a first part of the bytes.  If
the scan is not ended by a fault, it has reached the offset behind the bytes, and the slices and
what the buffer takes in on the way are all of them, in order.  A fault is the store's own, and a
store that takes every chunk does not let the write fail. -/
theorem offsets_stay_in_range (host : Host κ σ) (outlet : Outlet σ τ) (store : κ)
    (buffer : Buffer κ) (engines : σ) (ahead : τ) (tasks : List Task) (first : Mime.Part)
    (others : List Mime.Part) (data : Bytes) (state : σ) :
    let splitter :=
      (Leg.run ⟨.withBuffer store buffer, engines, ahead⟩ host outlet tasks).splitter
    let finish := splitter.session.position + data.length
    finish < 2 ^ 64 →
    ∃ result after now handed,
      splitter.chunk? host (first :: others) data state = some (result, ⟨after, now, handed⟩) ∧
      splitter.chunk host first others data state = (result.map fun _ => (), after, now) ∧
      handed.flatten <+: data ∧
      (∀ reached, result = .ok reached → reached = finish ∧ handed.flatten = data ∧
        Course host splitter.buffer state data after.buffer now) ∧
      (∀ fault, result = .error fault → Refused host store fault now) ∧
      ∀ Sound, host.Unfailing store Sound → Sound state → result = .ok finish := by
  intro splitter finish small
  have furnished : splitter.Furnished store buffer.cap :=
    Leg.run_lasts ⟨.withBuffer store buffer, engines, ahead⟩ outlet
      (Splitter.furnished_lasting host store buffer.cap) tasks
      (Splitter.furnished_withBuffer store buffer)
  rcases Splitter.chunk?_eq host furnished.deposits first others small state with
    ⟨result, after, now, handed, outcome, chunked, part, whole, refused⟩
  refine ⟨result, after, now, handed, outcome, chunked, part, ?_, refused, ?_⟩
  · intro reached ok
    rcases splitter.chunk_moves host first others data state with ⟨taken, _, all, moves⟩
    rw [chunked, ok] at all moves
    rcases whole reached ok with ⟨length, joined⟩
    exact ⟨length, joined, all rfl ▸ moves.course⟩
  · intro Sound unfailing sound
    have ok := Splitter.chunk_unfailing unfailing
      ⟨furnished.store, furnished.deposits, sound⟩ first others data
    rw [chunked] at ok
    cases result with
    | error fault => cases ok
    | ok reached => rw [(whole reached rfl).1]

/-- Six bytes have passed before four parts are known.  Two of these are settled with the next byte,
and then the list has a single part, which begins behind the stream and whose body begins at the
last offset that there is. -/
theorem offsets_stay_in_range_stale :
    let memory : Store.Vault := (Store.Vault.empty.add (.volatile (.new 6))).2
    let bare : Metadata := Table.empty.insert "spam" (.text "no")
    let shown : Metadata := Table.empty.insert Metadata.partsKey (.parts
      [{ node := "1", start := 0, bodyStart := 1 }, { node := "2", start := 4, bodyStart := 2 },
        { node := "3", start := 3 }, { node := "4", start := 2 }])
    let stale : Mime.Part := { node := "1", start := 5, bodyStart := 2 ^ 64 - 1 }
    let leg : Leg Store.EngineKey Store.Vault Sink :=
      Leg.run ⟨.withBuffer ⟨0⟩ (Buffer.new.capTo 4), memory, {}⟩ Store.Vault.host .sink
        [.openMessage {}, .write (some bare) [1, 2, 3, 4, 5, 6], .write (some shown) [7]]
    leg.splitter.session.progress = 2 ∧
      ∃ after now handed,
        leg.splitter.chunk? Store.Vault.host [stale] [8, 9, 10] memory =
          some (.ok 10, ⟨after, now, handed⟩) ∧
        handed.flatten = [8, 9, 10] := by
  intro memory bare shown stale leg
  have position : leg.splitter.session.position = 7 := by decide +kernel
  have blank : Store.Vault.Keeps ⟨0⟩ memory .empty :=
    .memory (.new 6) rfl (Store.Volatile.represents_new 6)
  rcases offsets_stay_in_range Store.Vault.host .sink ⟨0⟩ (Buffer.new.capTo 4) memory {}
    [.openMessage {}, .write (some bare) [1, 2, 3, 4, 5, 6], .write (some shown) [7]] stale []
    [8, 9, 10] memory (by decide +kernel) with
    ⟨result, after, now, handed, outcome, _, _, whole, _, unfailing⟩
  have ok := unfailing _ (Store.Vault.answersAt ⟨0⟩).unfailing ⟨_, blank⟩
  have joined := (whole _ ok).2.1
  rw [position] at ok
  rw [ok] at outcome
  exact ⟨by decide +kernel, after, now, handed, outcome, joined⟩

/-- The slice up to a boundary that was passed is not one: it would end before it begins. -/
example (now : Handover κ σ) (host : Host κ σ) :
    now.bufferUntil? host 10 [1, 2, 3] 12 11 = none := rfl

end Transit
end MailVault
