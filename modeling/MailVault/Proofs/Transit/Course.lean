import MailVault.Transit.Splitter

/-!
# What a splitter does to its buffer

Whatever a splitter is asked to do with the bytes of a write, its buffer and the
store behind it go through few kinds of moves: bytes that fit are appended, a
chunk is stored or the store refuses it, and the label changes.  A course is a
row of such moves together with the bytes that were appended on the way.

The functions of the splitter are described here by the courses that they take
and by how far they come in the bytes they are given.  No offset and no list of
parts occurs in these descriptions: they hold for all of them, and for every
host, whether it fails or not.
-/

namespace MailVault
namespace Transit

open Store (Fault Host)

variable {κ σ : Type}

/-- The moves of a buffer and of the store behind it while the given bytes are appended. -/
inductive Course (host : Host κ σ) (buffer : Buffer κ) (state : σ) :
    Bytes → Buffer κ → σ → Prop where
  | stay : Course host buffer state [] buffer state
  | append {taken : Bytes} {later : Buffer κ} {now : σ} (data : Bytes)
      (before : Course host buffer state taken later now)
      (fits : data.length ≤ later.room) :
      Course host buffer state (taken ++ data) (later.append data) now
  | refused {taken : Bytes} {later : Buffer κ} {now after : σ} {fault : Fault}
      (before : Course host buffer state taken later now)
      (deposited : later.deposit host now = (.error fault, after)) :
      Course host buffer state taken later after
  | stored {taken : Bytes} {later : Buffer κ} {now after : σ}
      (before : Course host buffer state taken later now)
      (some : later.pending ≠ [])
      (deposited : later.deposit host now = (.ok (), after)) :
      Course host buffer state taken later.flushed after
  | relabelled {taken : Bytes} {later : Buffer κ} {now : σ} (part : Mime.Part)
      (before : Course host buffer state taken later now) :
      Course host buffer state taken (later.relabel part) now

namespace Course

variable {host : Host κ σ} {buffer later last : Buffer κ} {state now after : σ}
  {taken more : Bytes}

theorem trans (first : Course host buffer state taken later now)
    (second : Course host later now more last after) :
    Course host buffer state (taken ++ more) last after := by
  induction second with
  | stay =>
      rw [List.append_nil]
      exact first
  | append data _ fits inductionStep =>
      rw [← List.append_assoc]
      exact inductionStep.append data fits
  | refused _ deposited inductionStep => exact inductionStep.refused deposited
  | stored _ some deposited inductionStep => exact inductionStep.stored some deposited
  | relabelled part _ inductionStep => exact inductionStep.relabelled part

/-- The bytes in the buffer and in its chunks grow by exactly those that are appended. -/
theorem taken_eq (course : Course host buffer state taken later now) :
    later.taken = buffer.taken + taken.length := by
  induction course with
  | stay => rw [List.length_nil, Nat.add_zero]
  | append data _ _ inductionStep =>
      rw [Buffer.taken_append, inductionStep, List.length_append, Nat.add_assoc]
  | refused _ _ inductionStep => exact inductionStep
  | stored _ _ _ inductionStep => rw [Buffer.taken_flushed, inductionStep]
  | relabelled part _ inductionStep => exact inductionStep

theorem fixed (course : Course host buffer state taken later now) :
    later.cap = buffer.cap ∧ later.store = buffer.store := by
  induction course with
  | stay => exact ⟨rfl, rfl⟩
  | append _ _ _ inductionStep => exact inductionStep
  | refused _ _ inductionStep => exact inductionStep
  | stored _ _ _ inductionStep => exact inductionStep
  | relabelled _ _ inductionStep => exact inductionStep

end Course

namespace Buffer

theorem filled_ne_nil (buffer : Buffer κ) {data : Bytes} (some : data ≠ []) :
    (buffer.append (data.take buffer.room)).pending ≠ [] := by
  have positive := buffer.cap_pos
  have length : 0 < data.length := List.length_pos_iff.mpr some
  apply List.ne_nil_of_length_pos
  simp only [append, room, List.length_append, List.length_take]
  omega

theorem flush_course (buffer : Buffer κ) (host : Host κ σ) (state : σ) :
    Course host buffer state [] (buffer.flush host state).2.1 (buffer.flush host state).2.2 := by
  unfold flush
  by_cases none : buffer.pending = []
  · rw [if_pos none]
    exact .stay
  · rw [if_neg none]
    rcases deposited : buffer.deposit host state with ⟨result, after⟩
    cases result with
    | error fault => exact Course.stay.refused deposited
    | ok _ => exact Course.stay.stored none deposited

theorem pending_of_flush (buffer : Buffer κ) (host : Host κ σ) (state : σ)
    (ok : (buffer.flush host state).1 = .ok ()) : (buffer.flush host state).2.1.pending = [] := by
  unfold flush at ok ⊢
  by_cases none : buffer.pending = []
  · rw [if_pos none]
    exact none
  · rw [if_neg none] at ok ⊢
    rcases deposited : buffer.deposit host state with ⟨result, after⟩
    rw [deposited] at ok
    cases result with
    | error fault => cases ok
    | ok _ => rfl

/-- Feeding takes a first part of the data, and all of it unless the store fails. -/
theorem feed_course (buffer : Buffer κ) (host : Host κ σ) (data : Bytes) (state : σ) :
    ∃ taken, taken <+: data ∧
      ((buffer.feed host data state).1 = .ok () → taken = data) ∧
      Course host buffer state taken (buffer.feed host data state).2.1
        (buffer.feed host data state).2.2 := by
  fun_induction feed buffer host data state with
  | case1 buffer state =>
      exact ⟨[], List.nil_prefix, fun _ => rfl, .stay⟩
  | case2 buffer data state some short =>
      have fits : data.length ≤ buffer.room := by
        rw [List.length_take] at short
        omega
      exact ⟨data, List.prefix_rfl, fun _ => rfl, Course.stay.append data fits⟩
  | case3 buffer data state some long full fault after deposited =>
      refine ⟨data.take buffer.room, List.take_prefix _ _, (fun ok => by cases ok), ?_⟩
      exact (Course.stay.append _ (List.length_take_le _ _)).refused deposited
  | case4 buffer data state some long full after deposited inductionStep =>
      rcases inductionStep with ⟨taken, part, whole, course⟩
      have filled : Course host buffer state (data.take buffer.room) full.flushed after :=
        (Course.stay.append _ (List.length_take_le _ _)).stored (buffer.filled_ne_nil some)
          deposited
      refine ⟨data.take buffer.room ++ taken, ?_, ?_, filled.trans course⟩
      · rcases part with ⟨rest, equal⟩
        exact ⟨rest, by rw [List.append_assoc, equal, List.take_append_drop]⟩
      · intro ok
        rw [whole ok, List.take_append_drop]

theorem write_course (buffer : Buffer κ) (host : Host κ σ) (data : Bytes) (state : σ) :
    ∃ taken, taken <+: data ∧
      (∀ count, (buffer.write host data state).1 = .ok count →
        taken = data ∧ count = data.length) ∧
      Course host buffer state taken (buffer.write host data state).2.1
        (buffer.write host data state).2.2 := by
  rcases buffer.feed_course host data state with ⟨taken, part, whole, course⟩
  unfold write
  rcases fed : buffer.feed host data state with ⟨result, later, after⟩
  rw [fed] at whole course
  cases result with
  | error fault => exact ⟨taken, part, (fun count ok => by cases ok), course⟩
  | ok _ =>
      refine ⟨taken, part, ?_, course⟩
      intro count ok
      cases ok
      exact ⟨whole rfl, rfl⟩

end Buffer

/-- How the bytes that were taken account for the way of a cursor: all between two places, or a
first part of what was ahead when a fault ended the way. -/
def Cursor.Passed (cursor : Cursor) (taken : Bytes) : Except Fault Cursor → Prop
  | .ok later => cursor.rest = taken ++ later.rest ∧
      later.position = cursor.position + taken.length
  | .error _ => taken <+: cursor.rest

namespace Cursor

theorem Passed.trans {cursor later : Cursor} {taken more : Bytes}
    {result : Except Fault Cursor} (first : cursor.Passed taken (.ok later))
    (second : later.Passed more result) : cursor.Passed (taken ++ more) result := by
  rcases first with ⟨rest, position⟩
  cases result with
  | error fault =>
      rcases second with ⟨left, equal⟩
      exact ⟨left, by rw [rest, ← equal, List.append_assoc]⟩
  | ok last =>
      rcases second with ⟨nextRest, nextPosition⟩
      constructor
      · rw [rest, nextRest, List.append_assoc]
      · rw [nextPosition, position, List.length_append, Nat.add_assoc]

theorem passed_stay (cursor : Cursor) : cursor.Passed [] (.ok cursor) :=
  ⟨rfl, rfl⟩

theorem passed_advance (cursor : Cursor) (target : Nat) :
    cursor.Passed (cursor.upTo target) (.ok (cursor.advance target)) :=
  ⟨(List.take_append_drop _ _).symm, rfl⟩

end Cursor

namespace Splitter

/-- The count of a splitter is the number of bytes in its buffer and in its chunks. -/
def Balanced (splitter : Splitter κ) : Prop :=
  splitter.session.written = splitter.buffer.taken

/-- What happens to a splitter while it hands bytes to its buffer: the buffer takes a course, the
message stays the one that is open, and the count stays right. -/
structure Moves (host : Host κ σ) (taken : Bytes) (before : Splitter κ) (state : σ)
    (after : Splitter κ) (now : σ) : Prop where
  course : Course host before.buffer state taken after.buffer now
  store : after.store = before.store
  message : after.session.message = before.session.message
  balanced : before.Balanced → after.Balanced

theorem Moves.stay (host : Host κ σ) (splitter : Splitter κ) (state : σ) :
    Moves host [] splitter state splitter state :=
  ⟨.stay, rfl, rfl, id⟩

theorem Moves.trans {host : Host κ σ} {taken more : Bytes} {before middle after : Splitter κ}
    {state now finish : σ} (first : Moves host taken before state middle now)
    (second : Moves host more middle now after finish) :
    Moves host (taken ++ more) before state after finish where
  course := first.course.trans second.course
  store := second.store.trans first.store
  message := second.message.trans first.message
  balanced := second.balanced ∘ first.balanced

variable (host : Host κ σ)

theorem bufferUntil_moves (splitter : Splitter κ) (target : Nat) (cursor : Cursor) (state : σ) :
    ∃ taken, cursor.Passed taken (splitter.bufferUntil host target cursor state).1 ∧
      Moves host taken splitter state (splitter.bufferUntil host target cursor state).2.1
        (splitter.bufferUntil host target cursor state).2.2 := by
  rcases splitter.buffer.write_course host (cursor.upTo target) state with
    ⟨taken, part, whole, course⟩
  unfold bufferUntil
  rcases written : splitter.buffer.write host (cursor.upTo target) state with
    ⟨result, buffer, now⟩
  rw [written] at whole course
  cases result with
  | error fault =>
      exact ⟨taken, part.trans (List.take_prefix _ _), course, rfl, rfl, fun _ => rfl⟩
  | ok count =>
      rcases whole count rfl with ⟨rfl, rfl⟩
      refine ⟨cursor.upTo target, cursor.passed_advance target, course, rfl, rfl, ?_⟩
      intro balanced
      have grown : buffer.taken = splitter.buffer.taken + (cursor.upTo target).length :=
        course.taken_eq
      change splitter.session.written + (cursor.upTo target).length = buffer.taken
      rw [grown, balanced]

theorem cutAt_moves (splitter : Splitter κ) (part : Mime.Part) (boundary : Nat)
    (cursor : Cursor) (state : σ) :
    ∃ taken, cursor.Passed taken (splitter.cutAt host part boundary cursor state).1 ∧
      Moves host taken splitter state (splitter.cutAt host part boundary cursor state).2.1
        (splitter.cutAt host part boundary cursor state).2.2 := by
  unfold cutAt
  by_cases skipped : boundary = 0 ∨ boundary < cursor.position
  · rw [if_pos skipped]
    exact ⟨[], cursor.passed_stay, .stay host splitter state⟩
  · rw [if_neg skipped]
    rcases splitter.bufferUntil_moves host boundary cursor state with ⟨taken, passed, moves⟩
    rcases buffered : splitter.bufferUntil host boundary cursor state with ⟨result, later, now⟩
    rw [buffered] at passed moves
    cases result with
    | error fault => exact ⟨taken, passed, moves⟩
    | ok reached =>
        by_cases short : reached.position ≠ boundary
        · simp only [if_pos short]
          exact ⟨taken, passed, moves⟩
        · simp only [if_neg short]
          have course := later.buffer.flush_course host now
          rcases flushed : later.buffer.flush host now with ⟨result, buffer, finish⟩
          rw [flushed] at course
          have balanced : splitter.Balanced → later.session.written = buffer.taken := by
            intro balanced
            have same : buffer.taken = later.buffer.taken := course.taken_eq
            rw [same]
            exact moves.balanced balanced
          cases result with
          | error fault =>
              refine ⟨taken, ?_, ?_, moves.store, moves.message, balanced⟩
              · exact ⟨reached.rest, passed.1.symm⟩
              · have both := moves.course.trans course
                rwa [List.append_nil] at both
          | ok _ =>
              refine ⟨taken, passed, ?_, moves.store, moves.message, balanced⟩
              have both := moves.course.trans (course.relabelled part)
              rwa [List.append_nil] at both

theorem cutPart_moves (splitter : Splitter κ) (part : Mime.Part) (cursor : Cursor) (state : σ) :
    ∃ taken, cursor.Passed taken (splitter.cutPart host part cursor state).1 ∧
      Moves host taken splitter state (splitter.cutPart host part cursor state).2.1
        (splitter.cutPart host part cursor state).2.2 := by
  rcases splitter.cutAt_moves host part part.start cursor state with ⟨taken, passed, moves⟩
  unfold cutPart
  rcases cut : splitter.cutAt host part part.start cursor state with ⟨result, later, now⟩
  rw [cut] at passed moves
  cases result with
  | error fault => exact ⟨taken, passed, moves⟩
  | ok reached =>
      rcases later.cutAt_moves host part part.bodyStart reached now with
        ⟨more, nextPassed, nextMoves⟩
      exact ⟨taken ++ more, passed.trans nextPassed, moves.trans nextMoves⟩

/-- Scanning any parts takes the bytes between the cursor and where it gets to. -/
theorem scan_moves (waiting : List Mime.Part) (splitter : Splitter κ) (cursor : Cursor)
    (state : σ) :
    ∃ taken, cursor.Passed taken (scan host waiting splitter cursor state).1 ∧
      Moves host taken splitter state (scan host waiting splitter cursor state).2.1
        (scan host waiting splitter cursor state).2.2 := by
  induction waiting generalizing splitter cursor state with
  | nil => exact ⟨[], cursor.passed_stay, .stay host splitter state⟩
  | cons part waiting inductionStep =>
      rcases splitter.cutPart_moves host part cursor state with ⟨taken, passed, moves⟩
      rw [scan]
      rcases cut : splitter.cutPart host part cursor state with ⟨result, later, now⟩
      rw [cut] at passed moves
      cases result with
      | error fault => exact ⟨taken, passed, moves⟩
      | ok reached =>
          by_cases spent : reached.rest = []
          · simp only [if_pos spent]
            exact ⟨taken, passed, moves⟩
          · by_cases last : waiting = []
            · simp only [if_neg spent, if_pos last]
              rcases later.bufferUntil_moves host reached.last reached now with
                ⟨more, nextPassed, nextMoves⟩
              exact ⟨taken ++ more, passed.trans nextPassed, moves.trans nextMoves⟩
            · simp only [if_neg spent, if_neg last]
              rcases inductionStep later reached now with ⟨more, nextPassed, nextMoves⟩
              exact ⟨taken ++ more, passed.trans nextPassed, moves.trans nextMoves⟩

/-- What is buffered up to the end leaves nothing ahead. -/
theorem rest_of_bufferUntil_last (splitter : Splitter κ) (cursor : Cursor) (state : σ)
    {later : Cursor} (ok : (splitter.bufferUntil host cursor.last cursor state).1 = .ok later) :
    later.rest = [] := by
  unfold bufferUntil at ok
  rcases written : splitter.buffer.write host (cursor.upTo cursor.last) state with
    ⟨result, buffer, now⟩
  rw [written] at ok
  cases result with
  | error fault => cases ok
  | ok count =>
      cases ok
      simp [Cursor.advance, Cursor.last]

/-- A scan of at least one part that does not fail goes to the end of the write. -/
theorem rest_of_scan (waiting : List Mime.Part) (some : waiting ≠ []) (splitter : Splitter κ)
    (cursor : Cursor) (state : σ) ⦃later : Cursor⦄
    (ok : (scan host waiting splitter cursor state).1 = .ok later) : later.rest = [] := by
  induction waiting generalizing splitter cursor state with
  | nil => exact absurd rfl some
  | cons part waiting inductionStep =>
      rw [scan] at ok
      rcases cut : splitter.cutPart host part cursor state with ⟨result, middle, now⟩
      rw [cut] at ok
      cases result with
      | error fault => cases ok
      | ok reached =>
          by_cases spent : reached.rest = []
          · simp only [if_pos spent] at ok
            cases ok
            exact spent
          · by_cases last : waiting = []
            · simp only [if_neg spent, if_pos last] at ok
              exact middle.rest_of_bufferUntil_last host reached now ok
            · simp only [if_neg spent, if_neg last] at ok
              exact inductionStep last middle reached now ok

end Splitter
end Transit
end MailVault
