import MailVault.Proofs.Transit.Draft

/-!
# Where a write is cut

The boundaries of the published parts are marks on the stream, each with the label
that begins there.  A scan visits the marks in list order; a mark that has been
passed is skipped, and a mark beyond the end of the write is as good as the end.

So the marks that a write cuts at are those of a climb: starting from the offset of
the write, a mark counts if no mark that counted before it lies further on.  A climb
from a higher offset is what the climb from a lower one has from there on.  This is
what makes it possible to scan the same parts anew with each write.
-/

namespace MailVault
namespace Transit

open Store (Host Ledger)

variable {κ σ : Type} {cap : Nat}

/-- A boundary in the stream, with the label of what begins there. -/
structure Mark where
  offset : Nat
  label : Label
deriving DecidableEq

/-- The boundaries of a part that are known: where it starts and where its body does. -/
def marksOf (part : Mime.Part) : List Mark :=
  ([part.start, part.bodyStart].filter fun boundary => decide (boundary ≠ 0)).map
    fun boundary => ⟨boundary, .ofPart part⟩

/-- The boundaries of parts, in the order of the list. -/
def marks (parts : List Mime.Part) : List Mark :=
  parts.flatMap marksOf

/-- The body of a part does not begin before the part does, as far as it is known. -/
def Ordered (part : Mime.Part) : Prop :=
  part.bodyStart = 0 ∨ part.start ≤ part.bodyStart

instance (part : Mime.Part) : Decidable (Ordered part) :=
  inferInstanceAs (Decidable (part.bodyStart = 0 ∨ part.start ≤ part.bodyStart))

/-! ## Climbs -/

/-- The marks at which the stream is cut from an offset on: each lies at or behind the one before
it. -/
def climb (high : Nat) : List Mark → List Mark
  | [] => []
  | mark :: later =>
    if mark.offset < high then climb high later else mark :: climb mark.offset later

def summit (high : Nat) : List Mark → Nat
  | [] => high
  | mark :: later => summit (max high mark.offset) later

theorem climb_append (high : Nat) (first second : List Mark) :
    climb high (first ++ second) = climb high first ++ climb (summit high first) second := by
  induction first generalizing high with
  | nil => rfl
  | cons mark first inductionStep =>
      rw [List.cons_append, climb, climb, summit]
      by_cases passed : mark.offset < high
      · rw [if_pos passed, if_pos passed, inductionStep, Nat.max_eq_left (Nat.le_of_lt passed)]
      · rw [if_neg passed, if_neg passed, inductionStep, Nat.max_eq_right (Nat.not_lt.mp passed),
          List.cons_append]

theorem le_of_mem_climb {high : Nat} {list : List Mark} {mark : Mark}
    (member : mark ∈ climb high list) : high ≤ mark.offset := by
  induction list generalizing high with
  | nil => cases member
  | cons first later inductionStep =>
      rw [climb] at member
      by_cases passed : first.offset < high
      · rw [if_pos passed] at member
        exact inductionStep member
      · rw [if_neg passed] at member
        rcases List.mem_cons.mp member with here | behind
        · rw [here]
          exact Nat.not_lt.mp passed
        · exact Nat.le_trans (Nat.not_lt.mp passed) (inductionStep behind)

theorem mem_of_mem_climb {high : Nat} {list : List Mark} {mark : Mark}
    (member : mark ∈ climb high list) : mark ∈ list := by
  induction list generalizing high with
  | nil => cases member
  | cons first later inductionStep =>
      rw [climb] at member
      by_cases passed : first.offset < high
      · rw [if_pos passed] at member
        exact List.mem_cons_of_mem _ (inductionStep member)
      · rw [if_neg passed] at member
        rcases List.mem_cons.mp member with here | behind
        · exact here ▸ List.mem_cons_self
        · exact List.mem_cons_of_mem _ (inductionStep behind)

/-- A climb that starts higher is the upper part of one that starts lower. -/
theorem climb_of_le {low high : Nat} (le : low ≤ high) (list : List Mark) :
    climb high list = (climb low list).filter fun mark => decide (high ≤ mark.offset) := by
  induction list generalizing low high with
  | nil => rfl
  | cons mark later inductionStep =>
      rw [climb, climb]
      by_cases under : mark.offset < low
      · rw [if_pos (Nat.lt_of_lt_of_le under le), if_pos under]
        exact inductionStep le
      · rw [if_neg under]
        by_cases between : mark.offset < high
        · rw [if_pos between, List.filter_cons_of_neg (by simpa using between)]
          exact inductionStep (Nat.le_of_lt between)
        · have spent := Nat.not_lt.mp between
          rw [if_neg between, List.filter_cons_of_pos (by simpa using spent)]
          congr 1
          rw [List.filter_eq_self.mpr]
          intro other member
          simpa using Nat.le_trans spent (le_of_mem_climb member)

/-- Marks below the start of a climb do not matter. -/
theorem climb_append_of_lt {high : Nat} {first : List Mark}
    (below : ∀ mark ∈ first, mark.offset < high) (second : List Mark) :
    climb high (first ++ second) = climb high second := by
  induction first with
  | nil => rfl
  | cons mark first inductionStep =>
      rw [List.cons_append, climb, if_pos (below mark List.mem_cons_self)]
      exact inductionStep fun other member => below other (List.mem_cons_of_mem _ member)

theorem climb_of_sorted {list : List Mark}
    (sorted : list.Pairwise fun first second => first.offset ≤ second.offset) (high : Nat) :
    climb high list = list.filter fun mark => decide (high ≤ mark.offset) := by
  rw [climb_of_le (Nat.zero_le high)]
  congr 1
  have all : ∀ low : Nat, (∀ mark ∈ list, low ≤ mark.offset) → climb low list = list := by
    induction sorted with
    | nil => exact fun _ _ => rfl
    | @cons mark later behind _ inductionStep =>
        intro low spent
        rw [climb, if_neg (Nat.not_lt.mpr (spent mark List.mem_cons_self)),
          inductionStep mark.offset behind]
  exact all 0 fun _ _ => Nat.zero_le _

theorem sorted_climb (high : Nat) (list : List Mark) :
    (climb high list).Pairwise fun first second => first.offset ≤ second.offset := by
  induction list generalizing high with
  | nil => exact .nil
  | cons mark later inductionStep =>
      rw [climb]
      split
      · exact inductionStep high
      · exact .cons (fun _ member => le_of_mem_climb member) (inductionStep mark.offset)

theorem le_summit (high : Nat) (list : List Mark) : high ≤ summit high list := by
  induction list generalizing high with
  | nil => exact Nat.le_refl _
  | cons mark later inductionStep =>
      exact Nat.le_trans (Nat.le_max_left _ _) (inductionStep (max high mark.offset))

theorem le_summit_of_mem {high : Nat} {list : List Mark} {mark : Mark}
    (member : mark ∈ climb high list) : mark.offset ≤ summit high list := by
  induction list generalizing high with
  | nil => cases member
  | cons first later inductionStep =>
      rw [climb] at member
      rw [summit]
      by_cases passed : first.offset < high
      · rw [if_pos passed] at member
        rw [Nat.max_eq_left (Nat.le_of_lt passed)]
        exact inductionStep member
      · rw [if_neg passed] at member
        rw [Nat.max_eq_right (Nat.not_lt.mp passed)]
        rcases List.mem_cons.mp member with here | behind
        · rw [here]
          exact le_summit _ _
        · exact inductionStep behind

/-- Marks in order are those before an offset and then the others. -/
theorem split_of_sorted {list : List Mark}
    (sorted : list.Pairwise fun first second => first.offset ≤ second.offset) (near : Nat) :
    list = (list.filter fun mark => decide (mark.offset < near)) ++
      list.filter fun mark => decide (near ≤ mark.offset) := by
  induction sorted with
  | nil => rfl
  | @cons mark later behind _ inductionStep =>
      by_cases before : mark.offset < near
      · rw [List.filter_cons_of_pos (by simpa using before),
          List.filter_cons_of_neg (by simpa using before), List.cons_append, ← inductionStep]
      · have none : (later.filter fun mark => decide (mark.offset < near)) = [] := by
          rw [List.filter_eq_nil_iff]
          intro other member
          have order := behind other member
          simp only [decide_eq_true_eq]
          omega
        rw [none, List.nil_append] at inductionStep
        rw [List.filter_cons_of_neg (by simpa using before), none, List.nil_append,
          List.filter_cons_of_pos (by simpa using before), ← inductionStep]

/-- Marks in order up to an offset are those before it and then those at it. -/
theorem filter_le_of_sorted {list : List Mark}
    (sorted : list.Pairwise fun first second => first.offset ≤ second.offset) (last : Nat) :
    (list.filter fun mark => decide (mark.offset ≤ last)) =
      (list.filter fun mark => decide (mark.offset < last)) ++
        list.filter fun mark => decide (mark.offset = last) := by
  conv => lhs; rw [split_of_sorted sorted last, List.filter_append, List.filter_filter,
    List.filter_filter]
  congr 1
  · apply List.filter_congr
    intro mark _
    rw [← Bool.decide_and, decide_eq_decide]
    omega
  · apply List.filter_congr
    intro mark _
    rw [← Bool.decide_and, decide_eq_decide]
    omega

def between (list : List Mark) (near far : Nat) : List Mark :=
  list.filter fun mark => decide (near ≤ mark.offset ∧ mark.offset < far)

/-- Marks in order before an offset are those before a nearer one and then those between. -/
theorem filter_lt_of_sorted {list : List Mark}
    (sorted : list.Pairwise fun first second => first.offset ≤ second.offset) {near far : Nat}
    (order : near ≤ far) :
    (list.filter fun mark => decide (mark.offset < far)) =
      (list.filter fun mark => decide (mark.offset < near)) ++ between list near far := by
  conv => lhs; rw [split_of_sorted sorted near, List.filter_append, List.filter_filter,
    List.filter_filter]
  congr 1
  · apply List.filter_congr
    intro mark _
    rw [← Bool.decide_and, decide_eq_decide]
    omega
  · apply List.filter_congr
    intro mark _
    rw [← Bool.decide_and, decide_eq_decide]
    omega

/-! ## Places -/

namespace Cursor

@[simp] theorem last_advance (cursor : Cursor) (target : Nat) :
    (cursor.advance target).last = cursor.last := by
  simp only [advance, last, upTo, List.length_take, List.length_drop]
  omega

theorem position_advance (cursor : Cursor) {target : Nat} (ahead : cursor.position ≤ target) :
    (cursor.advance target).position = min target cursor.last := by
  simp only [advance, last, upTo, List.length_take]
  omega

theorem rest_eq_nil_iff (cursor : Cursor) : cursor.rest = [] ↔ cursor.last ≤ cursor.position := by
  rw [last, ← List.length_eq_zero_iff]
  omega

/-- The bytes up to a further target are those up to a nearer one and then the others. -/
theorem upTo_append (cursor : Cursor) {near far : Nat} (order : near ≤ far) :
    cursor.upTo near ++ (cursor.advance near).upTo far = cursor.upTo far := by
  simp only [upTo, advance, List.length_take]
  by_cases inside : near - cursor.position ≤ cursor.rest.length
  · have sum : far - cursor.position = (near - cursor.position) +
        (far - (cursor.position + min (near - cursor.position) cursor.rest.length)) := by
      omega
    conv => rhs; rw [sum, List.take_add]
  · rw [List.drop_eq_nil_of_le (by omega), List.take_nil, List.append_nil,
      List.take_of_length_le (by omega), List.take_of_length_le (by omega)]

theorem advance_advance (cursor : Cursor) {near far : Nat} (order : near ≤ far) :
    (cursor.advance near).advance far = cursor.advance far := by
  have bytes := congrArg List.length (cursor.upTo_append order)
  have rest : ((cursor.advance near).rest.drop (far - (cursor.advance near).position)) =
      cursor.rest.drop (far - cursor.position) := by
    simp only [advance, upTo, List.length_take, List.drop_drop]
    by_cases inside : near - cursor.position ≤ cursor.rest.length
    · congr 1
      omega
    · rw [List.drop_eq_nil_of_le (by omega), List.drop_eq_nil_of_le (by omega)]
  rw [List.length_append] at bytes
  rw [advance, rest, advance, advance, ← bytes, Nat.add_assoc]
  rfl

end Cursor

/-- A draft with the part of the write that is still ahead. -/
structure Place (cap : Nat) where
  draft : Draft cap
  cursor : Cursor

namespace Place

/-- Take in the bytes before a target. -/
def reach (place : Place cap) (target : Nat) : Place cap where
  draft := place.draft.fed (place.cursor.upTo target)
  cursor := place.cursor.advance target

def finish (place : Place cap) : Place cap :=
  place.reach place.cursor.last

/-- Take in the bytes before a mark, and cut there. -/
def pass (place : Place cap) (mark : Mark) : Place cap :=
  { place.reach mark.offset with draft := (place.reach mark.offset).draft.cut mark.label }

/-- Cut at all of the marks. -/
def through (place : Place cap) (list : List Mark) : Place cap :=
  list.foldl pass place

/-- Cut at a mark that is ahead, if the write reaches it. -/
def visit (place : Place cap) (mark : Mark) : Place cap :=
  if mark.offset < place.cursor.position then place
  else if (place.reach mark.offset).cursor.position ≠ mark.offset then place.reach mark.offset
  else place.pass mark

/-- Visit the marks of parts until the write is used up. -/
def scan : List Mime.Part → Place cap → Place cap
  | [], place => place
  | part :: later, place =>
    let reached := (marksOf part).foldl visit place
    if reached.cursor.rest = [] then reached
    else if later = [] then reached.finish
    else scan later reached

theorem reach_reach (place : Place cap) {near far : Nat} (order : near ≤ far) :
    (place.reach near).reach far = place.reach far := by
  simp only [reach, ← Draft.fed_append, Cursor.upTo_append _ order,
    Cursor.advance_advance _ order]

/-- A target behind the end is as good as the end. -/
theorem reach_of_last_le (place : Place cap) {target : Nat} (beyond : place.cursor.last ≤ target) :
    place.reach target = place.finish := by
  have all : place.cursor.rest.length ≤ target - place.cursor.position := by
    rw [Cursor.last] at beyond
    omega
  have whole : place.cursor.rest.length ≤ place.cursor.last - place.cursor.position := by
    rw [Cursor.last]
    omega
  simp only [finish, reach, Cursor.advance, Cursor.upTo, List.take_of_length_le all,
    List.take_of_length_le whole, List.drop_eq_nil_of_le all, List.drop_eq_nil_of_le whole]

@[simp] theorem last_pass (place : Place cap) (mark : Mark) :
    (place.pass mark).cursor.last = place.cursor.last :=
  place.cursor.last_advance mark.offset

@[simp] theorem last_through (place : Place cap) (list : List Mark) :
    (place.through list).cursor.last = place.cursor.last := by
  induction list generalizing place with
  | nil => rfl
  | cons mark later inductionStep => exact (inductionStep (place.pass mark)).trans (last_pass _ _)

theorem through_append (place : Place cap) (first second : List Mark) :
    place.through (first ++ second) = (place.through first).through second :=
  List.foldl_append

theorem finish_of_rest {place : Place cap} (none : place.cursor.rest = []) :
    place.finish = place := by
  cases place with
  | mk draft cursor =>
      cases cursor with
      | mk position rest =>
          simp only at none
          subst none
          simp [finish, reach, Cursor.upTo, Cursor.advance]

@[simp] theorem last_finish (place : Place cap) :
    place.finish.cursor.last = place.cursor.last :=
  place.cursor.last_advance _

@[simp] theorem position_finish (place : Place cap) :
    place.finish.cursor.position = place.cursor.last := by
  have ahead : place.cursor.position ≤ place.cursor.last := Nat.le_add_right _ _
  exact (place.cursor.position_advance ahead).trans (Nat.min_self _)

@[simp] theorem rest_finish (place : Place cap) : place.finish.cursor.rest = [] := by
  rw [Cursor.rest_eq_nil_iff]
  exact Nat.le_of_eq (place.last_finish.trans place.position_finish.symm)

/-- Once the write is used up, only a mark at its end changes anything. -/
theorem visit_of_rest {place : Place cap} (none : place.cursor.rest = []) {mark : Mark}
    (away : mark.offset ≠ place.cursor.position) : place.visit mark = place := by
  unfold visit
  by_cases passed : mark.offset < place.cursor.position
  · rw [if_pos passed]
  · have behind : place.cursor.last ≤ mark.offset :=
      Nat.le_trans ((Cursor.rest_eq_nil_iff _).mp none) (Nat.not_lt.mp passed)
    rw [if_neg passed, place.reach_of_last_le behind, finish_of_rest none, if_pos away.symm]

/-- Marks behind the end change nothing once the write is used up. -/
theorem visits_of_beyond {list : List Mark} {place : Place cap} (none : place.cursor.rest = [])
    (beyond : ∀ mark ∈ list, place.cursor.last < mark.offset) :
    list.foldl visit place = place := by
  induction list with
  | nil => rfl
  | cons mark later inductionStep =>
      have ahead : place.cursor.position ≤ place.cursor.last := Nat.le_add_right _ _
      have away : mark.offset ≠ place.cursor.position :=
        Nat.ne_of_gt (Nat.lt_of_le_of_lt ahead (beyond mark List.mem_cons_self))
      rw [List.foldl_cons, visit_of_rest none away]
      exact inductionStep fun other member => beyond other (List.mem_cons_of_mem _ member)

/-- The marks of a climb from a place on that the write reaches. -/
def cuts (place : Place cap) (list : List Mark) : List Mark :=
  (climb place.cursor.position list).filter fun mark => decide (mark.offset ≤ place.cursor.last)

/-- What visiting marks in order comes to: those of the climb within the write are cut at, and if
the climb leads beyond the write, the write is used up. -/
theorem visits_of_sorted {list : List Mark}
    (sorted : list.Pairwise fun first second => first.offset ≤ second.offset)
    (place : Place cap) :
    list.foldl visit place =
        (if summit place.cursor.position list ≤ place.cursor.last then
          place.through (place.cuts list)
        else (place.through (place.cuts list)).finish) ∧
      (list.foldl visit place).cursor.last = place.cursor.last ∧
      (list.foldl visit place).cursor.position =
        min (summit place.cursor.position list) place.cursor.last := by
  induction sorted generalizing place with
  | nil =>
      have ahead : place.cursor.position ≤ place.cursor.last := Nat.le_add_right _ _
      refine ⟨?_, rfl, ?_⟩
      · rw [summit, if_pos ahead]
        rfl
      · rw [summit, Nat.min_eq_left ahead]
        rfl
  | @cons mark later behind sorted inductionStep =>
      rw [List.foldl_cons, cuts, climb, summit]
      by_cases passed : mark.offset < place.cursor.position
      · rw [visit, if_pos passed, if_pos passed, Nat.max_eq_left (Nat.le_of_lt passed)]
        exact inductionStep place
      · have ahead := Nat.not_lt.mp passed
        have reached : (place.reach mark.offset).cursor.position =
            min mark.offset place.cursor.last := place.cursor.position_advance ahead
        rw [visit, if_neg passed, if_neg passed, Nat.max_eq_right ahead]
        by_cases within : mark.offset ≤ place.cursor.last
        · rw [Nat.min_eq_left within] at reached
          have position : (place.pass mark).cursor.position = mark.offset := reached
          have step := inductionStep (place.pass mark)
          rw [cuts, position, last_pass] at step
          rw [if_neg (not_not.mpr reached), List.filter_cons_of_pos (by simpa using within)]
          exact step
        · have beyond : ∀ other ∈ mark :: later, place.finish.cursor.last < other.offset := by
            intro other member
            rw [last_finish]
            rcases List.mem_cons.mp member with here | after
            · rw [here]
              exact Nat.not_le.mp within
            · exact Nat.lt_of_lt_of_le (Nat.not_le.mp within) (behind other after)
          have spent : place.cursor.last < summit mark.offset later :=
            Nat.lt_of_lt_of_le (Nat.not_le.mp within) (le_summit _ _)
          have none : ((mark :: climb mark.offset later).filter fun mark =>
              decide (mark.offset ≤ place.cursor.last)) = [] := by
            rw [List.filter_eq_nil_iff]
            intro other member
            have low : mark.offset ≤ other.offset := by
              rcases List.mem_cons.mp member with here | after
              · exact Nat.le_of_eq (congrArg Mark.offset here.symm)
              · exact le_of_mem_climb after
            simp only [decide_eq_true_eq]
            omega
          rw [if_pos (by omega), place.reach_of_last_le (by omega),
            visits_of_beyond place.rest_finish fun other member =>
              beyond other (List.mem_cons_of_mem _ member), if_neg (by omega), none,
            Nat.min_eq_right (Nat.le_of_lt spent)]
          exact ⟨rfl, place.last_finish, place.position_finish⟩

theorem sorted_marksOf {part : Mime.Part} (ordered : Ordered part) :
    (marksOf part).Pairwise fun first second => first.offset ≤ second.offset := by
  unfold marksOf
  rw [List.pairwise_map]
  by_cases unknown : part.bodyStart = 0
  · by_cases first : part.start = 0
    · simp [unknown, first]
    · simp [unknown, first]
  · have order := ordered.resolve_left unknown
    apply List.Pairwise.filter
    exact List.pairwise_pair.mpr order

/-- A scan cuts at the marks of the climb that lie before the end of the write, and perhaps at
some that lie just at its end, and then takes in what is left. -/
theorem scan_eq (waiting : List Mime.Part) (some : waiting ≠ [])
    (ordered : ∀ part ∈ waiting, Ordered part) (place : Place cap) {base last : Nat}
    (begins : place.cursor.position = base) (ends : place.cursor.last = last) :
    ∃ extras, (∀ mark ∈ extras, mark.offset = last ∧ mark ∈ climb base (marks waiting)) ∧
      scan waiting place =
        (place.through
          (((climb base (marks waiting)).filter fun mark => decide (mark.offset < last)) ++
            extras)).finish := by
  subst begins ends
  induction waiting generalizing place with
  | nil => exact absurd rfl some
  | cons part later inductionStep =>
      have split : marks (part :: later) = marksOf part ++ marks later := List.flatMap_cons
      rcases visits_of_sorted (sorted_marksOf (ordered part List.mem_cons_self)) place with
        ⟨visited, last, position⟩
      rw [scan, split, climb_append, List.filter_append]
      generalize (marksOf part).foldl visit place = reached at visited last position
      have above : ∀ mark ∈ climb (summit place.cursor.position (marksOf part)) (marks later),
          summit place.cursor.position (marksOf part) ≤ mark.offset :=
        fun _ member => le_of_mem_climb member
      by_cases spent : reached.cursor.rest = []
      · -- The write ends in this part: later marks are cut at by later writes, if at all.
        have beyond : place.cursor.last ≤ summit place.cursor.position (marksOf part) := by
          rw [Cursor.rest_eq_nil_iff, last, position] at spent
          omega
        have none : ((climb (summit place.cursor.position (marksOf part)) (marks later)).filter
            fun mark => decide (mark.offset < place.cursor.last)) = [] := by
          rw [List.filter_eq_nil_iff]
          intro mark member
          have := above mark member
          simp only [decide_eq_true_eq]
          omega
        have done : reached = (place.through (place.cuts (marksOf part))).finish := by
          by_cases inside : summit place.cursor.position (marksOf part) ≤ place.cursor.last
          · rw [if_pos inside] at visited
            rw [← visited, finish_of_rest spent]
          · rw [if_neg inside] at visited
            exact visited
        refine ⟨(climb place.cursor.position (marksOf part)).filter fun mark =>
          decide (mark.offset = place.cursor.last), ?_, ?_⟩
        · intro mark member
          rcases List.mem_filter.mp member with ⟨climbed, here⟩
          exact ⟨of_decide_eq_true here, List.mem_append_left _ climbed⟩
        · rw [if_pos spent, none, List.append_nil, ← filter_le_of_sorted (sorted_climb _ _), done,
            cuts]
      · -- The write goes on behind this part, so all of its marks are cut at or passed.
        have inside : summit place.cursor.position (marksOf part) < place.cursor.last := by
          rw [Cursor.rest_eq_nil_iff, last, position] at spent
          omega
        have all : place.cuts (marksOf part) = climb place.cursor.position (marksOf part) := by
          rw [cuts, List.filter_eq_self]
          intro mark member
          exact decide_eq_true
            (Nat.le_of_lt (Nat.lt_of_le_of_lt (le_summit_of_mem member) inside))
        have mine : ((climb place.cursor.position (marksOf part)).filter fun mark =>
            decide (mark.offset < place.cursor.last)) =
              climb place.cursor.position (marksOf part) := by
          rw [List.filter_eq_self]
          intro mark member
          exact decide_eq_true (Nat.lt_of_le_of_lt (le_summit_of_mem member) inside)
        rw [if_pos (Nat.le_of_lt inside), all] at visited
        rw [Nat.min_eq_left (Nat.le_of_lt inside)] at position
        rw [if_neg spent, mine]
        by_cases final : later = []
        · subst final
          refine ⟨[], fun _ member => (List.not_mem_nil member).elim, ?_⟩
          rw [if_pos rfl, List.append_nil, visited]
          exact congrArg (fun list => (place.through list).finish) (List.append_nil _).symm
        · rcases inductionStep final
            (fun other member => ordered other (List.mem_cons_of_mem _ member)) reached with
              ⟨extras, atEnd, scanned⟩
          rw [last, position] at atEnd scanned
          refine ⟨extras, ?_, ?_⟩
          · intro mark member
            exact ⟨(atEnd mark member).1, List.mem_append_right _ (atEnd mark member).2⟩
          · rw [if_neg final, scanned, List.append_assoc, through_append place, ← visited]

end Place
end Transit
end MailVault
