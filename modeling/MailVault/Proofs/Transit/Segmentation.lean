import MailVault.Proofs.Transit.Stream

/-!
# Where the chunks of a message begin and end

When the boundaries of the final parts are in order, and each write comes with all
boundaries before its end, the chunks of a message are what one expects of the final
parts alone: the message is cut at every boundary inside it, each section is cut into
pieces of the size of the cap from its own beginning, and a piece carries the label of
the last part that has begun where the piece begins.
-/

namespace MailVault
namespace Transit

open Store (Host Ledger)

variable {κ σ : Type} {cap : Nat}

/-! ## The expected chunks -/

/-- Pieces of the size of the cap, of which only the last may be shorter. -/
def pieces (cap : Nat) (positive : 0 < cap) (content : Bytes) : List Bytes :=
  if content = [] then [] else content.take cap :: pieces cap positive (content.drop cap)
termination_by content.length
decreasing_by
  have some : 0 < content.length := List.length_pos_iff.mpr ‹_›
  rw [List.length_drop]
  omega

/-- Pieces one after the other, each described with the label at its offset. -/
def describeFrom (labelAt : Nat → Label) : Nat → List Bytes → List Descriptor
  | _, [] => []
  | offset, piece :: later =>
    Draft.describe (labelAt offset) piece :: describeFrom labelAt (offset + piece.length) later

/-- The sections between cuts, with their offsets. -/
def sectionsFrom : Nat → Bytes → List Nat → List (Nat × Bytes)
  | offset, content, [] => [(offset, content)]
  | offset, content, cut :: later =>
    (offset, content.take (cut - offset)) ::
      sectionsFrom cut (content.drop (cut - offset)) later

/-- A part has begun at an offset if one of its boundaries is there or before. -/
def Begun (offset : Nat) (part : Mime.Part) : Prop :=
  ∃ mark ∈ marksOf part, mark.offset ≤ offset

instance (offset : Nat) (part : Mime.Part) : Decidable (Begun offset part) :=
  inferInstanceAs (Decidable (∃ mark ∈ marksOf part, _))

/-- The label of the last part that has begun, and of the first part if none has. -/
def labelAt (first : Mime.Part) (others : List Mime.Part) (offset : Nat) : Label :=
  .ofPart (((first :: others).filter fun part => decide (Begun offset part)).getLastD first)

/-- The chunks that are expected of a message with the given final parts. -/
def expectedChunks (first : Mime.Part) (others : List Mime.Part) (asked : Nat)
    (content : Bytes) : List Descriptor :=
  let cuts := ((marks (first :: others)).map Mark.offset).filter fun offset =>
    decide (0 < offset ∧ offset < content.length)
  (sectionsFrom 0 content cuts).flatMap fun part =>
    describeFrom (labelAt first others) part.1 (pieces (capOf asked) (capOf_pos asked) part.2)

/-! ## Sections and pieces -/

/-- A draft without pending bytes makes pieces of the bytes that it takes in. -/
theorem Draft.entries_flush_fed (draft : Draft cap) (none : draft.pending = [])
    (positive : 0 < cap) (content : Bytes) :
    (draft.fed content).flush.entries =
      draft.entries ++ (pieces cap positive content).map (describe draft.label) := by
  fun_induction pieces cap positive content generalizing draft with
  | case1 => rw [fed_nil, flush_of_nil none, List.map_nil, List.append_nil]
  | case2 content some inductionStep =>
      have pending : draft.pending.length = 0 := by rw [none, List.length_nil]
      by_cases short : content.length < cap
      · have fits : draft.pending.length + content.length < cap := by omega
        have spent : pieces cap positive (content.drop cap) = [] := by
          rw [List.drop_eq_nil_of_le (Nat.le_of_lt short), pieces, if_pos rfl]
        have held : (draft.append content fits).pending = content := by
          change draft.pending ++ content = content
          rw [none, List.nil_append]
        rw [fed_of_fits draft content fits, flush,
          if_neg (fun empty => some (held.symm.trans empty)), held, spent,
          List.take_of_length_le (Nat.le_of_lt short)]
        rfl
      · have length : (content.take cap).length = cap := by
          rw [List.length_take]
          omega
        have stored : draft.fed (content.take cap) = draft.store (content.take cap) := by
          rw [fed_of_fills draft _ (by omega), none, List.nil_append]
        have split : draft.fed content =
            (draft.store (content.take cap)).fed (content.drop cap) := by
          rw [← stored, ← fed_append, List.take_append_drop]
        rw [split, inductionStep _ rfl, List.map_cons]
        simp [store]

/-- The chunks between marks: before the first mark with the label of the beginning, and then
with that of each mark. -/
def markedChunks (positive : 0 < cap) (label : Label) (offset : Nat) (content : Bytes) :
    List Mark → List Descriptor
  | [] => (pieces cap positive content).map (Draft.describe label)
  | mark :: later =>
    (pieces cap positive (content.take (mark.offset - offset))).map (Draft.describe label) ++
      markedChunks positive mark.label mark.offset (content.drop (mark.offset - offset)) later

/-- Going through marks in order makes the chunks between them. -/
theorem Place.entries_through (positive : 0 < cap) {list : List Mark}
    (sorted : list.Pairwise fun first second => first.offset ≤ second.offset) (place : Place cap)
    (none : place.draft.pending = []) (ahead : ∀ mark ∈ list, place.cursor.position ≤ mark.offset)
    (within : ∀ mark ∈ list, mark.offset ≤ place.cursor.last) :
    (place.through list).finish.draft.flush.entries =
      place.draft.entries ++
        markedChunks positive place.draft.label place.cursor.position place.cursor.rest list := by
  induction sorted generalizing place with
  | nil =>
      have all : place.cursor.upTo place.cursor.last = place.cursor.rest := by
        rw [Cursor.upTo, Cursor.last, Nat.add_sub_cancel_left, List.take_length]
      exact (congrArg (fun bytes => (place.draft.fed bytes).flush.entries) all).trans
        (place.draft.entries_flush_fed none positive place.cursor.rest)
  | @cons mark later behind _ inductionStep =>
      have position : (place.pass mark).cursor.position = mark.offset :=
        (place.cursor.position_advance (ahead mark List.mem_cons_self)).trans
          (Nat.min_eq_left (within mark List.mem_cons_self))
      have pending : (place.pass mark).draft.pending = [] := Draft.pending_flush _
      have entries : (place.pass mark).draft.entries = place.draft.entries ++
          (pieces cap positive (place.cursor.upTo mark.offset)).map
            (Draft.describe place.draft.label) :=
        place.draft.entries_flush_fed none positive _
      have step := inductionStep (place.pass mark) pending
        (by rw [position]; exact behind)
        (by
          rw [last_pass]
          exact fun other member => within other (List.mem_cons_of_mem _ member))
      rw [entries, position, List.append_assoc] at step
      exact step

/-! ## Labels -/

/-- The label after marks up to an offset. -/
def labelAfter (offset : Nat) (label : Label) (list : List Mark) : Label :=
  list.foldl (fun label mark => if mark.offset ≤ offset then mark.label else label) label

theorem labelAfter_of_lt {offset : Nat} {label : Label} {list : List Mark}
    (later : ∀ mark ∈ list, offset < mark.offset) : labelAfter offset label list = label := by
  induction list with
  | nil => rfl
  | cons mark list inductionStep =>
      have behind := later mark List.mem_cons_self
      rw [labelAfter, List.foldl_cons, if_neg (Nat.not_le.mpr behind)]
      exact inductionStep fun other member => later other (List.mem_cons_of_mem _ member)

theorem labelAfter_filter {offset limit : Nat} (before : offset < limit) (label : Label)
    (list : List Mark) :
    labelAfter offset label (list.filter fun mark => decide (mark.offset < limit)) =
      labelAfter offset label list := by
  induction list generalizing label with
  | nil => rfl
  | cons mark list inductionStep =>
      by_cases inside : mark.offset < limit
      · rw [List.filter_cons_of_pos (by simpa using inside)]
        exact inductionStep _
      · rw [List.filter_cons_of_neg (by simpa using inside)]
        have spent : ¬ mark.offset ≤ offset := by omega
        rw [inductionStep, labelAfter, labelAfter, List.foldl_cons, if_neg spent]

theorem labelAfter_append (offset : Nat) (label : Label) (first second : List Mark) :
    labelAfter offset label (first ++ second) =
      labelAfter offset (labelAfter offset label first) second :=
  List.foldl_append

theorem labelAfter_of_same {offset : Nat} {label common : Label} {list : List Mark}
    (same : ∀ mark ∈ list, mark.label = common) :
    labelAfter offset label list =
      if ∃ mark ∈ list, mark.offset ≤ offset then common else label := by
  induction list generalizing label with
  | nil => simp [labelAfter]
  | cons mark list inductionStep =>
      have others : ∀ other ∈ list, other.label = common :=
        fun other member => same other (List.mem_cons_of_mem _ member)
      by_cases here : mark.offset ≤ offset
      · have step : labelAfter offset label (mark :: list) =
            labelAfter offset common list := by
          rw [labelAfter, List.foldl_cons, if_pos here, same mark List.mem_cons_self]
          rfl
        rw [step, inductionStep others, ite_self, if_pos ⟨mark, List.mem_cons_self, here⟩]
      · have step : labelAfter offset label (mark :: list) = labelAfter offset label list := by
          rw [labelAfter, List.foldl_cons, if_neg here]
          rfl
        rw [step, inductionStep others]
        simp [here]

/-- The label after all marks is that of the last part that has begun. -/
theorem labelAfter_marks (offset : Nat) (first : Mime.Part) (parts : List Mime.Part) :
    labelAfter offset (.ofPart first) (marks parts) =
      .ofPart ((parts.filter fun part => decide (Begun offset part)).getLastD first) := by
  induction parts generalizing first with
  | nil => rfl
  | cons part parts inductionStep =>
      have split : marks (part :: parts) = marksOf part ++ marks parts := List.flatMap_cons
      have same : ∀ mark ∈ marksOf part, mark.label = .ofPart part :=
        fun mark member => (mem_marksOf.mp member).2.2
      rw [split, labelAfter_append, labelAfter_of_same same]
      by_cases begun : Begun offset part
      · have here : ∃ mark ∈ marksOf part, mark.offset ≤ offset := begun
        rw [if_pos here, inductionStep part, List.filter_cons_of_pos (by simpa using begun),
          List.getLastD_cons]
      · have nowhere : ¬ ∃ mark ∈ marksOf part, mark.offset ≤ offset := begun
        rw [if_neg nowhere, inductionStep first, List.filter_cons_of_neg (by simpa using begun)]

theorem labelAt_eq (first : Mime.Part) (others : List Mime.Part) (offset : Nat) :
    labelAt first others offset =
      labelAfter offset (.ofPart first) (marks (first :: others)) :=
  (labelAfter_marks offset first (first :: others)).symm

/-- Pieces of a section have one label, if it does not change inside the section. -/
theorem describeFrom_eq (positive : 0 < cap) {labels : Nat → Label} {label : Label} {offset : Nat}
    {content : Bytes}
    (same : ∀ place, offset ≤ place → place < offset + content.length → labels place = label) :
    describeFrom labels offset (pieces cap positive content) =
      (pieces cap positive content).map (Draft.describe label) := by
  fun_induction pieces cap positive content generalizing offset with
  | case1 => rfl
  | case2 content some inductionStep =>
      have length : 0 < content.length := List.length_pos_iff.mpr some
      rw [describeFrom, List.map_cons, same offset (Nat.le_refl _) (by omega), inductionStep]
      intro place low high
      rw [List.length_take] at low high
      rw [List.length_drop] at high
      exact same place (by omega) (by omega)

/-- The chunks between marks are those of the sections between their offsets. -/
theorem markedChunks_eq (positive : 0 < cap) {labels : Nat → Label} {list : List Mark}
    (sorted : list.Pairwise fun first second => first.offset ≤ second.offset) {label : Label}
    {offset : Nat} {content : Bytes} (ahead : ∀ mark ∈ list, offset ≤ mark.offset)
    (within : ∀ mark ∈ list, mark.offset ≤ offset + content.length)
    (same : ∀ place, offset ≤ place → place < offset + content.length →
      labels place = labelAfter place label list) :
    markedChunks positive label offset content list =
      (sectionsFrom offset content (list.map Mark.offset)).flatMap fun piece =>
        describeFrom labels piece.1 (pieces cap positive piece.2) := by
  induction sorted generalizing label offset content with
  | nil =>
      have one : describeFrom labels offset (pieces cap positive content) =
          (pieces cap positive content).map (Draft.describe label) :=
        describeFrom_eq positive same
      simp only [List.map_nil, sectionsFrom, List.flatMap_singleton]
      exact one.symm
  | @cons mark later behind _ inductionStep =>
      have low := ahead mark List.mem_cons_self
      have high := within mark List.mem_cons_self
      have taken : (content.take (mark.offset - offset)).length = mark.offset - offset := by
        rw [List.length_take]
        omega
      have left : mark.offset + (content.drop (mark.offset - offset)).length =
          offset + content.length := by
        rw [List.length_drop]
        omega
      have first : describeFrom labels offset
            (pieces cap positive (content.take (mark.offset - offset))) =
          (pieces cap positive (content.take (mark.offset - offset))).map
            (Draft.describe label) := by
        apply describeFrom_eq
        intro place above below
        rw [taken] at below
        rw [same place above (by omega), labelAfter_of_lt]
        intro other member
        rcases List.mem_cons.mp member with here | after
        · rw [here]
          omega
        · have order := behind other after
          omega
      have others := @inductionStep mark.label mark.offset
        (content.drop (mark.offset - offset)) behind
        (by
          rw [left]
          exact fun other member => within other (List.mem_cons_of_mem _ member))
        (by
          intro place above below
          rw [left] at below
          rw [same place (by omega) below, labelAfter, List.foldl_cons, if_pos above]
          rfl)
      rw [markedChunks, others, ← first]
      rfl

/-- The chunks of a message as a whole are the expected ones, if the boundaries are in order. -/
theorem wholeChunks_eq {first : Mime.Part} {others : List Mime.Part}
    (sorted : (marks (first :: others)).Pairwise fun one other => one.offset ≤ other.offset)
    (asked : Nat) (content : Bytes) :
    wholeChunks first others asked content = expectedChunks first others asked content := by
  have climbed : cutMarks (first :: others) = marks (first :: others) := by
    rw [cutMarks, climb_of_sorted sorted, List.filter_eq_self]
    intro mark _
    simp
  have order := sorted.filter fun mark => decide (mark.offset < content.length)
  have inside : ∀ mark ∈ (marks (first :: others)).filter fun mark =>
      decide (mark.offset < content.length), mark.offset ≤ content.length :=
    fun mark member => Nat.le_of_lt (of_decide_eq_true (List.mem_filter.mp member).2)
  have last : ∀ list, ((Place.outset (.ofPart first) (capOf_pos asked) content).through
      list).cursor.last = content.length := by
    intro list
    rw [Place.last_through]
    exact Nat.zero_add _
  have cuts : (((marks (first :: others)).map Mark.offset).filter fun offset =>
      decide (0 < offset ∧ offset < content.length)) =
        ((marks (first :: others)).filter fun mark =>
          decide (mark.offset < content.length)).map Mark.offset := by
    rw [List.filter_map]
    congr 1
    apply List.filter_congr
    intro mark member
    rcases List.mem_flatMap.mp member with ⟨part, _, marked⟩
    have positive := (mem_marksOf.mp marked).2.1
    simp only [Function.comp, decide_eq_decide]
    omega
  rw [wholeChunks, climbed, Place.ideal, expectedChunks, cuts]
  have through := (Place.outset (.ofPart first) (capOf_pos asked) content).entries_through
    (capOf_pos asked) order rfl (fun _ _ => Nat.zero_le _)
    (by
      intro mark member
      exact Nat.le_trans (inside mark member) (Nat.le_of_eq (Nat.zero_add _).symm))
  rw [Place.finish, last] at through
  refine through.trans (markedChunks_eq (capOf_pos asked) order (fun _ _ => Nat.zero_le _) ?_ ?_)
  · intro mark member
    exact Nat.le_trans (inside mark member) (Nat.le_of_eq (Nat.zero_add _).symm)
  · intro place _ below
    have within : place < content.length := Nat.lt_of_lt_of_eq below (Nat.zero_add _)
    exact (labelAt_eq first others place).trans (labelAfter_filter within _ _).symm

/-! ## Parts that become known -/

/-- A published part says of a final one where it starts and what is in it; where its body begins
may be missing, if that is not before an offset. -/
structure Discovered (last : Nat) (shown final : Mime.Part) : Prop where
  node : shown.node = final.node
  contentType : shown.contentType? = final.contentType?
  start : shown.start = final.start
  body : shown.bodyStart = final.bodyStart ∨ shown.bodyStart = 0 ∧ last ≤ final.bodyStart

/-- Published parts are the first of the final ones, at least one, and all boundaries before an
offset are known. -/
structure DiscoveredAll (final : List Mime.Part) (last : Nat) (shown : List Mime.Part) : Prop where
  nonempty : shown ≠ []
  known : ∃ front hidden, final = front ++ hidden ∧
    List.Forall₂ (Discovered last) shown front ∧
    ∀ part ∈ hidden, ∀ mark ∈ marksOf part, last ≤ mark.offset

namespace Discovered

variable {last : Nat} {shown final : Mime.Part}

theorem label (discovered : Discovered last shown final) : Label.ofPart shown = .ofPart final := by
  rw [Label.ofPart, Label.ofPart, discovered.node, discovered.contentType]

theorem partly (discovered : Discovered last shown final) : Partial shown final where
  start := discovered.start
  label := discovered.label
  body := discovered.body.imp id And.left

/-- The marks of a published part are those of the final one, perhaps without the second. -/
theorem marksOf_eq (discovered : Discovered last shown final) :
    marksOf shown = marksOf final ∨
      last ≤ final.bodyStart ∧ ∃ second, marksOf final = marksOf shown ++ second ∧
        ∀ mark ∈ second, mark.offset = final.bodyStart := by
  rcases discovered.body with same | ⟨unknown, late⟩
  · left
    rw [marksOf, marksOf, discovered.start, same, discovered.label]
  · right
    refine ⟨late, if final.bodyStart = 0 then [] else [⟨final.bodyStart, .ofPart final⟩], ?_, ?_⟩
    · simp only [marksOf, unknown, discovered.start, discovered.label]
      by_cases first : final.start = 0
      · by_cases second : final.bodyStart = 0
        · simp [first, second]
        · simp [first, second]
      · by_cases second : final.bodyStart = 0
        · simp [first, second]
        · simp [first, second]
    · intro mark member
      by_cases second : final.bodyStart = 0
      · rw [if_pos second] at member
        cases member
      · rw [if_neg second] at member
        rw [List.mem_singleton.mp member]

theorem sublist (discovered : Discovered last shown final) :
    (marksOf shown).Sublist (marksOf final) := by
  rcases discovered.marksOf_eq with same | ⟨_, second, split, _⟩
  · rw [same]
  · rw [split]
    exact List.sublist_append_left _ _

/-- The marks before the offset are known. -/
theorem filter_eq (discovered : Discovered last shown final) :
    ((marksOf shown).filter fun mark => decide (mark.offset < last)) =
      (marksOf final).filter fun mark => decide (mark.offset < last) := by
  rcases discovered.marksOf_eq with same | ⟨late, second, split, there⟩
  · rw [same]
  · have none : (second.filter fun mark => decide (mark.offset < last)) = [] := by
      rw [List.filter_eq_nil_iff]
      intro mark member
      have here := there mark member
      simp only [decide_eq_true_eq]
      omega
    rw [split, List.filter_append, none, List.append_nil]

end Discovered

section Lists

variable {last : Nat} {shown front : List Mime.Part}

theorem sublist_marks (known : List.Forall₂ (Discovered last) shown front) :
    (marks shown).Sublist (marks front) := by
  induction known with
  | nil => exact List.Sublist.refl _
  | cons first _ inductionStep =>
      rw [marks, marks, List.flatMap_cons, List.flatMap_cons]
      exact first.sublist.append inductionStep

theorem filter_marks (known : List.Forall₂ (Discovered last) shown front) :
    ((marks shown).filter fun mark => decide (mark.offset < last)) =
      (marks front).filter fun mark => decide (mark.offset < last) := by
  induction known with
  | nil => rfl
  | cons first _ inductionStep =>
      rw [marks] at inductionStep ⊢
      rw [marks] at inductionStep ⊢
      rw [List.flatMap_cons, List.flatMap_cons, List.filter_append, List.filter_append,
        first.filter_eq, inductionStep]

end Lists

/-- Parts that become known in time fit at each write, if the final boundaries are in order. -/
theorem DiscoveredAll.fits {final shown : List Mime.Part} {base last : Nat}
    (sorted : (marks final).Pairwise fun one other => one.offset ≤ other.offset)
    (discovered : DiscoveredAll final last shown) : Fits final base last shown := by
  rcases discovered.known with ⟨front, hidden, rfl, known, late⟩
  have split : marks (front ++ hidden) = marks front ++ marks hidden := List.flatMap_append
  have sublist : (marks shown).Sublist (marks (front ++ hidden)) := by
    rw [split]
    exact (sublist_marks known).trans (List.sublist_append_left _ _)
  have cutAll : cutMarks (front ++ hidden) = marks (front ++ hidden) := by
    rw [cutMarks, climb_of_sorted sorted, List.filter_eq_self]
    intro mark _
    simp
  have none : ((marks hidden).filter fun mark => decide (mark.offset < last)) = [] := by
    rw [List.filter_eq_nil_iff]
    intro mark member
    rcases List.mem_flatMap.mp member with ⟨part, here, marked⟩
    have behind := late part here mark marked
    simp only [decide_eq_true_eq]
    omega
  have before : ((marks shown).filter fun mark => decide (mark.offset < last)) =
      (marks (front ++ hidden)).filter fun mark => decide (mark.offset < last) := by
    rw [split, List.filter_append, none, List.append_nil, filter_marks known]
  refine ⟨discovered.nonempty, ⟨front, hidden, rfl, known.imp fun _ _ part => part.partly⟩, ?_, ?_⟩
  · rw [climb_of_sorted (sorted.sublist sublist), cutAll, between, List.filter_filter]
    have both := congrArg (List.filter fun mark => decide (base ≤ mark.offset)) before
    rw [List.filter_filter, List.filter_filter] at both
    have same : ∀ mark : Mark, (decide (base ≤ mark.offset) && decide (mark.offset < last)) =
        decide (base ≤ mark.offset ∧ mark.offset < last) := fun mark =>
      (Bool.decide_and _ _).symm
    simp only [same] at both
    rw [← both]
    apply List.filter_congr
    intro mark _
    rw [Bool.and_comm, same]
  · intro mark member here
    rw [cutAll]
    exact ⟨mark, sublist.subset (mem_of_mem_climb member), here⟩

theorem ordered_of_sorted {parts : List Mime.Part}
    (sorted : (marks parts).Pairwise fun one other => one.offset ≤ other.offset)
    (part : Mime.Part) (member : part ∈ parts) : Ordered part := by
  have own : (marksOf part).Sublist (marks parts) :=
    List.sublist_flatten_of_mem (List.mem_map_of_mem member)
  have pair := sorted.sublist own
  by_cases second : part.bodyStart = 0
  · exact Or.inl second
  · by_cases first : part.start = 0
    · exact Or.inr (by omega)
    · right
      unfold marksOf at pair
      simpa [first, second] using pair

/-- A message whose parts become known while it goes by is recorded with the expected chunks. -/
theorem records_segmented {Represents : σ → Ledger → Prop} {host : Host κ σ}
    (answers : host.Answers Represents) {state : σ} {ledger : Ledger}
    (represents : Represents state ledger) (store : κ) (asked : Nat) (opening : Opening)
    (queueId : String) (first : Mime.Part) (others : List Mime.Part)
    (sorted : (marks (first :: others)).Pairwise fun one other => one.offset ≤ other.offset)
    (writes : List (Metadata × Bytes))
    (discovered : AtEach (fun _ last => DiscoveredAll (first :: others) last) 0 writes) :
    ∃ record, Records host store asked opening queueId writes state record ∧
      record.closed = true ∧
      record.manifest.entries = expectedChunks first others asked (bytesOf writes) := by
  have allFit : AtEach (Fits (first :: others)) 0 writes :=
    discovered.imp fun _ _ _ shown => shown.fits sorted
  rcases records_of_allFit answers represents store asked
    opening queueId (ordered_of_sorted sorted) allFit with ⟨record, manifest, records, entries⟩
  exact ⟨_, records, rfl, entries.trans (wholeChunks_eq sorted asked (bytesOf writes))⟩

/-- The places of a second part become known only at the write that reaches them. -/
theorem records_segmented_late :
    let whole : Mime.Part := { node := "1", bodyStart := 2 }
    let inner : Mime.Part := { node := "1.1", start := 3, bodyStart := 5 }
    let publish : List Mime.Part → Metadata := fun parts =>
      Table.empty.insert Metadata.partsKey (.parts parts)
    let writes : List (Metadata × Bytes) :=
      [(publish [{ whole with bodyStart := 0 }], [1, 2]), (publish [whole], []),
        (publish [whole, { inner with bodyStart := 0 }], [3, 4]),
        (publish [whole, inner], [5, 6, 7])]
    ∃ record,
      Records (Host.of Store.Volatile.call) () 2 {} "q" writes (Store.Volatile.new 6) record ∧
      record.closed = true ∧
      record.manifest.entries = expectedChunks whole [inner] 2 [1, 2, 3, 4, 5, 6, 7] := by
  intro whole inner publish writes
  refine records_segmented Store.Volatile.answers (Store.Volatile.represents_new 6) () 2 {} "q"
    whole [inner] (by decide) writes
    ⟨⟨_, rfl, ?_⟩, ⟨_, rfl, ?_⟩, ⟨_, rfl, ?_⟩, ⟨_, rfl, ?_⟩, trivial⟩
  · exact ⟨by decide, [whole], [inner], rfl,
      .cons ⟨rfl, rfl, rfl, Or.inr ⟨rfl, by decide⟩⟩ .nil, by decide⟩
  · exact ⟨by decide, [whole], [inner], rfl, .cons ⟨rfl, rfl, rfl, Or.inl rfl⟩ .nil, by decide⟩
  · exact ⟨by decide, [whole, inner], [], rfl, .cons ⟨rfl, rfl, rfl, Or.inl rfl⟩
      (.cons ⟨rfl, rfl, rfl, Or.inr ⟨rfl, by decide⟩⟩ .nil), by decide⟩
  · exact ⟨by decide, [whole, inner], [], rfl, .cons ⟨rfl, rfl, rfl, Or.inl rfl⟩
      (.cons ⟨rfl, rfl, rfl, Or.inl rfl⟩ .nil), by decide⟩

end Transit
end MailVault
