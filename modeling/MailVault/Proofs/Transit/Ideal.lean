import MailVault.Proofs.Transit.Cuts

/-!
# A message cut as a whole

If a message came in one piece, with all marks known, it would be cut at the marks of
one climb from its beginning.  Writes that come one after the other do the same, but
for one thing: at the end of a write the stream may be cut already at marks that lie
just there.  Such cuts leave no trace, because the next byte comes only after a cut at
the same offset that the whole message has too.
-/

namespace MailVault
namespace Transit

variable {cap : Nat}

namespace Draft

/-- Cut several times at one place. -/
def recut (draft : Draft cap) (labels : List Label) : Draft cap :=
  labels.foldl cut draft

@[simp] theorem recut_append (draft : Draft cap) (first second : List Label) :
    draft.recut (first ++ second) = (draft.recut first).recut second :=
  List.foldl_append

@[simp] theorem cut_recut (draft : Draft cap) (labels : List Label) (label : Label) :
    (draft.recut labels).cut label = draft.cut label := by
  induction labels generalizing draft with
  | nil => rfl
  | cons first later inductionStep => exact (inductionStep (draft.cut first)).trans (cut_cut _ _ _)

@[simp] theorem entries_flush_recut (draft : Draft cap) (labels : List Label) :
    (draft.recut labels).flush.entries = draft.flush.entries := by
  induction labels generalizing draft with
  | nil => rfl
  | cons first later inductionStep =>
      exact (inductionStep (draft.cut first)).trans (entries_flush_cut _ _)

end Draft

namespace Place

/-- The same place when more bytes are ahead. -/
def extend (place : Place cap) (more : Bytes) : Place cap :=
  { place with cursor := ⟨place.cursor.position, place.cursor.rest ++ more⟩ }

/-- Bytes behind the target do not matter. -/
theorem reach_extend (place : Place cap) (more : Bytes) {target : Nat}
    (within : target ≤ place.cursor.last) :
    (place.extend more).reach target = (place.reach target).extend more := by
  have enough : target - place.cursor.position ≤ place.cursor.rest.length := by
    rw [Cursor.last] at within
    omega
  have bytes : (place.extend more).cursor.upTo target = place.cursor.upTo target :=
    List.take_append_of_le_length enough
  have rest : (place.cursor.rest ++ more).drop (target - place.cursor.position) =
      place.cursor.rest.drop (target - place.cursor.position) ++ more :=
    List.drop_append_of_le_length enough
  simp only [reach, Cursor.advance, bytes]
  simp only [extend, rest]

theorem through_extend (place : Place cap) (more : Bytes) {list : List Mark}
    (within : ∀ mark ∈ list, mark.offset ≤ place.cursor.last) :
    (place.extend more).through list = (place.through list).extend more := by
  induction list generalizing place with
  | nil => rfl
  | cons mark later inductionStep =>
      have step : (place.extend more).pass mark = (place.pass mark).extend more := by
        rw [pass, reach_extend _ _ (within mark List.mem_cons_self)]
        rfl
      change ((place.extend more).pass mark).through later = _
      rw [step]
      apply inductionStep
      intro other member
      rw [last_pass]
      exact within other (List.mem_cons_of_mem _ member)

/-- Marks that are ahead are cut at in the same way from a place before them. -/
theorem through_reach (place : Place cap) {near far : Nat} (order : near ≤ far)
    {list : List Mark} (ahead : ∀ mark ∈ list, near ≤ mark.offset) :
    ((place.reach near).through list).reach far = (place.through list).reach far := by
  cases list with
  | nil => exact place.reach_reach order
  | cons mark later =>
      have step : (place.reach near).pass mark = place.pass mark := by
        rw [pass, place.reach_reach (ahead mark List.mem_cons_self)]
        rfl
      change (((place.reach near).pass mark).through later).reach far = _
      rw [step]
      rfl

/-- Marks just at the end of a write cut what is there at its end. -/
theorem finish_through_of_last (place : Place cap) {list : List Mark}
    (atEnd : ∀ mark ∈ list, mark.offset = place.cursor.last) :
    (place.through list).finish =
      { place.finish with draft := place.finish.draft.recut (list.map Mark.label) } := by
  induction list generalizing place with
  | nil => rfl
  | cons mark later inductionStep =>
      have here := atEnd mark List.mem_cons_self
      have step : place.pass mark =
          { place.finish with draft := place.finish.draft.cut mark.label } := by
        rw [pass, here]
        rfl
      have still : (place.pass mark).finish = place.pass mark := by
        apply finish_of_rest
        rw [step]
        exact place.rest_finish
      have others : ∀ other ∈ later, other.offset = (place.pass mark).cursor.last := by
        intro other member
        rw [last_pass]
        exact atEnd other (List.mem_cons_of_mem _ member)
      change ((place.pass mark).through later).finish = _
      rw [inductionStep (place.pass mark) others, still, step]
      rfl

/-- The cursor only depends on how far one has come. -/
theorem advance_through (place : Place cap) {list : List Mark} {far : Nat}
    (before : ∀ mark ∈ list, mark.offset ≤ far) :
    (place.through list).cursor.advance far = place.cursor.advance far := by
  induction list generalizing place with
  | nil => rfl
  | cons mark later inductionStep =>
      have step := place.cursor.advance_advance (before mark List.mem_cons_self)
      rw [← step]
      exact inductionStep (place.pass mark) fun other member =>
        before other (List.mem_cons_of_mem _ member)

/-- The place at an offset of a message that is cut as a whole. -/
def ideal (start : Place cap) (list : List Mark) (offset : Nat) : Place cap :=
  (start.through (list.filter fun mark => decide (mark.offset < offset))).reach offset

/-- The place before the first byte of a message. -/
def outset (label : Label) (positive : 0 < cap) (content : Bytes) : Place cap where
  draft := .blank label positive
  cursor := ⟨0, content⟩

theorem cursor_ideal (label : Label) (positive : 0 < cap) (list : List Mark)
    {before after : Bytes} :
    ((outset label positive (before ++ after)).ideal list before.length).cursor =
      ⟨before.length, after⟩ := by
  have earlier : ∀ mark ∈ list.filter fun mark => decide (mark.offset < before.length),
      mark.offset ≤ before.length := fun mark member =>
    Nat.le_of_lt (of_decide_eq_true (List.mem_filter.mp member).2)
  have cursor := (outset label positive (before ++ after)).advance_through earlier
  rw [ideal, reach]
  simp only [cursor]
  simp [outset, Cursor.advance, Cursor.upTo]

/-- Cuts at the place of the first mark make no difference. -/
theorem through_recut (draft : Draft cap) {cursor : Cursor} (labels : List Label) {first : Mark}
    (later : List Mark) (here : first.offset = cursor.position) :
    (⟨draft.recut labels, cursor⟩ : Place cap).through (first :: later) =
      (⟨draft, cursor⟩ : Place cap).through (first :: later) := by
  have none : cursor.upTo first.offset = [] := by
    rw [Cursor.upTo, here, Nat.sub_self, List.take_zero]
  have step : (⟨draft.recut labels, cursor⟩ : Place cap).pass first =
      (⟨draft, cursor⟩ : Place cap).pass first := by
    simp only [pass, reach, none, Draft.fed_nil, Draft.cut_recut]
  change ((⟨draft.recut labels, cursor⟩ : Place cap).pass first).through later = _
  rw [step]
  rfl

/-- The first mark from an offset on lies just there, if any mark does. -/
theorem between_eq_cons {list : List Mark}
    (sorted : list.Pairwise fun first second => first.offset ≤ second.offset) {base far : Nat}
    (ahead : base < far) (known : ∃ mark ∈ list, mark.offset = base) :
    ∃ first later, between list base far = first :: later ∧ first.offset = base := by
  rcases known with ⟨mark, member, here⟩
  have inside : mark ∈ between list base far :=
    List.mem_filter.mpr ⟨member, decide_eq_true ⟨Nat.le_of_eq here.symm, here ▸ ahead⟩⟩
  have order := sorted.filter fun mark => decide (base ≤ mark.offset ∧ mark.offset < far)
  change (between list base far).Pairwise _ at order
  cases found : between list base far with
  | nil =>
      rw [found] at inside
      cases inside
  | cons first later =>
      refine ⟨first, later, rfl, ?_⟩
      have low : first ∈ between list base far := found ▸ List.mem_cons_self
      have above := (of_decide_eq_true (List.mem_filter.mp low).2).1
      rw [found] at inside order
      rcases List.mem_cons.mp inside with same | behind
      · rw [← same]
        exact here
      · have le := List.rel_of_pairwise_cons order behind
        omega

/-- The ideal place at the end of a write, from the one at its start. -/
theorem ideal_extend (start : Place cap) {list : List Mark}
    (sorted : list.Pairwise fun first second => first.offset ≤ second.offset)
    {base : Nat} {data after : Bytes}
    (cursor : (start.ideal list base).cursor = ⟨base, data ++ after⟩) :
    ((⟨(start.ideal list base).draft, ⟨base, data⟩⟩ : Place cap).through
        (between list base (base + data.length))).finish.draft =
      (start.ideal list (base + data.length)).draft := by
  have grown : (⟨(start.ideal list base).draft, ⟨base, data⟩⟩ : Place cap).extend after =
      start.ideal list base := by
    rw [extend, ← cursor]
  have bounds : ∀ mark ∈ between list base (base + data.length),
      base ≤ mark.offset ∧ mark.offset < base + data.length :=
    fun mark member => of_decide_eq_true (List.mem_filter.mp member).2
  generalize whole : (⟨(start.ideal list base).draft, ⟨base, data⟩⟩ : Place cap) = place at grown
  have last : place.cursor.last = base + data.length := by
    rw [← whole]
    rfl
  have ending : (place.through (between list base (base + data.length))).cursor.last =
      base + data.length := by
    rw [last_through, last]
  calc (place.through (between list base (base + data.length))).finish.draft
      = (((place.through (between list base (base + data.length))).extend after).reach
          (base + data.length)).draft := by
        rw [reach_extend _ _ (Nat.le_of_eq ending.symm), finish, ending]
        rfl
    _ = (((start.ideal list base).through (between list base (base + data.length))).reach
          (base + data.length)).draft := by
        rw [← through_extend, grown]
        intro mark member
        rw [last]
        exact Nat.le_of_lt (bounds mark member).2
    _ = (start.ideal list (base + data.length)).draft := by
        rw [ideal, through_reach _ (Nat.le_add_right _ _) fun mark member =>
          (bounds mark member).1, ← through_append,
          ← filter_lt_of_sorted sorted (Nat.le_add_right _ _)]
        rfl

/-- One write after the other: from the ideal place at the start of a write, perhaps cut once
more, one comes to the ideal place at its end, perhaps cut once more. -/
theorem ideal_step (start : Place cap) {list : List Mark}
    (sorted : list.Pairwise fun first second => first.offset ≤ second.offset)
    {base : Nat} {data after : Bytes} {labels : List Label} {extras : List Mark}
    (cursor : (start.ideal list base).cursor = ⟨base, data ++ after⟩)
    (known : labels ≠ [] → ∃ mark ∈ list, mark.offset = base)
    (atEnd : ∀ mark ∈ extras, mark.offset = base + data.length)
    (likewise : extras ≠ [] → ∃ mark ∈ list, mark.offset = base + data.length) :
    ∃ others, ((⟨(start.ideal list base).draft.recut labels, ⟨base, data⟩⟩ : Place cap).through
        (between list base (base + data.length) ++ extras)).finish.draft =
          (start.ideal list (base + data.length)).draft.recut others ∧
      (others ≠ [] → ∃ mark ∈ list, mark.offset = base + data.length) := by
  have ending : ∀ mark ∈ extras, mark.offset =
      ((⟨(start.ideal list base).draft.recut labels, ⟨base, data⟩⟩ : Place cap).through
        (between list base (base + data.length))).cursor.last := by
    intro mark member
    rw [last_through]
    exact atEnd mark member
  rw [through_append, finish_through_of_last _ ending]
  by_cases empty : data = []
  · -- An empty write: the cuts made before stay the last ones.
    subst empty
    have none : between list base (base + ([] : Bytes).length) = [] := by
      rw [between, List.filter_eq_nil_iff]
      intro mark _
      simp only [List.length_nil, decide_eq_true_eq]
      omega
    refine ⟨labels ++ extras.map Mark.label, ?_, ?_⟩
    · have stays : ((⟨(start.ideal list base).draft.recut labels, ⟨base, []⟩⟩ :
          Place cap).through []).finish =
            ⟨(start.ideal list base).draft.recut labels, ⟨base, []⟩⟩ :=
        finish_of_rest rfl
      rw [none, stays, Draft.recut_append]
      rfl
    · intro some
      by_cases before : labels = []
      · apply likewise
        intro absent
        exact some (by rw [before, absent]; rfl)
      · exact known before
  · -- Bytes come after the cuts made before, and so does a mark at the same offset.
    have ahead : base < base + data.length :=
      Nat.lt_add_of_pos_right (List.length_pos_iff.mpr empty)
    have same : (⟨(start.ideal list base).draft.recut labels, ⟨base, data⟩⟩ : Place cap).through
          (between list base (base + data.length)) =
        (⟨(start.ideal list base).draft, ⟨base, data⟩⟩ : Place cap).through
          (between list base (base + data.length)) := by
      by_cases before : labels = []
      · rw [before]
        rfl
      · rcases between_eq_cons sorted ahead (known before) with ⟨first, later, split, here⟩
        rw [split]
        exact through_recut _ labels later here
    refine ⟨extras.map Mark.label, ?_, ?_⟩
    · rw [same]
      exact congrArg (fun draft => draft.recut (extras.map Mark.label))
        (start.ideal_extend sorted cursor)
    · intro some
      apply likewise
      intro absent
      exact some (by rw [absent]; rfl)

end Place
end Transit
end MailVault
