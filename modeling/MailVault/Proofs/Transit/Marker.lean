import MailVault.Proofs.Transit.Stream

/-!
# Settled parts need not be scanned again

A splitter remembers how many parts are settled, and each write begins behind them.  It
could as well begin with the first part each time.  All boundaries of a settled part have
been passed, and parts that become known later are told behind those that are there.

Still the two ways do not have the same buffer all the time.  The scan of an empty write
ends with the part where it begins, so it may come to a boundary just at the end of the
stream in one way and not in the other.  But a part with such a boundary is not settled.
So the next bytes find both ways before that boundary, and both are cut there; the cut
that one of them was given before leaves no trace.
-/

namespace MailVault
namespace Transit

variable {cap : Nat}

/-! ## Scans that begin with different parts -/

namespace Place

def cut (place : Place cap) (label : Label) : Place cap :=
  { place with draft := place.draft.cut label }

@[simp] theorem cut_cut (place : Place cap) (first second : Label) :
    (place.cut first).cut second = place.cut second :=
  congrArg (fun draft => (⟨draft, place.cursor⟩ : Place cap)) (Draft.cut_cut _ _ _)

theorem reach_position (place : Place cap) : place.reach place.cursor.position = place := by
  simp [reach, Cursor.upTo, Cursor.advance]

theorem visit_of_passed (place : Place cap) {mark : Mark}
    (passed : mark.offset < place.cursor.position) : place.visit mark = place :=
  if_pos passed

theorem visit_of_here (place : Place cap) {mark : Mark}
    (here : mark.offset = place.cursor.position) : place.visit mark = place.cut mark.label := by
  have stays : place.reach mark.offset = place := by
    rw [here, reach_position]
  rw [visit, if_neg (Nat.not_lt.mpr (Nat.le_of_eq here.symm)), stays,
    if_neg (not_not.mpr here.symm), pass, stays]
  rfl

/-- Marks that the stream has passed are visited in vain. -/
theorem visits_of_passed {list : List Mark} {place : Place cap}
    (passed : ∀ mark ∈ list, mark.offset < place.cursor.position) :
    list.foldl visit place = place := by
  induction list with
  | nil => rfl
  | cons mark later inductionStep =>
      rw [List.foldl_cons, visit_of_passed _ (passed mark List.mem_cons_self)]
      exact inductionStep fun other member => passed other (List.mem_cons_of_mem _ member)

/-- A write with bytes goes on behind the parts that the stream has passed. -/
theorem scan_append_of_passed (place : Place cap) {before waiting : List Mime.Part}
    (ahead : place.cursor.rest ≠ []) (some : waiting ≠ [])
    (passed : ∀ mark ∈ marks before, mark.offset < place.cursor.position) :
    scan (before ++ waiting) place = scan waiting place := by
  induction before with
  | nil => rfl
  | cons part later inductionStep =>
      have split : marks (part :: later) = marksOf part ++ marks later := List.flatMap_cons
      rw [split] at passed
      have stays : (marksOf part).foldl visit place = place :=
        visits_of_passed fun mark member => passed mark (List.mem_append_left _ member)
      have others : later ++ waiting ≠ [] := List.append_ne_nil_of_right_ne_nil _ some
      rw [List.cons_append, scan, stays, if_neg ahead, if_neg others]
      exact inductionStep fun mark member => passed mark (List.mem_append_right _ member)

/-- A cut here leaves no trace if a mark here is visited. -/
theorem visits_cut {list : List Mark}
    (sorted : list.Pairwise fun first second => first.offset ≤ second.offset)
    (place : Place cap) (label : Label) (here : ∃ mark ∈ list, mark.offset = place.cursor.position) :
    list.foldl visit (place.cut label) = list.foldl visit place := by
  induction sorted with
  | nil =>
      rcases here with ⟨_, member, _⟩
      cases member
  | @cons mark later behind _ inductionStep =>
      rcases here with ⟨other, member, reached⟩
      rw [List.foldl_cons, List.foldl_cons]
      by_cases passed : mark.offset < place.cursor.position
      · rw [visit_of_passed place passed, visit_of_passed (place.cut label) passed]
        apply inductionStep
        rcases List.mem_cons.mp member with same | after
        · rw [same] at reached
          omega
        · exact ⟨other, after, reached⟩
      · have first : mark.offset = place.cursor.position := by
          rcases List.mem_cons.mp member with same | after
          · rw [← same, reached]
          · have order := behind other after
            omega
        rw [visit_of_here place first, visit_of_here (place.cut label) first, cut_cut]

/-- A cut here leaves no trace if the first part that is scanned has a mark here. -/
theorem scan_cut {part : Mime.Part} (ordered : Ordered part) (later : List Mime.Part)
    (place : Place cap) (label : Label)
    (here : ∃ mark ∈ marksOf part, mark.offset = place.cursor.position) :
    scan (part :: later) (place.cut label) = scan (part :: later) place := by
  rw [scan, scan, visits_cut (sorted_marksOf ordered) place label here]

/-- When no bytes are left, there is no more than a cut here, and only if a mark is here. -/
theorem visits_of_rest (list : List Mark) (place : Place cap) (none : place.cursor.rest = []) :
    list.foldl visit place = place ∨
      (∃ mark ∈ list, mark.offset = place.cursor.position) ∧
        ∃ label, list.foldl visit place = place.cut label := by
  induction list generalizing place with
  | nil => exact Or.inl rfl
  | cons mark later inductionStep =>
      rw [List.foldl_cons]
      by_cases here : mark.offset = place.cursor.position
      · rw [visit_of_here place here]
        refine Or.inr ⟨⟨mark, List.mem_cons_self, here⟩, ?_⟩
        rcases inductionStep (place.cut mark.label) none with stays | ⟨_, label, cuts⟩
        · exact ⟨mark.label, stays⟩
        · exact ⟨label, cuts.trans (cut_cut _ _ _)⟩
      · rw [visit_of_rest none here]
        rcases inductionStep place none with stays | ⟨⟨other, member, reached⟩, cuts⟩
        · exact Or.inl stays
        · exact Or.inr ⟨⟨other, List.mem_cons_of_mem _ member, reached⟩, cuts⟩

/-- A write without bytes does not come to a second part. -/
theorem scan_of_rest (part : Mime.Part) (later : List Mime.Part) {place : Place cap}
    (none : place.cursor.rest = []) :
    scan (part :: later) place = (marksOf part).foldl visit place := by
  have spent : ((marksOf part).foldl visit place).cursor.rest = [] := by
    rcases visits_of_rest (marksOf part) place none with stays | ⟨_, label, cuts⟩
    · rw [stays, none]
    · rw [cuts]
      exact none
  rw [scan, if_pos spent]

end Place

/-! ## The marker -/

namespace Session

theorem isSettled_later {part : Mime.Part} {position last : Nat} (order : position ≤ last)
    (settled : isSettled position part = true) : isSettled last part = true := by
  rcases of_decide_eq_true settled with ⟨start, positive, body⟩
  exact decide_eq_true
    ⟨Nat.le_trans start order, positive, Nat.lt_of_lt_of_le body order⟩

/-- The marker moves ahead only, and never to the last two parts. -/
theorem passed_within {progress : Nat} {parts : List Mime.Part}
    (within : progress ≤ parts.length - 2) (position : Nat) :
    progress ≤ passed progress parts position ∧
      passed progress parts position ≤ parts.length - 2 := by
  unfold passed settle
  by_cases few : parts.length ≤ 2
  · rw [if_pos few]
    exact ⟨Nat.le_refl _, within⟩
  · rw [if_neg few]
    have bound := length_settled_le parts (min progress (parts.length - 2)) (parts.length - 2)
      position
    simp only
    omega

theorem passed_of_unsettled {progress : Nat} {parts : List Mime.Part}
    (within : progress ≤ parts.length - 2) {part : Mime.Part}
    (found : parts[progress]? = some part) {position : Nat}
    (unsettled : ¬ isSettled position part = true) : passed progress parts position = progress := by
  apply Nat.le_antisymm
  · apply Nat.le_of_not_lt
    intro further
    rcases settled_of_lt_passed further found with before | settled
    · exact Nat.lt_irrefl _ before
    · exact unsettled settled
  · exact (passed_within within position).1

end Session

/-- A marker is right if the parts before it are settled, and the last two are behind it. -/
structure Marker (shown : List Mime.Part) (progress base : Nat) : Prop where
  within : progress ≤ shown.length - 2
  settled : ∀ index < progress, ∀ part, shown[index]? = some part →
    Session.isSettled base part = true

theorem Foretells.length_le {shown final : List Mime.Part} (foretold : Foretells shown final) :
    shown.length ≤ final.length := by
  rcases foretold with ⟨front, hidden, rfl, known⟩
  rw [List.length_append, known.length_eq]
  exact Nat.le_add_right _ _

namespace Marker

variable {shown final : List Mime.Part} {progress base last : Nat}

theorem zero (shown : List Mime.Part) (base : Nat) : Marker shown 0 base :=
  ⟨Nat.zero_le _, fun _ before => absurd before (Nat.not_lt_zero _)⟩

/-- A marker stays right when more is told. -/
theorem foretold (marker : Marker shown progress base) (foretold : Foretells shown final) :
    Marker final progress base where
  within := Nat.le_trans marker.within (Nat.sub_le_sub_right foretold.length_le 2)
  settled index before part found := by
    have inside : index < shown.length := by
      have within := marker.within
      omega
    have here : shown[index]? = some shown[index] := List.getElem?_eq_getElem inside
    rcases foretold.exists_final here with ⟨other, there, partly⟩
    rw [found] at there
    cases there
    exact partly.settled (marker.settled index before _ here)

/-- A marker is right again when it has passed the parts that are settled now. -/
theorem passed (marker : Marker shown progress base) (order : base ≤ last) :
    Marker shown (Session.passed progress shown last) last where
  within := (Session.passed_within marker.within last).2
  settled index before part found := by
    rcases Session.settled_of_lt_passed before found with early | settled
    · exact Session.isSettled_later order (marker.settled index early part found)
    · exact settled

/-- The stream has passed all marks before a marker. -/
theorem lt_of_mem_marks (marker : Marker shown progress base)
    (ordered : ∀ part ∈ shown, Ordered part) {mark : Mark}
    (member : mark ∈ marks (shown.take progress)) : mark.offset < base := by
  rcases List.mem_flatMap.mp member with ⟨part, early, marked⟩
  rcases List.mem_iff_getElem?.mp early with ⟨index, found⟩
  rw [List.getElem?_take] at found
  by_cases before : index < progress
  · rw [if_pos before] at found
    exact lt_of_settled (ordered part (List.mem_of_getElem? found))
      (marker.settled index before part found) marked
  · rw [if_neg before] at found
    cases found

theorem lt_length (marker : Marker shown progress base) (nonempty : shown ≠ []) :
    progress < shown.length := by
  have within := marker.within
  have positive := List.length_pos_iff.mpr nonempty
  omega

/-- An empty write ends with the first part, and does nothing if that is settled. -/
theorem scan_nil (marker : Marker shown progress base) (some : progress ≠ 0)
    (ordered : ∀ part ∈ shown, Ordered part) (draft : Draft cap) :
    Place.scan shown ⟨draft, ⟨base, []⟩⟩ = ⟨draft, ⟨base, []⟩⟩ := by
  cases shown with
  | nil => rfl
  | cons first others =>
      rw [Place.scan_of_rest first others rfl]
      apply Place.visits_of_passed
      intro mark member
      apply marker.lt_of_mem_marks ordered
      rcases Nat.exists_eq_succ_of_ne_zero some with ⟨count, rfl⟩
      exact List.mem_append_left _ member

end Marker

/-! ## Two drafts abreast -/

/-- A draft and the same one, or the same one with a cut more, if the part at the marker has a
boundary just here. -/
inductive Abreast (shown : List Mime.Part) (progress base : Nat) (draft : Draft cap) :
    Draft cap → Prop where
  | same : Abreast shown progress base draft draft
  | cut {part : Mime.Part} (found : shown[progress]? = some part)
      (here : ∃ mark ∈ marksOf part, mark.offset = base) (label : Label) :
      Abreast shown progress base draft (draft.cut label)

namespace Abreast

variable {shown final : List Mime.Part} {progress base : Nat} {draft marked : Draft cap}

theorem foretold (abreast : Abreast shown progress base draft marked)
    (foretold : Foretells shown final) : Abreast final progress base draft marked := by
  cases abreast with
  | same => exact .same
  | cut found here label =>
      rcases foretold.exists_final found with ⟨other, there, partly⟩
      rcases here with ⟨mark, member, reached⟩
      exact .cut there ⟨mark, partly.mem_marksOf member, reached⟩ label

theorem eq_of_nil (abreast : Abreast [] progress base draft marked) : marked = draft := by
  cases abreast with
  | same => rfl
  | cut found _ _ => cases found

/-- The first part labels both drafts, or it has labelled them before. -/
theorem prepared (abreast : Abreast shown progress base draft marked)
    (foretold : Foretells shown final) {labelled : Bool}
    (unlabelled : labelled = false → shown = []) (label : Label) :
    Abreast final progress base (draft.prepared labelled label)
      (marked.prepared labelled label) := by
  cases labelled with
  | true => exact abreast.foretold foretold
  | false =>
      have none := unlabelled rfl
      subst none
      rw [abreast.eq_of_nil]
      exact .same

/-- The scan from the marker on forgets the cut more. -/
theorem scan_eq (abreast : Abreast shown progress base draft marked)
    (ordered : ∀ part ∈ shown, Ordered part) (data : Bytes) :
    Place.scan (shown.drop progress) ⟨marked, ⟨base, data⟩⟩ =
      Place.scan (shown.drop progress) ⟨draft, ⟨base, data⟩⟩ := by
  cases abreast with
  | same => rfl
  | @cut part found here label =>
      rcases List.getElem?_eq_some_iff.mp found with ⟨inside, item⟩
      rw [List.drop_eq_getElem_cons inside, item]
      exact Place.scan_cut (ordered part (List.mem_of_getElem? found)) _ ⟨draft, ⟨base, data⟩⟩
        label here

/-- An empty write that begins at the marker does nothing, or it cuts where the part at the marker
has a boundary.  Then the marker does not pass that part. -/
theorem scan_nil (nonempty : shown ≠ []) (marker : Marker shown progress base)
    (ordered : ∀ part ∈ shown, Ordered part) (draft : Draft cap) :
    Abreast shown (Session.passed progress shown base) base draft
      (Place.scan (shown.drop progress) ⟨draft, ⟨base, []⟩⟩).draft := by
  have inside := marker.lt_length nonempty
  rw [List.drop_eq_getElem_cons inside, Place.scan_of_rest _ _ rfl]
  rcases Place.visits_of_rest (marksOf shown[progress]) ⟨draft, ⟨base, []⟩⟩ rfl with
    still | ⟨here, label, cuts⟩
  · rw [still]
    exact .same
  · have found : shown[progress]? = some shown[progress] := List.getElem?_eq_getElem inside
    have unsettled : ¬ Session.isSettled base shown[progress] = true := by
      rcases here with ⟨mark, member, reached⟩
      intro settled
      have before := lt_of_settled (ordered _ (List.getElem_mem inside)) settled member
      exact Nat.ne_of_lt before reached
    rw [cuts, Session.passed_of_unsettled marker.within found unsettled]
    exact .cut found here label

/-- The marked draft is scanned from the marker on and the other one as a whole, and then they are
abreast again. -/
theorem scan (abreast : Abreast shown progress base draft marked) (nonempty : shown ≠ [])
    (marker : Marker shown progress base) (ordered : ∀ part ∈ shown, Ordered part)
    (data : Bytes) :
    Abreast shown (Session.passed progress shown (base + data.length)) (base + data.length)
      (Place.scan shown ⟨draft, ⟨base, data⟩⟩).draft
      (Place.scan (shown.drop progress) ⟨marked, ⟨base, data⟩⟩).draft := by
  rw [abreast.scan_eq ordered data]
  by_cases outset : progress = 0
  · rw [outset, List.drop_zero]
    exact .same
  by_cases spent : data = []
  · subst spent
    rw [marker.scan_nil outset ordered]
    exact scan_nil nonempty marker ordered draft
  · -- The whole scan goes on behind the settled parts.
    have waiting : shown.drop progress ≠ [] := by
      rw [List.drop_eq_getElem_cons (marker.lt_length nonempty)]
      exact List.cons_ne_nil _ _
    have passed : ∀ mark ∈ marks (shown.take progress), mark.offset < base :=
      fun _ member => marker.lt_of_mem_marks ordered member
    have skipped := Place.scan_append_of_passed ⟨draft, ⟨base, data⟩⟩ spent waiting passed
    rw [List.take_append_drop] at skipped
    rw [skipped]
    exact .same

end Abreast
end Transit
end MailVault
