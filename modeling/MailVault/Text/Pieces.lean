/-!
# Cutting text at a separator

`split` cuts at every occurrence of the separator, so a text with n separators
has n + 1 pieces, some of them possibly empty.  `join` puts the separator back.
-/

namespace MailVault
namespace Text

/-- The pieces between the separators. -/
def split (separator : Char) : List Char → List (List Char)
  | [] => [[]]
  | first :: rest =>
    if first = separator then [] :: split separator rest
    else
      match split separator rest with
      | [] => [[first]]
      | piece :: pieces => (first :: piece) :: pieces

/-- The pieces with a separator between each two of them. -/
def join (separator : Char) : List (List Char) → List Char
  | [] => []
  | [piece] => piece
  | piece :: rest => piece ++ separator :: join separator rest

/-- What stands before and after the last occurrence of a character. -/
def cutLast (mark : Char) : List Char → Option (List Char × List Char)
  | [] => none
  | first :: rest =>
    match cutLast mark rest with
    | some (before, after) => some (first :: before, after)
    | none => if first = mark then some ([], rest) else none

theorem split_ne_nil (separator : Char) (text : List Char) : split separator text ≠ [] := by
  cases text with
  | nil => simp [split]
  | cons first rest =>
    rw [split]
    split
    · simp
    · split <;> simp

/-- A cut gives back the text, and the mark does not occur behind it. -/
theorem eq_of_cutLast {mark : Char} {text before after : List Char}
    (cut : cutLast mark text = some (before, after)) :
    text = before ++ mark :: after ∧ mark ∉ after := by
  induction text generalizing before with
  | nil => simp [cutLast] at cut
  | cons first rest inductionStep =>
    rw [cutLast] at cut
    match later : cutLast mark rest with
    | some (inside, _) =>
      rw [later] at cut
      simp only [Option.some.injEq, Prod.mk.injEq] at cut
      obtain ⟨rfl, rfl⟩ := cut
      obtain ⟨equal, absent⟩ := inductionStep later
      exact ⟨by rw [equal, List.cons_append], absent⟩
    | none =>
      rw [later] at cut
      by_cases here : first = mark
      · simp only [here, if_true, Option.some.injEq, Prod.mk.injEq] at cut
        obtain ⟨rfl, rfl⟩ := cut
        refine ⟨by rw [here, List.nil_append], ?_⟩
        clear inductionStep here
        induction rest with
        | nil => simp
        | cons second more inductionStep =>
          rw [cutLast] at later
          split at later
          · simp at later
          · next none =>
            split at later
            · simp at later
            · next different =>
              have other : ¬ mark = second := fun equal => different equal.symm
              simp only [List.mem_cons, other, false_or]
              exact inductionStep none
      · simp [here] at cut

theorem cutLast_eq_none_iff {mark : Char} {text : List Char} :
    cutLast mark text = none ↔ mark ∉ text := by
  induction text with
  | nil => simp [cutLast]
  | cons first rest inductionStep =>
    rw [cutLast]
    match later : cutLast mark rest with
    | some (before, after) =>
      have present : ¬ mark ∉ rest := fun absent => by
        rw [inductionStep.mpr absent] at later
        simp at later
      simp only [Decidable.not_not] at present
      simp [present]
    | none =>
      have absent := inductionStep.mp later
      by_cases here : first = mark
      · simp [here]
      · have other : ¬ mark = first := fun equal => here equal.symm
        simp [here, other, absent]

/-- Nothing but the places of the separators is lost by cutting. -/
theorem join_split (separator : Char) (text : List Char) :
    join separator (split separator text) = text := by
  induction text with
  | nil => rfl
  | cons first rest inductionStep =>
    rw [split]
    by_cases here : first = separator
    · rw [if_pos here]
      have some := split_ne_nil separator rest
      match pieces : split separator rest with
      | [] => exact absurd pieces some
      | piece :: more =>
        rw [pieces] at inductionStep
        simp [join, inductionStep, here]
    · rw [if_neg here]
      match pieces : split separator rest with
      | [] => exact absurd pieces (split_ne_nil separator rest)
      | [piece] =>
        rw [pieces] at inductionStep
        simpa [join] using inductionStep
      | piece :: next :: more =>
        rw [pieces] at inductionStep
        simpa [join] using inductionStep

end Text
end MailVault
