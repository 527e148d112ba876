import Mathlib.Data.List.DropRight
import MailVault.Address.Normalize

/-!
# The text that is taken for an address

Three cuts lead from the value of a header field to the text that is checked: at the
first comma, at the last brackets if they come in order, and at the white space on
both ends.  Each cut is said here by what stands on its two sides, without a search.

Of the second cut one fact is needed later.  In what it leaves, every closing bracket
that comes after an opening one is followed by another opening one, so that there is
nothing to cut out once more.  The third cut takes only white space away and keeps
this.  Therefore the three cuts leave their own result as it is, and the text that is
checked does not end with a closing bracket when there is an opening one in it.
-/

namespace MailVault

/-! ## White space on both ends -/

namespace Text

/-- The word is the text without the white space around it. -/
structure Trims (text word : List Char) : Prop where
  around : ∃ left right, text = left ++ word ++ right ∧
    (∀ character ∈ left, isBlank character = true) ∧
    ∀ character ∈ right, isBlank character = true
  starts : ∀ character, word.head? = some character → isBlank character = false
  ends : ∀ character, word.getLast? = some character → isBlank character = false

theorem trim_eq_rdropWhile (text : List Char) :
    trim text = (text.dropWhile isBlank).rdropWhile isBlank := rfl

theorem dropWhile_eq_self {text : List Char}
    (starts : ∀ character, text.head? = some character → isBlank character = false) :
    text.dropWhile isBlank = text := by
  cases text with
  | nil => rfl
  | cons first rest =>
      exact List.dropWhile_cons_of_neg (by rw [starts first rfl]; exact Bool.false_ne_true)

theorem rdropWhile_eq_self {text : List Char}
    (ends : ∀ character, text.getLast? = some character → isBlank character = false) :
    text.rdropWhile isBlank = text := by
  rw [List.rdropWhile, dropWhile_eq_self fun character last => ends character ?_,
    List.reverse_reverse]
  rw [← last, List.head?_reverse]

theorem rdropWhile_append {text right : List Char}
    (blank : ∀ character ∈ right, isBlank character = true) :
    (text ++ right).rdropWhile isBlank = text.rdropWhile isBlank := by
  rw [List.rdropWhile, List.reverse_append, List.dropWhile_append_of_pos, ← List.rdropWhile]
  intro character member
  exact blank character (List.mem_reverse.mp member)

theorem trims_trim (text : List Char) : Trims text (trim text) where
  around := by
    refine ⟨text.takeWhile isBlank, (text.dropWhile isBlank).rtakeWhile isBlank, ?_,
      fun _ => List.mem_takeWhile_imp, fun _ => List.mem_rtakeWhile_imp⟩
    rw [List.append_assoc, trim_eq_rdropWhile, List.rdropWhile_append_rtakeWhile,
      List.takeWhile_append_dropWhile]
  starts := by
    intro character first
    rcases List.head?_eq_some_iff.mp first with ⟨rest, word⟩
    have front : trim text <+: text.dropWhile isBlank := by
      rw [trim_eq_rdropWhile]
      exact List.rdropWhile_prefix isBlank _
    rcases front with ⟨after, whole⟩
    have head : (text.dropWhile isBlank).head? = some character := by
      rw [← whole, word]
      rfl
    have notBlank := List.head?_dropWhile_not isBlank text
    rw [head] at notBlank
    exact notBlank
  ends := by
    intro character last
    rcases List.getLast?_eq_some_iff.mp last with ⟨rest, word⟩
    have some : (text.dropWhile isBlank).rdropWhile isBlank ≠ [] := by
      rw [← trim_eq_rdropWhile, word]
      exact List.concat_ne_nil _ _
    have notBlank := List.rdropWhile_last_not isBlank _ some
    simp only [← trim_eq_rdropWhile, word, List.getLast_concat] at notBlank
    exact Bool.eq_false_iff.mpr notBlank

/-- There is one way only to take the white space away. -/
theorem Trims.eq {text word : List Char} (trims : Trims text word) : word = trim text := by
  rcases trims.around with ⟨left, right, rfl, before, after⟩
  rw [trim_eq_rdropWhile, List.append_assoc, List.dropWhile_append_of_pos before]
  by_cases empty : word = []
  · have nothing : right.dropWhile isBlank = [] := List.dropWhile_eq_nil_iff.mpr after
    rw [empty, List.nil_append, nothing, List.rdropWhile_nil]
  · have kept : (word ++ right).dropWhile isBlank = word ++ right := by
      refine dropWhile_eq_self fun character first => trims.starts character ?_
      rw [← first, List.head?_append_of_ne_nil _ empty]
    rw [kept, rdropWhile_append after, rdropWhile_eq_self trims.ends]

theorem trim_trim (text : List Char) : trim (trim text) = trim text := by
  have trims := trims_trim text
  exact (Trims.eq ⟨⟨[], [], (List.append_nil _).symm, nofun, nofun⟩, trims.starts,
    trims.ends⟩).symm

theorem trim_isInfix (text : List Char) : trim text <:+: text := by
  rcases (trims_trim text).around with ⟨left, right, whole, _⟩
  exact ⟨left, right, whole.symm⟩

theorem exists_last {mark : Char} {text : List Char} (member : mark ∈ text) :
    ∃ before after, text = before ++ mark :: after ∧ mark ∉ after := by
  cases cut : cutLast mark text with
  | none => exact absurd member (cutLast_eq_none_iff.mp cut)
  | some parts => exact ⟨parts.1, parts.2, eq_of_cutLast cut⟩

/-- The last occurrence of a mark is where the text is cut. -/
theorem cutLast_append {mark : Char} {after : List Char} (absent : mark ∉ after)
    (before : List Char) : cutLast mark (before ++ mark :: after) = some (before, after) := by
  induction before with
  | nil => rw [List.nil_append, cutLast, cutLast_eq_none_iff.mpr absent, if_pos rfl]
  | cons first rest inductionStep => rw [List.cons_append, cutLast, inductionStep]

end Text

namespace Address

/-! ## The three cuts -/

/-- The text before the first comma, or the whole value if it has none. -/
def IsFirst (value first : List Char) : Prop :=
  (value = first ∨ ∃ rest, value = first ++ ',' :: rest) ∧ ',' ∉ first

/-- What stands between the last opening bracket and the last closing one, when they come in this
order. -/
def Bracketed (text inside : List Char) : Prop :=
  ∃ before after, text = before ++ '<' :: (inside ++ '>' :: after) ∧
    '<' ∉ inside ∧ '<' ∉ after ∧ '>' ∉ after

/-- What the brackets leave of a text. -/
inductive Unwraps (text : List Char) : List Char → Prop where
  | inside {word : List Char} (bracketed : Bracketed text word) : Unwraps text word
  | whole (none : ∀ word, ¬ Bracketed text word) : Unwraps text text

/-- The word is what the three cuts leave of the value. -/
def Taken (value word : List Char) : Prop :=
  ∃ first inside, IsFirst value first ∧ Unwraps first inside ∧ Text.Trims inside word

def firstOf (value : List Char) : List Char :=
  value.takeWhile fun character => decide (character ≠ ',')

theorem comma_notMem_firstOf (value : List Char) : ',' ∉ firstOf value := by
  intro member
  have other := List.mem_takeWhile_imp member
  exact of_decide_eq_true other rfl

theorem firstOf_of_notMem {value : List Char} (absent : ',' ∉ value) : firstOf value = value := by
  refine List.takeWhile_eq_self_iff.mpr fun character member => decide_eq_true ?_
  rintro rfl
  exact absent member

theorem isFirst_iff {value first : List Char} : IsFirst value first ↔ first = firstOf value := by
  constructor
  · rintro ⟨rfl | ⟨rest, rfl⟩, absent⟩
    · exact (firstOf_of_notMem absent).symm
    · have kept := firstOf_of_notMem absent
      rw [firstOf, List.takeWhile_append_of_pos]
      · exact (List.append_nil first).symm
      · exact List.takeWhile_eq_self_iff.mp kept
  · rintro rfl
    refine ⟨?_, comma_notMem_firstOf value⟩
    have parts : firstOf value ++ value.dropWhile _ = value := List.takeWhile_append_dropWhile
    have boundary := List.head?_dropWhile_not (fun character => decide (character ≠ ',')) value
    rcases later : value.dropWhile fun character => decide (character ≠ ',') with _ | ⟨mark, rest⟩
    · rw [later, List.append_nil] at parts
      exact Or.inl parts.symm
    · rw [later] at boundary parts
      have comma : mark = ',' := Decidable.not_not.mp (of_decide_eq_false boundary)
      rw [comma] at parts
      exact Or.inr ⟨rest, parts.symm⟩

/-! ## Brackets that cannot be cut out -/

section Brackets

variable {text inside : List Char}

theorem Bracketed.opening_notMem (bracketed : Bracketed text inside) : '<' ∉ inside := by
  rcases bracketed with ⟨_, _, _, clean, _⟩
  exact clean

theorem not_bracketed_of_notMem (absent : '<' ∉ text) (word : List Char) :
    ¬ Bracketed text word := by
  rintro ⟨before, after, rfl, _⟩
  exact absent (List.mem_append_right before List.mem_cons_self)

/-- When no opening bracket comes behind a closing one that follows an opening one, there is
something between the last two. -/
theorem exists_bracketed {after : List Char} (absent : '<' ∉ after) (before middle : List Char) :
    ∃ word, Bracketed (before ++ '<' :: (middle ++ '>' :: after)) word := by
  have opening : '<' ∈ before ++ '<' :: middle := List.mem_append_right before List.mem_cons_self
  rcases Text.exists_last opening with ⟨front, later, split, clean⟩
  have closing : '>' ∈ later ++ '>' :: after := List.mem_append_right later List.mem_cons_self
  rcases Text.exists_last closing with ⟨word, rest, split', last⟩
  have clear : '<' ∉ word ++ '>' :: rest := by
    rw [← split', List.mem_append, List.mem_cons]
    rintro (member | equal | member)
    · exact clean member
    · cases equal
    · exact absent member
  refine ⟨word, front, rest, ?_, fun member => clear (List.mem_append_left _ member),
    fun member => clear (List.mem_append_right _ (List.mem_cons_of_mem _ member)), last⟩
  have whole := congrArg (· ++ '>' :: after) split
  simp only [List.append_assoc, List.cons_append, split'] at whole
  exact whole

theorem Bracketed.unbracket_eq (bracketed : Bracketed text inside) : unbracket text = inside := by
  rcases bracketed with ⟨before, after, rfl, clean, unopened, unclosed⟩
  have absent : '<' ∉ inside ++ '>' :: after := by
    rw [List.mem_append, List.mem_cons]
    rintro (member | equal | member)
    · exact clean member
    · cases equal
    · exact unopened member
  rw [unbracket, Text.cutLast_append absent]
  simp only [Text.cutLast_append unclosed]

theorem unbracket_of_none (none : ∀ word, ¬ Bracketed text word) : unbracket text = text := by
  unfold unbracket
  rcases opened : Text.cutLast '<' text with _ | ⟨before, later⟩
  · rfl
  · rcases Text.eq_of_cutLast opened with ⟨whole, clean⟩
    simp only
    rcases closed : Text.cutLast '>' later with _ | ⟨word, after⟩
    · rfl
    · rcases Text.eq_of_cutLast closed with ⟨rfl, last⟩
      refine absurd ⟨before, after, whole, fun member => ?_, fun member => ?_, last⟩ (none word)
      · exact clean (List.mem_append_left _ member)
      · exact clean (List.mem_append_right _ (List.mem_cons_of_mem _ member))

theorem unwraps_iff : Unwraps text inside ↔ inside = unbracket text := by
  constructor
  · rintro (bracketed | none)
    · exact bracketed.unbracket_eq.symm
    · exact (unbracket_of_none none).symm
  · rintro rfl
    by_cases some : ∃ word, Bracketed text word
    · rcases some with ⟨word, bracketed⟩
      rw [bracketed.unbracket_eq]
      exact .inside bracketed
    · have none : ∀ word, ¬ Bracketed text word := not_exists.mp some
      rw [unbracket_of_none none]
      exact .whole none

/-- What is left at the brackets has none to be cut out. -/
theorem not_bracketed_unbracket (text word : List Char) : ¬ Bracketed (unbracket text) word := by
  by_cases some : ∃ word, Bracketed text word
  · rcases some with ⟨inside, bracketed⟩
    rw [bracketed.unbracket_eq]
    exact not_bracketed_of_notMem bracketed.opening_notMem word
  · have none : ∀ word, ¬ Bracketed text word := not_exists.mp some
    rw [unbracket_of_none none]
    exact none word

end Brackets

/-! ## What is left after the three cuts -/

theorem candidate_eq (value : List Char) :
    candidate value = Text.trim (unbracket (firstOf value)) := rfl

theorem taken_iff {value word : List Char} : Taken value word ↔ word = candidate value := by
  constructor
  · rintro ⟨first, inside, isFirst, unwraps, trims⟩
    rw [candidate_eq, ← isFirst_iff.mp isFirst, ← unwraps_iff.mp unwraps]
    exact trims.eq
  · rintro rfl
    exact ⟨_, _, isFirst_iff.mpr rfl, unwraps_iff.mpr rfl, Text.trims_trim _⟩

theorem Unwraps.isInfix {text word : List Char} (unwraps : Unwraps text word) : word <:+: text := by
  cases unwraps with
  | inside bracketed =>
      rcases bracketed with ⟨before, after, rfl, _⟩
      refine ⟨before ++ ['<'], '>' :: after, ?_⟩
      rw [List.append_assoc, List.append_assoc]
      rfl
  | whole none => exact List.infix_refl _

theorem candidate_isInfix (value : List Char) : candidate value <:+: firstOf value :=
  (Text.trim_isInfix _).trans (unwraps_iff.mpr rfl).isInfix

theorem comma_notMem_candidate (value : List Char) : ',' ∉ candidate value :=
  fun member => comma_notMem_firstOf value ((candidate_isInfix value).subset member)

/-- A closing bracket behind an opening one is followed by an opening one, since only white space
was taken away from a text without brackets to be cut out. -/
theorem opening_mem_of_candidate {value before middle after : List Char}
    (split : candidate value = before ++ '<' :: (middle ++ '>' :: after)) : '<' ∈ after := by
  rcases (Text.trims_trim (unbracket (firstOf value))).around with ⟨left, right, whole, _, blank⟩
  rw [← candidate_eq, split] at whole
  by_contra absent
  have clear : '<' ∉ after ++ right := by
    rw [List.mem_append]
    rintro (member | member)
    · exact absent member
    · exact absurd (blank '<' member) (by decide)
  rcases exists_bracketed clear (left ++ before) middle with ⟨word, bracketed⟩
  refine not_bracketed_unbracket (firstOf value) word ?_
  rw [whole]
  simpa only [List.append_assoc, List.cons_append] using bracketed

theorem candidate_candidate (value : List Char) :
    candidate (candidate value) = candidate value := by
  have none : ∀ word, ¬ Bracketed (candidate value) word := by
    rintro word ⟨before, after, split, _, unopened, _⟩
    exact unopened (opening_mem_of_candidate split)
  rw [candidate_eq, firstOf_of_notMem (comma_notMem_candidate value), unbracket_of_none none,
    candidate_eq, Text.trim_trim]

end Address
end MailVault
