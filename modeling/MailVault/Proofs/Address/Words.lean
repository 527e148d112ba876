import Mathlib.Data.List.Basic
import MailVault.Address.Grammar

/-!
# The words of addresses

A local part, a label and a domain are words over classes of characters.  The words are
given here by rules that build them up, while the checks go through a text once and cut
it at its points.  Both agree, and that a text is refused never depends on which of its
faults is found first.

Points separate words that have none themselves, so that a text is made of such words
just when all of its pieces are words.  Lengths are those of the text in UTF-8.
-/

namespace MailVault
namespace Address

open Text (split join isAlphanumeric)

def bytesOf (text : List Char) : Nat :=
  (String.ofList text).utf8ByteSize

theorem byteLength_eq (text : List Char) : byteLength text = bytesOf text := by
  induction text with
  | nil => rfl
  | cons first rest inductionStep =>
      rw [byteLength, inductionStep, bytesOf, bytesOf, ← List.singleton_append,
        String.ofList_append, String.utf8ByteSize_append, ← String.singleton_eq_ofList,
        String.utf8ByteSize_singleton]

theorem refuses_iff {condition : Prop} [Decidable condition] {cause : Cause}
    {next : Except Cause Unit} :
    (if condition then .error cause else next) = .ok () ↔ ¬ condition ∧ next = .ok () := by
  by_cases holds : condition
  · rw [if_pos holds]
    exact ⟨nofun, fun both => absurd holds both.1⟩
  · rw [if_neg holds]
    exact ⟨fun ok => ⟨holds, ok⟩, And.right⟩

theorem accepts_iff {condition : Prop} [Decidable condition] {cause : Cause} :
    (if condition then .ok () else .error cause) = (.ok () : Except Cause Unit) ↔ condition := by
  by_cases holds : condition
  · rw [if_pos holds]
    exact ⟨fun _ => holds, fun _ => rfl⟩
  · rw [if_neg holds]
    exact ⟨nofun, fun both => absurd both holds⟩

theorem sized_iff {Word : List Char → Prop} {text : List Char} {limit : Nat}
    (some : Word text → text ≠ []) :
    (¬ text = [] ∧ bytesOf text ≤ limit ∧ Word text) ↔ Word text ∧ bytesOf text ≤ limit := by
  constructor
  · rintro ⟨_, short, isWord⟩
    exact ⟨isWord, short⟩
  · rintro ⟨isWord, short⟩
    exact ⟨some isWord, short, isWord⟩

/-! ## Words between points -/

/-- Words with a point between each two of them, at least one. -/
inductive Dotted (Word : List Char → Prop) : List Char → Prop where
  | single {word : List Char} (isWord : Word word) : Dotted Word word
  | point {word rest : List Char} (isWord : Word word) (later : Dotted Word rest) :
    Dotted Word (word ++ '.' :: rest)

section Dotted

variable {Word : List Char → Prop} {text : List Char}

theorem split_of_notMem {word : List Char} (absent : '.' ∉ word) : split '.' word = [word] := by
  induction word with
  | nil => rfl
  | cons first rest inductionStep =>
      rw [List.mem_cons, not_or] at absent
      rw [split, if_neg (Ne.symm absent.1), inductionStep absent.2]

theorem split_append {word : List Char} (absent : '.' ∉ word) (rest : List Char) :
    split '.' (word ++ '.' :: rest) = word :: split '.' rest := by
  induction word with
  | nil => rw [List.nil_append, split, if_pos rfl]
  | cons first more inductionStep =>
      rw [List.mem_cons, not_or] at absent
      rw [List.cons_append, split, if_neg (Ne.symm absent.1), inductionStep absent.2]

theorem Dotted.join {pieces : List (List Char)} (some : pieces ≠ [])
    (words : ∀ piece ∈ pieces, Word piece) : Dotted Word (join '.' pieces) := by
  induction pieces with
  | nil => exact absurd rfl some
  | cons piece later inductionStep =>
      have first := words piece List.mem_cons_self
      cases later with
      | nil => exact .single first
      | cons next rest =>
          exact .point first (inductionStep (List.cons_ne_nil _ _) fun other member =>
            words other (List.mem_cons_of_mem _ member))

/-- A text is made of words without points just when its pieces are words. -/
theorem dotted_iff (pointless : ∀ word, Word word → '.' ∉ word) :
    Dotted Word text ↔ ∀ piece ∈ split '.' text, Word piece := by
  constructor
  · intro dotted
    induction dotted with
    | single isWord =>
        rw [split_of_notMem (pointless _ isWord)]
        exact List.forall_mem_singleton.mpr isWord
    | point isWord later inductionStep =>
        rw [split_append (pointless _ isWord)]
        exact List.forall_mem_cons.mpr ⟨isWord, inductionStep⟩
  · intro words
    rw [← Text.join_split '.' text]
    exact .join (Text.split_ne_nil '.' text) words

theorem Dotted.head? (dotted : Dotted Word text) (some : ∀ word, Word word → word ≠ []) :
    ∃ word, Word word ∧ text.head? = word.head? := by
  cases dotted with
  | single isWord => exact ⟨_, isWord, rfl⟩
  | point isWord later => exact ⟨_, isWord, List.head?_append_of_ne_nil _ (some _ isWord)⟩

theorem Dotted.ne_nil (dotted : Dotted Word text) (some : ∀ word, Word word → word ≠ []) :
    text ≠ [] := by
  rcases dotted.head? some with ⟨word, isWord, same⟩
  rintro rfl
  exact some word isWord (List.head?_eq_none_iff.mp same.symm)

theorem Dotted.head?_ne (dotted : Dotted Word text) (some : ∀ word, Word word → word ≠ [])
    {mark : Char} (clean : ∀ word, Word word → mark ∉ word) : text.head? ≠ .some mark := by
  intro first
  rcases dotted.head? some with ⟨word, isWord, same⟩
  exact clean word isWord (List.mem_of_head? (same.symm.trans first))

end Dotted

/-! ## Enclosed texts -/

section Enclosed

variable {first last : Char} {text inner : List Char}

theorem between?_enclosed (first last : Char) (inner : List Char) :
    between? first last (first :: (inner ++ [last])) = some inner := by
  rw [between?, if_pos ⟨rfl, by rw [← List.cons_append, List.getLast?_concat]⟩, List.drop_one,
    List.tail_cons, List.dropLast_concat]

theorem head?_of_between? (enclosed : between? first last text = some inner) :
    text.head? = some first := by
  unfold between? at enclosed
  split at enclosed
  · next ends => exact ends.1
  · cases enclosed

/-- One character alone can be both the first and the last one.  Any other text is put together
again. -/
theorem eq_of_between? (different : text ≠ [first])
    (enclosed : between? first last text = some inner) : text = first :: (inner ++ [last]) := by
  unfold between? at enclosed
  split at enclosed
  · next ends =>
    cases enclosed
    rcases List.head?_eq_some_iff.mp ends.1 with ⟨rest, rfl⟩
    have later : rest ≠ [] := fun none => different (by rw [none])
    have lasts : rest.getLast? = some last := by
      rw [← ends.2, List.getLast?_cons_of_ne_nil later]
    rcases List.getLast?_eq_some_iff.mp lasts with ⟨inside, rfl⟩
    rw [List.drop_one, List.tail_cons, List.dropLast_concat]
  · cases enclosed

end Enclosed

/-! ## Local parts -/

/-- A non-empty run of atom characters. -/
def IsAtomWord (text : List Char) : Prop :=
  text ≠ [] ∧ ∀ character ∈ text, isAtomText character = true

/-- What may stand between the quotes of a quoted string. -/
inductive QuotedContent : List Char → Prop where
  | nil : QuotedContent []
  | plain {character : Char} {rest : List Char}
    (itself : character = ' ' ∨ character = '\t' ∨ isQuotedText character = true)
    (later : QuotedContent rest) : QuotedContent (character :: rest)
  | escaped {character : Char} {rest : List Char} (visible : '!' ≤ character ∧ character ≤ '~')
    (later : QuotedContent rest) : QuotedContent ('\\' :: character :: rest)

/-- The words that are local parts. -/
inductive LocalWord : List Char → Prop where
  | atoms {text : List Char} (dotted : Dotted IsAtomWord text) : LocalWord text
  | quoted {inner : List Char} (some : inner ≠ []) (content : QuotedContent inner) :
    LocalWord ('"' :: (inner ++ ['"']))

theorem isAtom_iff {text : List Char} : isAtom text = true ↔ IsAtomWord text := by
  rw [isAtom, IsAtomWord, Bool.and_eq_true, List.all_eq_true, Bool.not_eq_true',
    List.isEmpty_eq_false_iff]

theorem IsAtomWord.notMem {text : List Char} (atom : IsAtomWord text) {character : Char}
    (other : isAtomText character = false) : character ∉ text := by
  intro member
  rw [atom.2 character member] at other
  cases other

theorem isQuotedContent_iff {text : List Char} :
    isQuotedContent text = true ↔ QuotedContent text := by
  constructor
  · intro accepted
    fun_induction isQuotedContent text with
    | case1 => exact .nil
    | case2 escaped rest inductionStep =>
        rw [Bool.and_eq_true] at accepted
        exact .escaped (of_decide_eq_true accepted.1) (inductionStep accepted.2)
    | case3 character rest notEscape inductionStep =>
        simp only [Bool.and_eq_true, Bool.or_eq_true, beq_iff_eq, or_assoc] at accepted
        exact .plain accepted.1 (inductionStep accepted.2)
  · intro content
    induction content with
    | nil => rfl
    | escaped visible later inductionStep =>
        rw [isQuotedContent, Bool.and_eq_true]
        exact ⟨decide_eq_true visible, inductionStep⟩
    | @plain character rest itself later inductionStep =>
        -- A backslash is none of the characters that stand for themselves.
        have different : character ≠ '\\' := by
          rintro rfl
          revert itself
          decide
        rw [isQuotedContent, Bool.and_eq_true]
        · refine ⟨?_, inductionStep⟩
          simpa only [Bool.or_eq_true, beq_iff_eq, or_assoc] using itself
        · intro escaped more same
          exact absurd same different

theorem head?_ne_of_atoms {text : List Char} (dotted : Dotted IsAtomWord text) {character : Char}
    (other : isAtomText character = false) : text.head? ≠ some character :=
  dotted.head?_ne (fun _ atom => atom.1) fun _ atom => atom.notMem other

theorem localWord_of_quotes {text inner : List Char}
    (enclosed : between? '"' '"' text = some inner) :
    LocalWord text ↔ inner ≠ [] ∧ QuotedContent inner := by
  constructor
  · intro isWord
    cases isWord with
    | atoms dotted =>
        exact absurd (head?_of_between? enclosed) (head?_ne_of_atoms dotted (by decide))
    | quoted some content =>
        rw [between?_enclosed] at enclosed
        cases enclosed
        exact ⟨some, content⟩
  · rintro ⟨some, content⟩
    have different : text ≠ ['"'] := by
      rintro rfl
      cases enclosed
      exact some rfl
    rw [eq_of_between? different enclosed]
    exact .quoted some content

theorem localWord_of_none {text : List Char} (none : between? '"' '"' text = none) :
    LocalWord text ↔ Dotted IsAtomWord text := by
  constructor
  · intro isWord
    cases isWord with
    | atoms dotted => exact dotted
    | quoted some content =>
        rw [between?_enclosed] at none
        cases none
  · exact .atoms

theorem LocalWord.ne_nil {text : List Char} (isWord : LocalWord text) : text ≠ [] := by
  cases isWord with
  | quoted some content => exact List.cons_ne_nil _ _
  | atoms dotted => exact dotted.ne_nil fun _ atom => atom.1

/-- The check of local parts accepts the words of at most sixty-four bytes. -/
theorem checkLocal_iff {text : List Char} :
    checkLocal text = .ok () ↔ LocalWord text ∧ bytesOf text ≤ 64 := by
  rw [checkLocal, refuses_iff, refuses_iff, List.isEmpty_iff, byteLength_eq, localLimit,
    Nat.not_lt]
  cases enclosed : between? '"' '"' text with
  | some inner =>
      dsimp only
      rw [refuses_iff, accepts_iff, List.isEmpty_iff, isQuotedContent_iff,
        ← localWord_of_quotes enclosed, sized_iff LocalWord.ne_nil]
  | none =>
      have pieces : (∀ piece ∈ split '.' text, isAtom piece = true) ↔ LocalWord text := by
        rw [localWord_of_none enclosed, dotted_iff fun word atom => atom.notMem (by decide)]
        simp only [isAtom_iff]
      dsimp only
      rw [accepts_iff, List.all_eq_true, pieces, sized_iff LocalWord.ne_nil]

/-! ## Domains -/

/-- A label: atom characters of which the first and the last one are letters or digits. -/
structure LabelWord (text : List Char) : Prop where
  starts : ∃ character, text.head? = some character ∧ isAlphanumeric character = true
  ends : ∃ character, text.getLast? = some character ∧ isAlphanumeric character = true
  short : bytesOf text ≤ 63
  atoms : ∀ character ∈ text, isAtomText character = true

/-- The words that are domains. -/
inductive DomainWord : List Char → Prop where
  | labels {text : List Char} (dotted : Dotted LabelWord text) : DomainWord text
  | literal {inner : List Char} (permitted : ∀ character ∈ inner, isLiteralText character = true) :
    DomainWord ('[' :: (inner ++ [']']))

theorem startsAlphanumeric_iff {text : List Char} :
    startsAlphanumeric text = true ↔
      ∃ character, text.head? = some character ∧ isAlphanumeric character = true := by
  rw [startsAlphanumeric, Option.any_eq_true]

theorem endsAlphanumeric_iff {text : List Char} :
    endsAlphanumeric text = true ↔
      ∃ character, text.getLast? = some character ∧ isAlphanumeric character = true := by
  rw [endsAlphanumeric, Option.any_eq_true]

theorem checkLabel_iff {text : List Char} : checkLabel text = .ok () ↔ LabelWord text := by
  rw [checkLabel, refuses_iff, refuses_iff, refuses_iff, accepts_iff, List.all_eq_true,
    byteLength_eq, labelLimit, Nat.not_lt, Bool.or_eq_true, not_or, Bool.not_eq_true',
    Bool.not_eq_true', Bool.not_eq_false, Bool.not_eq_false, startsAlphanumeric_iff,
    endsAlphanumeric_iff]
  constructor
  · rintro ⟨_, ⟨starts, ends⟩, short, atoms⟩
    exact ⟨starts, ends, short, atoms⟩
  · rintro ⟨starts, ends, short, atoms⟩
    refine ⟨fun empty => ?_, ⟨starts, ends⟩, short, atoms⟩
    rcases starts with ⟨character, first, _⟩
    rw [List.isEmpty_iff.mp empty] at first
    cases first

theorem checkLabels_iff {labels : List (List Char)} :
    checkLabels labels = .ok () ↔ ∀ label ∈ labels, LabelWord label := by
  induction labels with
  | nil => exact ⟨fun _ => nofun, fun _ => rfl⟩
  | cons label later inductionStep =>
      rw [List.forall_mem_cons, ← inductionStep, ← checkLabel_iff]
      change (checkLabel label).bind (fun _ => checkLabels later) = .ok () ↔
        checkLabel label = .ok () ∧ checkLabels later = .ok ()
      cases checkLabel label with
      | error cause => exact ⟨nofun, nofun⟩
      | ok _ => exact ⟨fun rest => ⟨rfl, rest⟩, And.right⟩

theorem LabelWord.notMem {text : List Char} (label : LabelWord text) {character : Char}
    (other : isAtomText character = false) : character ∉ text := by
  intro member
  rw [label.atoms character member] at other
  cases other

theorem LabelWord.ne_nil {text : List Char} (label : LabelWord text) : text ≠ [] := by
  rintro rfl
  rcases label.starts with ⟨_, none, _⟩
  cases none

theorem DomainWord.ne_nil {text : List Char} (isWord : DomainWord text) : text ≠ [] := by
  cases isWord with
  | literal permitted => exact List.cons_ne_nil _ _
  | labels dotted => exact dotted.ne_nil fun _ label => label.ne_nil

theorem domainWord_of_brackets {text inner : List Char}
    (enclosed : between? '[' ']' text = some inner) :
    DomainWord text ↔ ∀ character ∈ inner, isLiteralText character = true := by
  constructor
  · intro isWord
    cases isWord with
    | labels dotted =>
        have other : text.head? ≠ some '[' :=
          dotted.head?_ne (fun _ label => label.ne_nil) fun _ label => label.notMem (by decide)
        exact absurd (head?_of_between? enclosed) other
    | literal permitted =>
        rw [between?_enclosed] at enclosed
        cases enclosed
        exact permitted
  · intro permitted
    have different : text ≠ ['['] := by
      rintro rfl
      cases enclosed
    rw [eq_of_between? different enclosed]
    exact .literal permitted

theorem domainWord_of_none {text : List Char} (none : between? '[' ']' text = none) :
    DomainWord text ↔ Dotted LabelWord text := by
  constructor
  · intro isWord
    cases isWord with
    | labels dotted => exact dotted
    | literal permitted =>
        rw [between?_enclosed] at none
        cases none
  · exact .labels

/-- The check of domains accepts the words of at most two hundred and fifty-four bytes. -/
theorem checkDomain_iff {text : List Char} :
    checkDomain text = .ok () ↔ DomainWord text ∧ bytesOf text ≤ 254 := by
  rw [checkDomain, refuses_iff, refuses_iff, List.isEmpty_iff, byteLength_eq, domainLimit,
    Nat.not_lt]
  cases enclosed : between? '[' ']' text with
  | some inner =>
      dsimp only
      rw [accepts_iff, List.all_eq_true, ← domainWord_of_brackets enclosed,
        sized_iff DomainWord.ne_nil]
  | none =>
      dsimp only
      rw [checkLabels_iff, ← dotted_iff fun word label => label.notMem (by decide),
        ← domainWord_of_none enclosed, sized_iff DomainWord.ne_nil]

end Address
end MailVault
