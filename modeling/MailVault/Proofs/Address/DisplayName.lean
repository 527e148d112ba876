import MailVault.Proofs.Address.Canonical

/-!
# Addresses behind display names

A mailbox of a list may begin with a display name in quotes, and then has its address in
brackets.  The name is not read as such: the value is cut at its first comma wherever
that stands, and the last brackets of what is left are looked for.

If the name has no comma, the cut comes behind the brackets or not at all, and what
stands in them is taken.  Nothing else about the name matters then.  If it has one, the
brackets are cut away with the rest of the value.  What is left begins with a quote that
is not closed, which no address does, so that the field is refused and its address lost.
-/

namespace MailVault
namespace Address

/-- A list of mailboxes whose first one is an address in brackets behind a quoted name. -/
def displayed (name address rest : String) : String :=
  "\"" ++ name ++ "\" <" ++ address ++ ">" ++ rest

theorem toList_displayed (name address rest : String) :
    (displayed name address rest).toList =
      '"' :: (name.toList ++ '"' :: ' ' :: '<' :: (address.toList ++ '>' :: rest.toList)) := by
  simp only [displayed, String.toList_append, List.append_assoc]
  rfl

theorem comma_notMem_of_accepted {address : String} (accepted : normalize address = .ok address) :
    ',' ∉ address.toList := by
  rw [(normalize_ok_iff.mp accepted).1]
  exact comma_notMem_candidate _

theorem trim_of_accepted {address : String} (accepted : normalize address = .ok address) :
    Text.trim address.toList = address.toList := by
  have same := (normalize_ok_iff.mp accepted).1
  calc
    Text.trim address.toList = Text.trim (candidate address.toList) := by rw [← same]
    _ = candidate address.toList := by rw [candidate_eq, Text.trim_trim]
    _ = address.toList := same.symm

section NoComma

variable {name address rest : String}

/-- Without a comma in the name, the first mailbox is the one with the name. -/
theorem firstOf_displayed (unlisted : ',' ∉ name.toList) (plain : ',' ∉ address.toList)
    (listed : rest = "" ∨ ∃ others, rest = "," ++ others) :
    firstOf (displayed name address rest).toList = (displayed name address "").toList := by
  symm
  apply isFirst_iff.mp
  rw [toList_displayed, toList_displayed]
  constructor
  · rcases listed with rfl | ⟨others, rfl⟩
    · exact Or.inl rfl
    · refine Or.inr ⟨others.toList, ?_⟩
      rw [String.toList_append]
      simp only [List.cons_append, List.append_assoc]
      rfl
  · simp [unlisted, plain]

theorem bracketed_displayed (bare : '<' ∉ address.toList) :
    Bracketed (displayed name address "").toList address.toList := by
  refine ⟨'"' :: (name.toList ++ ['"', ' ']), [], ?_, bare, nofun, nofun⟩
  rw [toList_displayed]
  simp only [List.cons_append, List.append_assoc, List.nil_append]
  rfl

theorem candidate_displayed (unlisted : ',' ∉ name.toList) (bare : '<' ∉ address.toList)
    (accepted : normalize address = .ok address)
    (listed : rest = "" ∨ ∃ others, rest = "," ++ others) :
    candidate (displayed name address rest).toList = address.toList := by
  rw [candidate_eq, firstOf_displayed unlisted (comma_notMem_of_accepted accepted) listed,
    (bracketed_displayed bare).unbracket_eq, trim_of_accepted accepted]

end NoComma

/-! ## Names with a comma -/

/-- Of a value that begins with such a name, what stands before the comma is left. -/
theorem firstOf_quoted {name : List Char} (comma : ',' ∈ name) (rest : List Char) :
    firstOf ('"' :: (name ++ rest)) = '"' :: firstOf name := by
  have isFirst : IsFirst name (firstOf name) := isFirst_iff.mpr rfl
  symm
  apply isFirst_iff.mp
  rcases isFirst with ⟨whole | ⟨others, whole⟩, clean⟩
  · rw [whole] at comma
    exact absurd comma clean
  · refine ⟨Or.inr ⟨others ++ rest, ?_⟩, ?_⟩
    · calc
        '"' :: (name ++ rest) = '"' :: ((firstOf name ++ ',' :: others) ++ rest) := by rw [← whole]
        _ = '"' :: firstOf name ++ ',' :: (others ++ rest) := by
          rw [List.append_assoc, List.cons_append, List.cons_append]
    · rw [List.mem_cons, not_or]
      exact ⟨by decide, clean⟩

theorem exists_trim_cons {first : Char} (visible : Text.isBlank first = false) (rest : List Char) :
    ∃ kept, Text.trim (first :: rest) = first :: kept ∧ kept <+: rest := by
  have front : (first :: rest).dropWhile Text.isBlank = first :: rest :=
    List.dropWhile_cons_of_neg (by rw [visible]; exact Bool.false_ne_true)
  rw [Text.trim_eq_rdropWhile, front]
  have part := List.rdropWhile_prefix Text.isBlank (first :: rest)
  rcases kept : (first :: rest).rdropWhile Text.isBlank with _ | ⟨head, tail⟩
  · have blank := List.rdropWhile_eq_nil_iff.mp kept first List.mem_cons_self
    rw [visible] at blank
    cases blank
  · rw [kept, List.cons_prefix_cons] at part
    exact ⟨tail, by rw [part.1], part.2⟩

theorem not_addressWord_of_quote {text : List Char} (absent : '"' ∉ text) :
    ¬ AddressWord ('"' :: text) := by
  intro isWord
  rcases isWord.parts with ⟨localPart, domain, split, _, ⟨goodLocal, _⟩, _⟩
  cases localPart with
  | nil => exact goodLocal.ne_nil rfl
  | cons first inside =>
      rw [List.cons_append, List.cons.injEq] at split
      rcases split with ⟨rfl, rfl⟩
      cases goodLocal with
      | atoms dotted => exact head?_ne_of_atoms dotted (by decide) rfl
      | quoted some content =>
          apply absent
          simp only [List.append_assoc, List.mem_append, List.mem_cons, true_or, or_true]

section Comma

variable {name : String} (comma : ',' ∈ name.toList) (unopened : '<' ∉ name.toList)

include comma unopened

/-- What is taken for the address is the beginning of the name, with its opening quote. -/
theorem candidate_of_comma (address rest : String) :
    candidate (displayed name address rest).toList =
      Text.trim ('"' :: firstOf name.toList) := by
  have closed : '<' ∉ '"' :: firstOf name.toList := by
    rw [List.mem_cons, not_or]
    refine ⟨by decide, fun member => unopened ?_⟩
    exact (List.takeWhile_prefix _).subset member
  rw [candidate_eq, toList_displayed, firstOf_quoted comma,
    unbracket_of_none (not_bracketed_of_notMem closed)]

theorem refused_of_comma (unquoted : '"' ∉ name.toList) (address rest : String) :
    ∃ cause, normalize (displayed name address rest) =
      .error (.invalid (String.ofList (Text.trim ('"' :: firstOf name.toList))) cause) := by
  rcases exists_trim_cons (show Text.isBlank '"' = false by decide) (firstOf name.toList) with
    ⟨kept, trimmed, part⟩
  rw [← candidate_of_comma comma unopened address rest, normalize_invalid_iff,
    candidate_of_comma comma unopened, trimmed]
  refine ⟨List.cons_ne_nil _ _, not_addressWord_of_quote fun member => unquoted ?_⟩
  exact (List.takeWhile_prefix _).subset (part.subset member)

end Comma

/-- The first mailbox of a list has an address in brackets, which is accepted as it is, behind a
quoted name without quotes and opening brackets in it.  The address is found just when the name
has no comma.  When it has one, the value is refused, and the beginning of the name with its quote
is reported as the wrong address. -/
theorem normalize_displayed {name address rest : String} (unquoted : '"' ∉ name.toList)
    (unopened : '<' ∉ name.toList) (bare : '<' ∉ address.toList)
    (accepted : normalize address = .ok address)
    (listed : rest = "" ∨ ∃ others, rest = "," ++ others) :
    (normalize (displayed name address rest) = .ok address ↔ ',' ∉ name.toList) ∧
      (',' ∈ name.toList → ∃ cause, normalize (displayed name address rest) =
        .error (.invalid (String.ofList (Text.trim ('"' :: firstOf name.toList))) cause)) := by
  refine ⟨⟨fun found comma => ?_, fun unlisted => ?_⟩, fun comma => ?_⟩
  · rcases refused_of_comma comma unopened unquoted address rest with ⟨cause, refused⟩
    rw [refused] at found
    cases found
  · have isWord := (normalize_ok_iff.mp accepted).2
    rw [← (normalize_ok_iff.mp accepted).1] at isWord
    rw [normalize_ok_iff, candidate_displayed unlisted bare accepted listed]
    exact ⟨rfl, isWord⟩
  · exact refused_of_comma comma unopened unquoted address rest

/-- The name has spaces and marks of its own, the local part of the address is quoted, and a second
mailbox follows. -/
theorem normalize_displayed_marked :
    normalize "\"j d\"@example.com" = .ok "\"j d\"@example.com" ∧
      normalize (displayed "Jane (home): a@b; c" "\"j d\"@example.com" ", k@example.org") =
        .ok "\"j d\"@example.com" := by
  have accepted : normalize "\"j d\"@example.com" = .ok "\"j d\"@example.com" := by
    decide +kernel
  have found := @normalize_displayed "Jane (home): a@b; c" _ ", k@example.org"
    (by decide +kernel) (by decide +kernel) (by decide +kernel) accepted
    (Or.inr ⟨" k@example.org", rfl⟩)
  exact ⟨accepted, found.1.mpr (by decide +kernel)⟩

/-- A family name that is separated by a comma hides the address. -/
theorem comma_in_name_hides_address :
    (∀ character ∈ "Doe, Jane".toList,
        ' '.toNat ≤ character.toNat ∧ character.toNat ≤ '~'.toNat ∧
        character ≠ '"' ∧ character ≠ '\\' ∧ character ≠ '<' ∧ character ≠ '>') ∧
      normalize "jane@example.com" = .ok "jane@example.com" ∧
      normalize (displayed "Doe, Jane" "jane@example.com" "") =
        .error (.invalid "\"Doe" .missingSeparator) := by
  refine ⟨?_, ?_, ?_⟩
  · simp
  · decide +kernel
  · decide +kernel

end Address
end MailVault
