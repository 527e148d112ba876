import MailVault.Proofs.Address.Candidate
import MailVault.Proofs.Address.Words

/-!
# Which addresses are accepted

The text that is taken for an address may still hold brackets and spaces, in a quoted
local part or because the brackets of the field do not come in order.  The check of an
address would take a space before an opening bracket for the end of a display name, and
would then want a closing bracket at the end.  There is none in a text that was taken,
so that display names are never found, and what is accepted is the text as it stands.

From this follow both main results: the accepted texts are the words of the grammar,
and an accepted text is accepted again without any change.
-/

namespace MailVault
namespace Address

/-- A local part and a domain around the last at sign, without a space before an opening bracket. -/
structure AddressWord (text : List Char) : Prop where
  plain : ¬ [' ', '<'] <:+: text
  parts : ∃ localPart domain, text = localPart ++ '@' :: domain ∧ '@' ∉ domain ∧
    (LocalWord localPart ∧ bytesOf localPart ≤ 64) ∧ DomainWord domain ∧ bytesOf domain ≤ 254

/-! ## Display names -/

theorem eq_of_cutBracket {text before after : List Char}
    (cut : cutBracket text = some (before, after)) : text = before ++ ' ' :: '<' :: after := by
  induction text generalizing before with
  | nil => cases cut
  | cons first rest inductionStep =>
      rw [cutBracket] at cut
      split at cut
      · next inside behind later =>
        cases cut
        rw [inductionStep later, List.cons_append]
      · split at cut
        · next here =>
          cases cut
          rcases List.head?_eq_some_iff.mp here.2 with ⟨more, rfl⟩
          rw [here.1, List.drop_one, List.tail_cons, List.nil_append]
        · cases cut

theorem cutBracket_eq_none {text : List Char} (plain : ¬ [' ', '<'] <:+: text) :
    cutBracket text = none := by
  cases cut : cutBracket text with
  | none => rfl
  | some parts =>
      refine absurd ⟨parts.1, parts.2, ?_⟩ plain
      rw [eq_of_cutBracket cut, List.append_assoc]
      rfl

theorem cutBracket_ne_none {text : List Char} (named : [' ', '<'] <:+: text) :
    cutBracket text ≠ none := by
  induction text with
  | nil => exact absurd (List.eq_nil_of_infix_nil named) (List.cons_ne_nil _ _)
  | cons first rest inductionStep =>
      rw [cutBracket]
      split
      · exact Option.some_ne_none _
      · next none =>
        rcases List.infix_cons_iff.mp named with ⟨later, here⟩ | behind
        · rw [List.cons_append, List.cons_append, List.nil_append, List.cons.injEq] at here
          rw [if_pos ⟨here.1.symm, by rw [← here.2]; rfl⟩]
          exact Option.some_ne_none _
        · exact absurd none (inductionStep behind)

/-- A display name is never found in a text that was taken: the bracket that would end it is not
there. -/
theorem parse_of_named {value : List Char} (named : [' ', '<'] <:+: candidate value) :
    parse (candidate value) = .error .missingEndBracket := by
  rcases cut : cutBracket (candidate value) with _ | ⟨display, bracketed⟩
  · exact absurd cut (cutBracket_ne_none named)
  · have unclosed : (Text.trim bracketed).getLast? ≠ some '>' := by
      intro closed
      rcases List.getLast?_eq_some_iff.mp closed with ⟨inside, trimmed⟩
      rcases (Text.trims_trim bracketed).around with ⟨left, right, whole, _, blank⟩
      have split : candidate value =
          (display ++ [' ']) ++ '<' :: ((left ++ inside) ++ '>' :: right) := by
        rw [eq_of_cutBracket cut, whole, trimmed]
        simp only [List.append_assoc, List.cons_append, List.nil_append]
      exact absurd (blank '<' (opening_mem_of_candidate split)) (by decide)
    have refused : cutDisplay (candidate value) = .error .missingEndBracket := by
      rw [cutDisplay, cut]
      exact if_neg unclosed
    rw [parse, refused]
    rfl

/-! ## Texts without display names -/

theorem LocalWord.head?_ne {text : List Char} (isWord : LocalWord text) :
    text.head? ≠ some '<' := by
  intro bracket
  cases isWord with
  | quoted some content => cases bracket
  | atoms dotted => exact head?_ne_of_atoms dotted (by decide) bracket

theorem checks_iff {localPart domain : List Char} {mailbox : Mailbox} :
    (do checkLocal localPart
        checkDomain domain
        return ⟨localPart, domain⟩ : Except Cause Mailbox) = .ok mailbox ↔
      (checkLocal localPart = .ok () ∧ checkDomain domain = .ok ()) ∧
        (⟨localPart, domain⟩ : Mailbox) = mailbox := by
  cases checkLocal localPart with
  | error cause => exact ⟨nofun, nofun⟩
  | ok _ =>
      cases checkDomain domain with
      | error cause => exact ⟨nofun, nofun⟩
      | ok _ => exact ⟨fun same => ⟨⟨rfl, rfl⟩, Except.ok.inj same⟩, fun both => congrArg _ both.2⟩

/-- A text without a display name is the text of its mailbox. -/
theorem parse_of_plain {text : List Char} (plain : ¬ [' ', '<'] <:+: text) {mailbox : Mailbox} :
    parse text = .ok mailbox ↔ text = mailbox.text ∧ '@' ∉ mailbox.domain ∧
      (LocalWord mailbox.localPart ∧ bytesOf mailbox.localPart ≤ 64) ∧
        DomainWord mailbox.domain ∧ bytesOf mailbox.domain ≤ 254 := by
  have whole : cutDisplay text = .ok ([], text) := by rw [cutDisplay, cutBracket_eq_none plain]
  rw [parse, whole]
  dsimp only [bind, Except.bind]
  rcases cut : Text.cutLast '@' text with _ | ⟨localPart, domain⟩
  · have absent := Text.cutLast_eq_none_iff.mp cut
    refine ⟨nofun, fun both => absurd ?_ absent⟩
    rw [both.1]
    exact List.mem_append_right _ List.mem_cons_self
  · dsimp only
    constructor
    · intro ok
      split at ok
      · cases ok
      · rcases checks_iff.mp ok with ⟨⟨goodLocal, goodDomain⟩, rfl⟩
        rcases Text.eq_of_cutLast cut with ⟨split, last⟩
        exact ⟨split, last, checkLocal_iff.mp goodLocal, checkDomain_iff.mp goodDomain⟩
    · rintro ⟨split, last, goodLocal, goodDomain⟩
      rw [split, Mailbox.text, Text.cutLast_append last] at cut
      cases cut
      rw [if_neg fun both => goodLocal.1.head?_ne both.2]
      exact checks_iff.mpr ⟨⟨checkLocal_iff.mpr goodLocal, checkDomain_iff.mpr goodDomain⟩, rfl⟩

/-! ## Texts that were taken -/

/-- A text that was taken is parsed just when it is a word, and then its mailbox has that text. -/
theorem parse_candidate {value : List Char} {mailbox : Mailbox}
    (ok : parse (candidate value) = .ok mailbox) :
    candidate value = mailbox.text ∧ AddressWord (candidate value) := by
  by_cases named : [' ', '<'] <:+: candidate value
  · rw [parse_of_named named] at ok
    cases ok
  · rcases (parse_of_plain named).mp ok with ⟨split, last, good⟩
    exact ⟨split, named, _, _, split, last, good⟩

theorem exists_mailbox {text : List Char} (isWord : AddressWord text) :
    ∃ mailbox : Mailbox, parse text = .ok mailbox ∧ mailbox.text = text := by
  rcases isWord.parts with ⟨localPart, domain, split, last, good⟩
  exact ⟨⟨localPart, domain⟩, (parse_of_plain isWord.plain).mpr ⟨split, last, good⟩, split.symm⟩

theorem AddressWord.ne_nil {text : List Char} (isWord : AddressWord text) : text ≠ [] := by
  rcases isWord.parts with ⟨localPart, domain, rfl, _⟩
  exact List.append_ne_nil_of_right_ne_nil _ (List.cons_ne_nil _ _)

theorem normalize_empty_iff {value : String} :
    normalize value = .error .empty ↔ candidate value.toList = [] := by
  unfold normalize
  by_cases empty : candidate value.toList = []
  · simp only [empty, List.isEmpty_nil, if_true]
  · simp only [List.isEmpty_iff, empty, if_false, iff_false]
    cases parse (candidate value.toList) with
    | ok mailbox => exact nofun
    | error cause => exact nofun

theorem normalize_of_ne_nil {value : String} (some : candidate value.toList ≠ []) :
    normalize value =
      match parse (candidate value.toList) with
      | .ok mailbox => .ok (String.ofList mailbox.text)
      | .error cause => .error (.invalid (String.ofList (candidate value.toList)) cause) := by
  unfold normalize
  exact if_neg fun empty => some (List.isEmpty_iff.mp empty)

theorem normalize_ok_iff {value address : String} :
    normalize value = .ok address ↔
      address.toList = candidate value.toList ∧ AddressWord (candidate value.toList) := by
  constructor
  · intro ok
    have some : candidate value.toList ≠ [] := fun empty => by
      rw [normalize_empty_iff.mpr empty] at ok
      cases ok
    rw [normalize_of_ne_nil some] at ok
    cases parsed : parse (candidate value.toList) with
    | error cause =>
        rw [parsed] at ok
        cases ok
    | ok mailbox =>
        rw [parsed] at ok
        cases ok
        rcases parse_candidate parsed with ⟨split, isWord⟩
        exact ⟨String.toList_ofList.trans split.symm, isWord⟩
  · rintro ⟨same, isWord⟩
    rcases exists_mailbox isWord with ⟨mailbox, parsed, text⟩
    rw [normalize_of_ne_nil isWord.ne_nil, parsed]
    simp only [text, ← same, String.ofList_toList]

theorem normalize_invalid_iff {value : String} :
    (∃ cause, normalize value =
        .error (.invalid (String.ofList (candidate value.toList)) cause)) ↔
      candidate value.toList ≠ [] ∧ ¬ AddressWord (candidate value.toList) := by
  constructor
  · rintro ⟨cause, refused⟩
    constructor
    · intro empty
      rw [normalize_empty_iff.mpr empty] at refused
      cases refused
    · intro isWord
      rw [normalize_ok_iff.mpr ⟨String.toList_ofList, isWord⟩] at refused
      cases refused
  · rintro ⟨some, noWord⟩
    rw [normalize_of_ne_nil some]
    cases parsed : parse (candidate value.toList) with
    | error cause => exact ⟨cause, rfl⟩
    | ok mailbox => exact absurd (parse_candidate parsed).2 noWord

/-- Of a value the text that the three cuts leave is looked at, and there is one such text.  It is
reported as empty just when it is empty, it is the result just when it is a word of the grammar,
and in every other case it is reported as invalid. -/
theorem accepts_exactly_words (value : String) :
    ∃ word, (∀ other, Taken value.toList other ↔ other = word) ∧
      (normalize value = .error .empty ↔ word = []) ∧
      (∀ address, normalize value = .ok address ↔ address.toList = word ∧ AddressWord word) ∧
      ((∃ cause, normalize value = .error (.invalid (String.ofList word) cause)) ↔
        word ≠ [] ∧ ¬ AddressWord word) :=
  ⟨candidate value.toList, fun _ => taken_iff, normalize_empty_iff, fun _ => normalize_ok_iff,
    normalize_invalid_iff⟩

/-- Nothing is cut out between brackets in the wrong order, and then the end of a display name is
seen that is none. -/
example : normalize "x> <y@z.w, b" = .error (.invalid "x> <y@z.w" .missingEndBracket) := by
  decide +kernel

/-- An accepted address is a piece of the value before its first comma.  It has no white space at
its ends, consists of a local part and a domain of limited lengths, and is accepted again as it
is. -/
theorem accepted_is_canonical {value address : String} (accepted : normalize value = .ok address) :
    ',' ∉ address.toList ∧
      (∀ character, address.toList.head? = some character → Text.isBlank character = false) ∧
      (∀ character, address.toList.getLast? = some character → Text.isBlank character = false) ∧
      (∃ first, IsFirst value.toList first ∧ address.toList <:+: first) ∧
      (∃ localPart domain : String, address = localPart ++ "@" ++ domain ∧
        localPart ≠ "" ∧ localPart.utf8ByteSize ≤ 64 ∧
        domain ≠ "" ∧ domain.utf8ByteSize ≤ 254) ∧
      normalize address = .ok address := by
  rcases normalize_ok_iff.mp accepted with ⟨same, isWord⟩
  rw [same]
  have trims := Text.trims_trim (unbracket (firstOf value.toList))
  refine ⟨comma_notMem_candidate _, trims.starts, trims.ends,
    ⟨_, isFirst_iff.mpr rfl, candidate_isInfix _⟩, ?_, ?_⟩
  · rcases isWord.parts with
      ⟨localPart, domain, split, _, ⟨goodLocal, shortLocal⟩, goodDomain, shortDomain⟩
    refine ⟨String.ofList localPart, String.ofList domain, ?_, ?_, shortLocal, ?_, shortDomain⟩
    · rw [← String.toList_inj, same, split]
      simp only [String.toList_append, String.toList_ofList]
      exact (List.append_assoc localPart ['@'] domain).symm
    · intro empty
      exact goodLocal.ne_nil (String.ofList_eq_empty_iff.mp empty)
    · intro empty
      exact goodDomain.ne_nil (String.ofList_eq_empty_iff.mp empty)
  · rw [normalize_ok_iff, same, candidate_candidate]
    exact ⟨rfl, isWord⟩

/-- The quoted local part holds a closing bracket and an at sign itself. -/
theorem accepted_is_canonical_quoted :
    ∃ address, normalize "B <\"b >@\"@c.d >, e@f.g" = .ok address ∧ address = "\"b >@\"@c.d" ∧
      normalize address = .ok address := by
  have accepted : normalize "B <\"b >@\"@c.d >, e@f.g" = .ok "\"b >@\"@c.d" := by
    decide +kernel
  exact ⟨_, accepted, rfl, (accepted_is_canonical accepted).2.2.2.2.2⟩

end Address
end MailVault
