import MailVault.Proofs.Message.Encoding

/-!
# The texts of a digest

A text is cut into pairs of characters, and each pair is read for itself.  The second
character of a pair has to be a digit.  The first one may also be a plus sign, which
counts for nothing.  So a digest has more texts than those that differ in the case of
their letters: wherever a pair begins with a zero, a sign may stand in its place.

Apart from these two liberties a text is determined by its digest.  Lower case for the
letters and zeros for the signs give the canonical text of what is read, so that two
texts are read as one digest just when they become the same text in this way.
-/

namespace MailVault

/-! ## Digits -/

namespace Hex

def IsDigit (character : Char) : Prop :=
  ('0'.toNat ≤ character.toNat ∧ character.toNat ≤ '9'.toNat) ∨
    ('a'.toNat ≤ character.toNat ∧ character.toNat ≤ 'f'.toNat) ∨
    ('A'.toNat ≤ character.toNat ∧ character.toNat ≤ 'F'.toNat)

instance : DecidablePred IsDigit := fun _ =>
  inferInstanceAs (Decidable (_ ∨ _ ∨ _))

theorem digit_injective : ∀ first < 16, ∀ second < 16, digit first = digit second →
    first = second := by
  decide

theorem value?_ascii : ∀ code < 128,
    (¬ IsDigit (Char.ofNat code) ∧ value? (Char.ofNat code) = none) ∨
      (IsDigit (Char.ofNat code) ∧ ∃ value < 16, value? (Char.ofNat code) = some value ∧
        digit value = (Char.ofNat code).toLower) := by
  decide +kernel

/-- A digit has the value whose digit it is in lower case, and no other character has a value. -/
theorem value?_cases (character : Char) :
    (¬ IsDigit character ∧ value? character = none) ∨
      (IsDigit character ∧ ∃ value < 16, value? character = some value ∧
        digit value = character.toLower) := by
  by_cases small : character.toNat < 128
  · have ascii := value?_ascii character.toNat small
    rwa [Char.ofNat_toNat] at ascii
  · refine Or.inl ⟨?_, ?_⟩
    · have nine : '9'.toNat = 57 := rfl
      have lower : 'f'.toNat = 102 := rfl
      have upper : 'F'.toNat = 70 := rfl
      unfold IsDigit
      omega
    · rw [value?, if_neg (by omega), if_neg (by omega), if_neg (by omega)]

theorem value?_eq_some_iff {character : Char} {value : Nat} (small : value < 16) :
    value? character = some value ↔ IsDigit character ∧ digit value = character.toLower := by
  rcases value?_cases character with ⟨other, none⟩ | ⟨isDigit, actual, less, read, lower⟩
  · rw [none]
    exact ⟨nofun, fun both => absurd both.1 other⟩
  · rw [read, Option.some.injEq]
    constructor
    · rintro rfl
      exact ⟨isDigit, lower⟩
    · rintro ⟨_, same⟩
      exact digit_injective actual less value small (lower.trans same.symm)

theorem lt_of_value? {character : Char} {value : Nat} (read : value? character = some value) :
    value < 16 := by
  rcases value?_cases character with ⟨_, none⟩ | ⟨_, actual, less, found, _⟩
  · rw [none] at read
    cases read
  · rw [found] at read
    cases read
    exact less

end Hex

/-! ## Pairs -/

namespace Digest

/-- How a character stands in the canonical text: a sign counts for nothing, and letters are in
lower case. -/
def canonical (character : Char) : Char :=
  if character = '+' then '0' else character.toLower

/-- A text of pairs that end with a digit and begin with a digit or a sign. -/
inductive Paired : List Char → Prop where
  | nil : Paired []
  | pair {first second : Char} {rest : List Char} (starts : first = '+' ∨ Hex.IsDigit first)
    (ends : Hex.IsDigit second) (later : Paired rest) : Paired (first :: second :: rest)

theorem canonical_of_isDigit {character : Char} (isDigit : Hex.IsDigit character) :
    canonical character = character.toLower := by
  rw [canonical, if_neg]
  rintro rfl
  revert isDigit
  decide

/-- The value of the first character of a pair. -/
def leading? (first : Char) : Option Nat :=
  if first = '+' then some 0 else Hex.value? first

theorem leading?_eq_some_iff {first : Char} {value : Nat} (small : value < 16) :
    leading? first = some value ↔
      (first = '+' ∨ Hex.IsDigit first) ∧ Hex.digit value = canonical first := by
  by_cases sign : first = '+'
  · rw [leading?, if_pos sign, canonical, if_pos sign, Option.some.injEq]
    constructor
    · rintro rfl
      exact ⟨Or.inl sign, by decide⟩
    · rintro ⟨_, same⟩
      exact Hex.digit_injective 0 (by decide) value small same.symm
  · rw [leading?, if_neg sign, Hex.value?_eq_some_iff small, canonical, if_neg sign,
      or_iff_right sign]

theorem lt_of_leading? {first : Char} {value : Nat} (read : leading? first = some value) :
    value < 16 := by
  unfold leading? at read
  split at read
  · cases read
    decide
  · exact Hex.lt_of_value? read

theorem pairValue?_eq (first second : Char) :
    pairValue? first second =
      (leading? first).bind fun high =>
        (Hex.value? second).map fun low => (16 * high + low).toUInt8 := by
  by_cases sign : first = '+'
  · rw [pairValue?, leading?, if_pos sign, if_pos sign, Option.bind_some]
    simp only [Nat.mul_zero, Nat.zero_add]
    cases Hex.value? second <;> rfl
  · rw [pairValue?, leading?, if_neg sign, if_neg sign]
    cases Hex.value? first <;> cases Hex.value? second <;> rfl

/-- The two halves of a byte. -/
theorem toUInt8_eq_iff {high low : Nat} (highLess : high < 16) (lowLess : low < 16)
    {byte : UInt8} :
    (16 * high + low).toUInt8 = byte ↔ byte.toNat / 16 = high ∧ byte.toNat % 16 = low := by
  have fits : (16 * high + low).toUInt8.toNat = 16 * high + low := by
    rw [UInt8.toNat_ofNat']
    omega
  rw [← UInt8.toNat_inj, fits]
  omega

/-- A pair is read as the byte whose two digits are the canonical ones of the pair. -/
theorem pairValue?_eq_some_iff {first second : Char} {byte : UInt8} :
    pairValue? first second = some byte ↔
      ((first = '+' ∨ Hex.IsDigit first) ∧ Hex.digit (byte.toNat / 16) = canonical first) ∧
        Hex.IsDigit second ∧ Hex.digit (byte.toNat % 16) = canonical second := by
  have bound : byte.toNat < 256 := byte.toNat_lt
  have highLess : byte.toNat / 16 < 16 := by omega
  have lowLess : byte.toNat % 16 < 16 := Nat.mod_lt _ (by decide)
  have second_iff : Hex.value? second = some (byte.toNat % 16) ↔
      Hex.IsDigit second ∧ Hex.digit (byte.toNat % 16) = canonical second := by
    rw [Hex.value?_eq_some_iff lowLess]
    exact and_congr_right fun isDigit => by rw [canonical_of_isDigit isDigit]
  rw [← leading?_eq_some_iff highLess, ← second_iff, pairValue?_eq, Option.bind_eq_some_iff]
  constructor
  · rintro ⟨high, first_read, both⟩
    rcases Option.map_eq_some_iff.mp both with ⟨low, second_read, same⟩
    have small := lt_of_leading? first_read
    rcases (toUInt8_eq_iff small (Hex.lt_of_value? second_read)).mp same with ⟨rfl, rfl⟩
    exact ⟨first_read, second_read⟩
  · rintro ⟨first_read, second_read⟩
    refine ⟨_, first_read, Option.map_eq_some_iff.mpr ⟨_, second_read, ?_⟩⟩
    exact (toUInt8_eq_iff highLess lowLess).mpr ⟨rfl, rfl⟩

/-! ## Texts -/

theorem pairs?_cons_eq_some_iff {first second : Char} {rest : List Char} {bytes : Bytes} :
    pairs? (first :: second :: rest) = some bytes ↔
      ∃ byte, pairValue? first second = some byte ∧
        ∃ later, pairs? rest = some later ∧ byte :: later = bytes := by
  rw [pairs?]
  simp only [Option.bind_eq_bind, Option.bind_eq_some_iff, Option.pure_def, Option.some.injEq]

theorem toHexDigits_cons (byte : UInt8) (later : Bytes) :
    Bytes.toHexDigits (byte :: later) =
      Hex.digit (byte.toNat / 16) :: Hex.digit (byte.toNat % 16) :: Bytes.toHexDigits later := rfl

theorem pairs?_eq_some_iff {text : List Char} {bytes : Bytes} :
    pairs? text = some bytes ↔ Paired text ∧ bytes.toHexDigits = text.map canonical := by
  fun_induction pairs? text generalizing bytes with
  | case1 =>
      constructor
      · intro read
        cases read
        exact ⟨.nil, rfl⟩
      · rintro ⟨_, digits⟩
        cases bytes with
        | nil => rfl
        | cons byte later => cases digits
  | case2 first second rest inductionStep =>
      rw [← pairs?, pairs?_cons_eq_some_iff]
      constructor
      · rintro ⟨byte, pair, later, others, rfl⟩
        rcases pairValue?_eq_some_iff.mp pair with ⟨⟨starts, high⟩, ends, low⟩
        rcases inductionStep.mp others with ⟨paired, digits⟩
        refine ⟨.pair starts ends paired, ?_⟩
        rw [toHexDigits_cons, high, low, digits, List.map_cons, List.map_cons]
      · rintro ⟨⟨⟩ | ⟨starts, ends, paired⟩, digits⟩
        cases bytes with
        | nil => cases digits
        | cons byte later =>
            rw [toHexDigits_cons, List.map_cons, List.map_cons, List.cons.injEq,
              List.cons.injEq] at digits
            rcases digits with ⟨high, low, others⟩
            exact ⟨byte, pairValue?_eq_some_iff.mpr ⟨⟨starts, high⟩, ends, low⟩, later,
              inductionStep.mpr ⟨paired, others⟩, rfl⟩
  | case3 last =>
      constructor
      · intro read
        cases read
      · rintro ⟨⟨⟩, _⟩

theorem length_toHexDigits (bytes : Bytes) : bytes.toHexDigits.length = 2 * bytes.length := by
  induction bytes with
  | nil => rfl
  | cons byte later inductionStep =>
      rw [toHexDigits_cons, List.length_cons, List.length_cons, inductionStep, List.length_cons,
        Nat.mul_add]

theorem length_toHex (digest : Digest) : digest.toHex.length = 64 := by
  rw [toHex, Bytes.toHex, String.length_ofList, length_toHexDigits, digest.length_eq]

theorem ofBytes?_eq_some_iff {bytes : Bytes} {digest : Digest} :
    ofBytes? bytes = some digest ↔ digest.bytes = bytes := by
  unfold ofBytes?
  constructor
  · intro read
    split at read
    · cases read
      rfl
    · cases read
  · rintro rfl
    rw [dif_pos digest.length_eq]

/-- A digest is read from a text of pairs when the canonical text of the digest is that of the
text. -/
theorem ofHex?_eq_some_iff {text : String} {digest : Digest} :
    ofHex? text = some digest ↔ Paired text.toList ∧ digest.toHex = text.map canonical := by
  have whole : ofHex? text = some digest ↔ pairs? text.toList = some digest.bytes := by
    rw [ofHex?, Option.bind_eq_bind, Option.bind_eq_some_iff]
    simp only [ofBytes?_eq_some_iff, exists_eq_right']
  rw [whole, pairs?_eq_some_iff, ← String.toList_inj, String.toList_map, toHex, Bytes.toHex,
    String.toList_ofList]

theorem length_of_ofHex? {text : String} {digest : Digest} (read : ofHex? text = some digest) :
    text.length = 64 := by
  have same := congrArg String.length (ofHex?_eq_some_iff.mp read).2
  rw [length_toHex, String.length_map] at same
  exact same.symm

theorem Paired.isDigit {text : List Char} (paired : Paired text) (unsigned : '+' ∉ text) :
    ∀ character ∈ text, Hex.IsDigit character := by
  induction paired with
  | nil => exact nofun
  | pair starts ends later inductionStep =>
      simp only [List.mem_cons, not_or] at unsigned
      rcases unsigned with ⟨first, _, others⟩
      simp only [List.forall_mem_cons]
      exact ⟨starts.resolve_left (Ne.symm first), ends, inductionStep others⟩

theorem paired_of_isDigit {text : List Char} (count : Nat) (length : text.length = 2 * count)
    (digits : ∀ character ∈ text, Hex.IsDigit character) : Paired text := by
  induction count generalizing text with
  | zero =>
      rw [List.eq_nil_of_length_eq_zero length]
      exact .nil
  | succ count inductionStep =>
      match text with
      | first :: second :: rest =>
          simp only [List.forall_mem_cons] at digits
          simp only [List.length_cons] at length
          exact .pair (Or.inr digits.1) digits.2.1 (inductionStep (by omega) digits.2.2)

theorem map_canonical {text : String} (digits : ∀ character ∈ text.toList, Hex.IsDigit character) :
    text.map canonical = text.map Char.toLower := by
  rw [← String.toList_inj, String.toList_map, String.toList_map]
  apply List.map_congr_left
  intro character member
  exact canonical_of_isDigit (digits character member)

end Digest

theorem Json.Read.digest_text (written : String) :
    Json.Read.digest (.text written) =
      (Digest.ofHex? written).elim (.error (.digest written)) .ok := by
  simp only [Json.Read.digest, Json.Read.text, Bind.bind, Except.bind]
  cases Digest.ofHex? written <;> rfl

theorem Json.Read.digest_eq_ok_iff {value : Json.Value} {digest : Digest} :
    Json.Read.digest value = .ok digest ↔
      ∃ text, value = .text text ∧ Digest.ofHex? text = some digest := by
  cases value with
  | text written =>
      simp only [Json.Value.text.injEq, exists_eq_left', Json.Read.digest_text]
      cases Digest.ofHex? written with
      | none => simp only [Option.elim_none, reduceCtorEq]
      | some read => simp only [Option.elim_some, Except.ok.injEq, Option.some.injEq]
  | _ =>
      constructor
      · intro read
        cases read
      · rintro ⟨_, other, _⟩
        cases other

/-- A text is read as a digest just when it consists of thirty-two pairs, each of two digits or of a
sign and a digit, and the canonical text of the digest is that text with letters in lower case and
zeros for signs.  So the texts without signs are read as they should be, and two texts name the
same digest just when they differ in case, and in signs for zeros at the beginning of pairs.  A
value is read as a digest when it is a text that is. -/
theorem digest_spelled (text : String) (digest : Digest) :
    (Digest.ofHex? text = some digest ↔
      text.length = 64 ∧ Digest.Paired text.toList ∧
        digest.toHex = text.map Digest.canonical) ∧
    ('+' ∉ text.toList →
      (Digest.ofHex? text = some digest ↔
        text.length = 64 ∧ (∀ character ∈ text.toList, Hex.IsDigit character) ∧
          digest.toHex = text.map Char.toLower)) ∧
    (∀ other, Digest.ofHex? text = some digest →
      (Digest.ofHex? other = some digest ↔
        Digest.Paired other.toList ∧
          other.map Digest.canonical = text.map Digest.canonical)) ∧
    ∀ value, Json.Read.digest value = .ok digest ↔
      ∃ written, value = .text written ∧ Digest.ofHex? written = some digest := by
  refine ⟨?_, fun unsigned => ?_, fun other read => ?_, fun value => Json.Read.digest_eq_ok_iff⟩
  · constructor
    · intro read
      exact ⟨Digest.length_of_ofHex? read, Digest.ofHex?_eq_some_iff.mp read⟩
    · rintro ⟨_, spelled⟩
      exact Digest.ofHex?_eq_some_iff.mpr spelled
  · constructor
    · intro read
      rcases Digest.ofHex?_eq_some_iff.mp read with ⟨paired, same⟩
      have digits := paired.isDigit unsigned
      exact ⟨Digest.length_of_ofHex? read, digits, same.trans (Digest.map_canonical digits)⟩
    · rintro ⟨length, digits, same⟩
      have paired := Digest.paired_of_isDigit 32 (String.length_toList.trans length) digits
      exact Digest.ofHex?_eq_some_iff.mpr
        ⟨paired, same.trans (Digest.map_canonical digits).symm⟩
  · rw [Digest.ofHex?_eq_some_iff, (Digest.ofHex?_eq_some_iff.mp read).2]
    exact and_congr_right fun _ => eq_comm

/-- Thirty-two pairs of a sign and a digit. -/
def signedPairs : String :=
  "+f+f+f+f+f+f+f+f+f+f+f+f+f+f+f+f+f+f+f+f+f+f+f+f+f+f+f+f+f+f+f+f"

/-- Signs are no digits, and yet the pairs are read, as the same digest as those with zeros in the
places of the signs. -/
theorem sign_read_as_zero :
    ∃ digest : Digest, Digest.ofHex? signedPairs = some digest ∧
      ¬ (∀ character ∈ signedPairs.toList, Hex.IsDigit character) ∧
      digest.toHex ≠ signedPairs.map Char.toLower ∧
      Digest.ofHex? "0f0f0f0f0f0f0f0f0f0f0f0f0f0f0f0f0f0f0f0f0f0f0f0f0f0f0f0f0f0f0f0f" =
        some digest := by
  refine ⟨⟨List.replicate 32 15, rfl⟩, ?_, ?_, ?_, ?_⟩
  · decide +kernel
  · intro digits
    have sign : Hex.IsDigit '+' := digits '+' (by decide +kernel)
    revert sign
    decide
  · decide +kernel
  · decide +kernel

end MailVault
