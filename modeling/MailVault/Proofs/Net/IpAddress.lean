import Mathlib.Algebra.Group.Nat.Defs
import MailVault.Net.IpAddress

/-!
# Addresses read back from their text

An address is written in one of many texts that stand for it, and reading has to find
the same groups in it again.  The pieces of a text are never empty and hold neither
points nor colons, so cutting gives back what was joined, and two colons in a row
occur only where zero groups were left out.
-/

namespace MailVault

namespace Text

variable {separator : Char}

theorem split_of_notMem {text : List Char} (absent : separator ∉ text) :
    split separator text = [text] := by
  induction text with
  | nil => rfl
  | cons first rest inductionStep =>
      rw [List.mem_cons, not_or] at absent
      have other : ¬ first = separator := fun same => absent.1 same.symm
      rw [split, if_neg other, inductionStep absent.2]

theorem split_append {piece : List Char} (absent : separator ∉ piece) (rest : List Char) :
    split separator (piece ++ separator :: rest) = piece :: split separator rest := by
  induction piece with
  | nil => rw [List.nil_append, split, if_pos rfl]
  | cons first piece inductionStep =>
      rw [List.mem_cons, not_or] at absent
      have other : ¬ first = separator := fun same => absent.1 same.symm
      rw [List.cons_append, split, if_neg other, inductionStep absent.2]

theorem join_cons_cons (piece next : List Char) (rest : List (List Char)) :
    join separator (piece :: next :: rest) =
      piece ++ separator :: join separator (next :: rest) := by
  rw [join]
  exact List.cons_ne_nil _ _

theorem join_cons_eq {piece : List Char} (some : piece ≠ []) (rest : List (List Char)) :
    ∃ first more, first ∈ piece ∧ join separator (piece :: rest) = first :: more := by
  rcases List.exists_cons_of_ne_nil some with ⟨first, others, rfl⟩
  cases rest with
  | nil => exact ⟨first, others, List.mem_cons_self, rfl⟩
  | cons next rest =>
      rw [join_cons_cons]
      exact ⟨first, _, List.mem_cons_self, rfl⟩

theorem split_join {pieces : List (List Char)} (some : pieces ≠ [])
    (absent : ∀ piece ∈ pieces, separator ∉ piece) :
    split separator (join separator pieces) = pieces := by
  induction pieces with
  | nil => exact absurd rfl some
  | cons piece pieces inductionStep =>
      have first := absent piece List.mem_cons_self
      cases pieces with
      | nil => exact split_of_notMem first
      | cons next rest =>
          rw [join_cons_cons, split_append first]
          congr 1
          apply inductionStep (List.cons_ne_nil _ _)
          intro other member
          exact absent other (List.mem_cons_of_mem _ member)

theorem mem_join {character : Char} {pieces : List (List Char)}
    (member : character ∈ join separator pieces) :
    character = separator ∨ ∃ piece ∈ pieces, character ∈ piece := by
  induction pieces with
  | nil => cases member
  | cons piece pieces inductionStep =>
      cases pieces with
      | nil => exact Or.inr ⟨piece, List.mem_cons_self, member⟩
      | cons next rest =>
          rw [join_cons_cons, List.mem_append, List.mem_cons] at member
          rcases member with here | here | later
          · exact Or.inr ⟨piece, List.mem_cons_self, here⟩
          · exact Or.inl here
          · rcases inductionStep later with same | ⟨other, listed, inside⟩
            · exact Or.inl same
            · exact Or.inr ⟨other, List.mem_cons_of_mem _ listed, inside⟩

end Text

namespace Hex

theorem value?_digit : ∀ value < 16, value? (digit value) = some value := by
  decide

theorem digit_ne : ∀ value < 16, digit value ≠ ':' ∧ digit value ≠ '.' ∧ digit value ≠ '+' := by
  decide

def valueOf (values : List Nat) : Nat :=
  values.foldl (fun sum value => 16 * sum + value) 0

theorem mapM_number (value : Nat) :
    ∃ values, (number value).mapM value? = some values ∧ valueOf values = value := by
  induction value using number.induct with
  | case1 value small =>
      refine ⟨[value], ?_, ?_⟩
      · rw [number, if_pos small]
        simp [value?_digit value small]
      · exact Nat.zero_add value
  | case2 value large inductionStep =>
      rcases inductionStep with ⟨values, read, equal⟩
      have last := value?_digit (value % 16) (Nat.mod_lt _ (by decide))
      refine ⟨values ++ [value % 16], ?_, ?_⟩
      · rw [number, if_neg large, List.mapM_append, read]
        simp [last]
      · rw [valueOf, List.foldl_append, ← valueOf, equal]
        exact Nat.div_add_mod value 16

theorem number_ne_nil (value : Nat) : number value ≠ [] := by
  rw [number]
  split
  · exact List.cons_ne_nil _ _
  · exact List.append_ne_nil_of_right_ne_nil _ (List.cons_ne_nil _ _)

theorem length_number_le (value : Nat) (count : Nat) (small : value < 16 ^ (count + 1)) :
    (number value).length ≤ count + 1 := by
  induction count generalizing value with
  | zero =>
      have tiny : value < 16 := small
      rw [number, if_pos tiny]
      exact Nat.le_refl 1
  | succ count inductionStep =>
      rw [number]
      split
      · exact Nat.le_add_left 1 _
      · have shorter : value / 16 < 16 ^ (count + 1) := by
          rw [Nat.pow_succ] at small
          omega
        have length := inductionStep (value / 16) shorter
        rw [List.length_append, List.length_singleton]
        omega

theorem ne_of_mem_number {value : Nat} {character : Char} (member : character ∈ number value) :
    character ≠ ':' ∧ character ≠ '.' := by
  induction value using number.induct with
  | case1 value small =>
      rw [number, if_pos small, List.mem_singleton] at member
      rw [member]
      exact ⟨(digit_ne value small).1, (digit_ne value small).2.1⟩
  | case2 value large inductionStep =>
      rw [number, if_neg large, List.mem_append, List.mem_singleton] at member
      rcases member with before | here
      · exact inductionStep before
      · have other := digit_ne (value % 16) (Nat.mod_lt _ (by decide))
        rw [here]
        exact ⟨other.1, other.2.1⟩

end Hex

namespace Net

namespace Ipv4

theorem octet?_toDigits : ∀ value : Fin 256,
    octet? (Nat.toDigits 10 value.val) = some value.val.toUInt8 := by
  decide +kernel

theorem octet?_toString (octet : UInt8) : octet? (toString octet.toNat).toList = some octet := by
  have small : octet.toNat < 256 := octet.toNat_lt
  have read := octet?_toDigits ⟨octet.toNat, small⟩
  rw [Nat.toString_eq_ofList_toDigits, String.toList_ofList, read]
  congr 1
  exact UInt8.ofNat_toNat

theorem isDigit_of_octet? {digits : List Char} {octet : UInt8} (read : octet? digits = some octet)
    {character : Char} (member : character ∈ digits) : character.isDigit = true := by
  unfold octet? at read
  split at read
  · cases read
  · next proper =>
      simp only [not_or, Decidable.not_not] at proper
      exact List.all_eq_true.mp proper.2.2 character member

/-- Nothing but digits and points is read as an address of version 4. -/
theorem isDigit_of_read? {text : List Char} {address : Ipv4} (read : read? text = some address)
    {character : Char} (member : character ∈ text) :
    character = '.' ∨ character.isDigit = true := by
  rw [← Text.join_split '.' text] at member
  unfold read? at read
  split at read
  · next first second third fourth pieces =>
      simp only [Option.bind_eq_bind, Option.bind_eq_some_iff] at read
      rcases read with ⟨_, one, _, two, _, three, _, four, _⟩
      rw [pieces] at member
      rcases Text.mem_join member with point | ⟨piece, listed, inside⟩
      · exact Or.inl point
      · simp only [List.mem_cons, List.not_mem_nil, or_false] at listed
        right
        rcases listed with rfl | rfl | rfl | rfl
        · exact isDigit_of_octet? one inside
        · exact isDigit_of_octet? two inside
        · exact isDigit_of_octet? three inside
        · exact isDigit_of_octet? four inside
  · cases read

theorem read?_of_colon {text : List Char} (colon : ':' ∈ text) : read? text = none := by
  cases read : read? text with
  | none => rfl
  | some address =>
      rcases isDigit_of_read? read colon with point | digit
      · exact absurd point (by decide)
      · exact absurd digit (by decide)

theorem read?_text (address : Ipv4) : read? address.text = some address := by
  have split : Text.split '.' address.text =
      [address.first, address.second, address.third, address.fourth].map
        fun octet => (toString octet.toNat).toList := by
    apply Text.split_join
    · exact List.cons_ne_nil _ _
    · intro piece listed point
      rcases List.mem_map.mp listed with ⟨octet, _, rfl⟩
      exact absurd (isDigit_of_octet? (octet?_toString octet) point) (by decide)
  rw [read?, split]
  simp only [List.map_cons, List.map_nil, octet?_toString]
  rfl

theorem colon_notMem_text (address : Ipv4) : ':' ∉ address.text := by
  intro colon
  have none := read?_of_colon colon
  rw [read?_text] at none
  cases none

theorem groups_ofGroups (high low : UInt16) : (ofGroups high low).groups = [high, low] := by
  have halves : ∀ group : UInt16,
      (group / 256).toUInt8.toUInt16 * 256 + group.toUInt8.toUInt16 = group := by
    intro group
    have small := group.toNat_lt
    apply UInt16.toNat_inj.mp
    simp
    omega
  simp only [groups, ofGroups, halves]

end Ipv4

namespace Ipv6

theorem group?_number (group : UInt16) : group? (Hex.number group.toNat) = some group := by
  have small : group.toNat < 16 ^ (3 + 1) := group.toNat_lt
  have some : (Hex.number group.toNat).isEmpty = false := by
    rw [List.isEmpty_eq_false_iff]
    exact Hex.number_ne_nil _
  have short : ¬ 4 < (Hex.number group.toNat).length :=
    Nat.not_lt.mpr (Hex.length_number_le group.toNat 3 small)
  rcases Hex.mapM_number group.toNat with ⟨values, read, equal⟩
  unfold group?
  rw [some, read]
  simp only [Bool.false_eq_true, short, or_self, if_false, Option.bind_eq_bind,
    Option.bind_some, Option.pure_def]
  congr 1
  change (Hex.valueOf values).toUInt16 = group
  rw [equal]
  exact UInt16.ofNat_toNat

theorem pieces?_numbers (octetsAllowed : Bool) (groups : List UInt16) :
    pieces? octetsAllowed (groups.map fun group => Hex.number group.toNat) = some groups := by
  induction groups with
  | nil => rfl
  | cons group groups inductionStep =>
      cases groups with
      | nil =>
          have none : Ipv4.read? (Hex.number group.toNat) = none := by
            have absent : '.' ∉ Hex.number group.toNat :=
              fun point => (Hex.ne_of_mem_number point).2 rfl
            rw [Ipv4.read?, Text.split_of_notMem absent]
          rw [List.map_singleton, pieces?, none, group?_number]
          cases octetsAllowed <;> rfl
      | cons next rest =>
          rw [List.map_cons] at inductionStep ⊢
          rw [List.map_cons, pieces?, group?_number, inductionStep]
          · rfl
          · exact List.cons_ne_nil _ _

theorem plain_of_mem_numbers {groups : List UInt16} {piece : List Char}
    (listed : piece ∈ groups.map fun group => Hex.number group.toNat) :
    piece ≠ [] ∧ ':' ∉ piece := by
  rcases List.mem_map.mp listed with ⟨group, _, rfl⟩
  exact ⟨Hex.number_ne_nil _, fun colon => (Hex.ne_of_mem_number colon).1 rfl⟩

theorem run?_groupsText (octetsAllowed : Bool) (groups : List UInt16) :
    run? octetsAllowed (groupsText groups) = some groups := by
  cases groups with
  | nil => rfl
  | cons group groups =>
      have split : Text.split ':' (groupsText (group :: groups)) =
          (group :: groups).map fun group => Hex.number group.toNat := by
        apply Text.split_join
        · exact List.cons_ne_nil _ _
        · exact fun piece listed => (plain_of_mem_numbers listed).2
      have some : (groupsText (group :: groups)).isEmpty = false := by
        rw [List.isEmpty_eq_false_iff]
        intro none
        rw [none] at split
        have first := Hex.number_ne_nil group.toNat
        rw [List.map_cons, Text.split, List.cons.injEq] at split
        exact first split.1.symm
      rw [run?, some, split]
      exact pieces?_numbers octetsAllowed (group :: groups)

theorem cutGap_append {piece : List Char} (absent : ':' ∉ piece) (tail : List Char) :
    cutGap (piece ++ tail) = (cutGap tail).map fun cut => (piece ++ cut.1, cut.2) := by
  induction piece with
  | nil => simp
  | cons first piece inductionStep =>
      rw [List.mem_cons, not_or] at absent
      rw [List.cons_append, cutGap, inductionStep absent.2, Option.map_map]
      · rfl
      · intro rest same
        exact absurd same.symm absent.1

/-- No gap is found in groups between single colons. -/
theorem cutGap_join {pieces : List (List Char)}
    (plain : ∀ piece ∈ pieces, piece ≠ [] ∧ ':' ∉ piece) (tail : List Char) :
    cutGap (Text.join ':' pieces ++ tail) =
      (cutGap tail).map fun cut => (Text.join ':' pieces ++ cut.1, cut.2) := by
  induction pieces with
  | nil => simp [Text.join]
  | cons piece pieces inductionStep =>
      have absent := (plain piece List.mem_cons_self).2
      cases pieces with
      | nil => exact cutGap_append absent tail
      | cons next rest =>
          have later := inductionStep fun other listed =>
            plain other (List.mem_cons_of_mem _ listed)
          rcases plain next (List.mem_cons_of_mem _ List.mem_cons_self) with ⟨some, free⟩
          rcases Text.join_cons_eq some rest with ⟨character, more, begun⟩
          have other : ¬ character = ':' := by
            intro same
            rw [same] at begun
            exact free begun.1
          rw [Text.join_cons_cons, List.append_assoc, cutGap_append absent, List.cons_append]
          rw [begun.2] at later ⊢
          rw [List.cons_append] at later ⊢
          rw [cutGap, later, Option.map_map, Option.map_map]
          · congr 1
            funext cut
            simp
          · intro rest _ same
            injection same with same
            exact absurd same other

theorem read?_groupsText {groups : List UInt16} (length_eq : groups.length = 8) :
    read? (groupsText groups) = some ⟨groups, length_eq⟩ := by
  have none : cutGap (groupsText groups) = none := by
    have cut := cutGap_join (fun _ (listed : _ ∈ groups.map _) => plain_of_mem_numbers listed) []
    rw [List.append_nil] at cut
    exact cut
  rw [read?, none]
  simp only [run?_groupsText, Option.bind_eq_bind, Option.bind_some, ofGroups?, dif_pos length_eq]

/-- Groups with a gap are read with as many zeros as are missing. -/
theorem read?_gap (high low : List UInt16) (gap : Nat) (some : 0 < gap)
    (length_eq : (high ++ List.replicate gap 0 ++ low).length = 8) :
    read? (groupsText high ++ [':', ':'] ++ groupsText low) =
      Option.some ⟨high ++ List.replicate gap 0 ++ low, length_eq⟩ := by
  have cut : cutGap (groupsText high ++ [':', ':'] ++ groupsText low) =
      Option.some (groupsText high, groupsText low) := by
    rw [List.append_assoc, groupsText, cutGap_join fun _ listed => plain_of_mem_numbers listed]
    simp [cutGap]
  have length := length_eq
  rw [List.length_append, List.length_append, List.length_replicate] at length
  have missing : 8 - high.length - low.length = gap := by omega
  have few : ¬ 7 < high.length + low.length := by omega
  rw [read?, cut]
  simp only [run?_groupsText, Option.bind_eq_bind, Option.bind_some, if_neg few, missing,
    ofGroups?, dif_pos length_eq]

/-- The groups are those before a run of zeros, the zeros, and those behind them. -/
theorem split_zeros (groups : List UInt16) (position : Nat) :
    groups.take position ++ List.replicate (zerosFrom groups position) 0 ++
      groups.drop (position + zerosFrom groups position) = groups := by
  have zeros : (groups.drop position).takeWhile (fun group => decide (group = 0)) =
      List.replicate (zerosFrom groups position) 0 := by
    apply List.eq_replicate_iff.mpr
    refine ⟨rfl, fun group listed => ?_⟩
    exact of_decide_eq_true (List.all_eq_true.mp List.all_takeWhile group listed)
  have front := List.prefix_iff_eq_take.mp
    (List.takeWhile_prefix (fun group : UInt16 => decide (group = 0)) (l := groups.drop position))
  rw [zeros, List.length_replicate] at front
  rw [front, List.append_assoc, ← List.drop_drop, List.take_append_drop, List.take_append_drop]

theorem read?_text (address : Ipv6) : read? address.text = some address := by
  rcases address with ⟨groups, length_eq⟩
  unfold text
  split
  · next high low equal =>
      simp only at equal
      subst equal
      have cut : cutGap ("::ffff:".toList ++ (Ipv4.ofGroups high low).text) =
          some ([], "ffff".toList ++ ':' :: (Ipv4.ofGroups high low).text) := rfl
      have free : ':' ∉ "ffff".toList := by decide
      have pieces : Text.split ':' ("ffff".toList ++ ':' :: (Ipv4.ofGroups high low).text) =
          ["ffff".toList, (Ipv4.ofGroups high low).text] := by
        rw [Text.split_append free, Text.split_of_notMem (Ipv4.colon_notMem_text _)]
      have run : run? true ("ffff".toList ++ ':' :: (Ipv4.ofGroups high low).text) =
          some [0xFFFF, high, low] := by
        have group : group? "ffff".toList = some 0xFFFF := by decide
        have octets := Ipv4.groups_ofGroups high low
        rw [run?, pieces]
        simp only [pieces?, group, Ipv4.read?_text, octets, if_true]
        rfl
      rw [read?, cut]
      simp only [run]
      rfl
  · next other =>
      simp only
      split
      · next some =>
          have whole := split_zeros groups (longestZeros groups)
          have same : (⟨groups, length_eq⟩ : Ipv6) = ⟨_, whole.symm ▸ length_eq⟩ := by
            simp only [whole]
          rw [same]
          exact read?_gap _ _ _ (Nat.lt_of_succ_lt some) _
      · exact read?_groupsText length_eq

theorem colon_mem_text (address : Ipv6) : ':' ∈ address.text := by
  rcases address with ⟨groups, length_eq⟩
  unfold text
  split
  · exact List.mem_append_left _ (by decide)
  · simp only
    split
    · exact List.mem_append_left _ (List.mem_append_right _ List.mem_cons_self)
    · match groups with
      | first :: second :: rest =>
          rw [groupsText, List.map_cons, List.map_cons, Text.join_cons_cons]
          exact List.mem_append_right _ List.mem_cons_self
      | [_] => cases length_eq
      | [] => cases length_eq

end Ipv6

namespace IpAddress

theorem read?_text (address : IpAddress) : read? address.text = some address := by
  cases address with
  | v4 address => rw [read?, text, String.toList_ofList, Ipv4.read?_text]
  | v6 address =>
      have none := Ipv4.read?_of_colon address.colon_mem_text
      rw [read?, text, String.toList_ofList, none, Ipv6.read?_text]
      rfl

end IpAddress
end Net
end MailVault
