import MailVault.Bytes
import MailVault.Text.Pieces

/-!
# Internet addresses and their text

An address of version 4 is written as four decimal octets.  An address of version
6 is eight groups of sixteen bits in hexadecimal; two colons stand for a run of
zero groups, and the last two groups may be written as an address of version 4.

Reading takes every such text.  Writing chooses one of them: the first longest
run of at least two zero groups is left out, digits are lower-case without
leading zeros, and only an address that maps one of version 4 ends in octets.
-/

namespace MailVault
namespace Net

/-- Four octets. -/
structure Ipv4 where
  first : UInt8
  second : UInt8
  third : UInt8
  fourth : UInt8
deriving DecidableEq

/-- Eight groups of sixteen bits. -/
structure Ipv6 where
  groups : List UInt16
  length_eq : groups.length = 8
deriving DecidableEq

/-- An address of either version. -/
inductive IpAddress where
  | v4 (address : Ipv4)
  | v6 (address : Ipv6)
deriving DecidableEq

namespace Ipv4

/-- The value of a non-empty row of decimal digits. -/
def decimalValue (digits : List Char) : Nat :=
  digits.foldl (fun sum digit => 10 * sum + (digit.toNat - 48)) 0

/-- One octet: one to three digits without a leading zero, at most 255. -/
def octet? (digits : List Char) : Option UInt8 :=
  if digits.isEmpty ∨ 3 < digits.length ∨ ¬ digits.all Char.isDigit then none
  else if digits.head? = some '0' ∧ 1 < digits.length then none
  else if 255 < decimalValue digits then none
  else some (decimalValue digits).toUInt8

/-- Read four octets between three points. -/
def read? (text : List Char) : Option Ipv4 :=
  match Text.split '.' text with
  | [first, second, third, fourth] => do
    return ⟨← octet? first, ← octet? second, ← octet? third, ← octet? fourth⟩
  | _ => none

def text (address : Ipv4) : List Char :=
  Text.join '.' ([address.first, address.second, address.third, address.fourth].map
    fun octet => (toString octet.toNat).toList)

/-- The two groups that the octets fill. -/
def groups (address : Ipv4) : List UInt16 :=
  [address.first.toUInt16 * 256 + address.second.toUInt16,
   address.third.toUInt16 * 256 + address.fourth.toUInt16]

def ofGroups (high low : UInt16) : Ipv4 :=
  ⟨(high / 256).toUInt8, high.toUInt8, (low / 256).toUInt8, low.toUInt8⟩

end Ipv4

namespace Ipv6

/-- One group: one to four hexadecimal digits. -/
def group? (digits : List Char) : Option UInt16 := do
  if digits.isEmpty ∨ 4 < digits.length then none
  let values ← digits.mapM Hex.value?
  return (values.foldl (fun sum value => 16 * sum + value) 0).toUInt16

/-- Groups between single colons; the last piece may hold octets. -/
def pieces? (octetsAllowed : Bool) : List (List Char) → Option (List UInt16)
  | [] => some []
  | [last] =>
    if octetsAllowed then
      match Ipv4.read? last with
      | some address => some address.groups
      | none => (group? last).map ([·])
    else (group? last).map ([·])
  | piece :: rest => do
    return (← group? piece) :: (← pieces? octetsAllowed rest)

/-- The groups of a text between single colons, of which the empty text has none. -/
def run? (octetsAllowed : Bool) (text : List Char) : Option (List UInt16) :=
  if text.isEmpty then some [] else pieces? octetsAllowed (Text.split ':' text)

/-- What stands before and after the first two colons that follow each other. -/
def cutGap : List Char → Option (List Char × List Char)
  | ':' :: ':' :: rest => some ([], rest)
  | first :: rest => (cutGap rest).map fun (before, after) => (first :: before, after)
  | [] => none

/-- Eight groups as an address. -/
def ofGroups? (groups : List UInt16) : Option Ipv6 :=
  if length_eq : groups.length = 8 then some ⟨groups, length_eq⟩ else none

/-- Read eight groups, of which two colons may stand for one or more that are zero. -/
def read? (text : List Char) : Option Ipv6 :=
  match cutGap text with
  | none => do ofGroups? (← run? true text)
  | some (before, after) => do
    let high ← run? false before
    let low ← run? true after
    if 7 < high.length + low.length then none
    ofGroups? (high ++ List.replicate (8 - high.length - low.length) 0 ++ low)

/-- The number of zero groups in a row from a position on. -/
def zerosFrom (groups : List UInt16) (position : Nat) : Nat :=
  ((groups.drop position).takeWhile fun group => decide (group = 0)).length

/-- Where the first longest run of zero groups begins. -/
def longestZeros (groups : List UInt16) : Nat :=
  (List.range groups.length).foldl
    (fun best position =>
      if zerosFrom groups best < zerosFrom groups position then position else best) 0

def groupsText (groups : List UInt16) : List Char :=
  Text.join ':' (groups.map fun group => Hex.number group.toNat)

def text (address : Ipv6) : List Char :=
  match address.groups with
  | [0, 0, 0, 0, 0, 0xFFFF, high, low] =>
    "::ffff:".toList ++ (Ipv4.ofGroups high low).text
  | groups =>
    let position := longestZeros groups
    let count := zerosFrom groups position
    if 1 < count then
      groupsText (groups.take position) ++ [':', ':'] ++ groupsText (groups.drop (position + count))
    else groupsText groups

end Ipv6

namespace IpAddress

def read? (text : String) : Option IpAddress :=
  match Ipv4.read? text.toList with
  | some address => some (.v4 address)
  | none => (Ipv6.read? text.toList).map .v6

def text : IpAddress → String
  | .v4 address => String.ofList address.text
  | .v6 address => String.ofList address.text

end IpAddress
end Net
end MailVault
