import MailVault.Blake3.Hasher

/-!
# Digests

A digest is thirty-two bytes.  Its text is the canonical hexadecimal one;
reading is more liberal, since either case of a digit is taken and a pair of
characters may also be a plus sign with one digit.  Digests are ordered as
their byte strings are.
-/

namespace MailVault

/-- The name of a chunk: the hash of its bytes. -/
structure Digest where
  bytes : Bytes
  length_eq : bytes.length = 32
deriving DecidableEq

namespace Digest

/-- The digest with exactly these bytes, if they are thirty-two. -/
def ofBytes? (bytes : Bytes) : Option Digest :=
  if length_eq : bytes.length = 32 then some ⟨bytes, length_eq⟩ else none

/-- The hash of a byte string. -/
def of (content : Bytes) : Digest :=
  ⟨Blake3.digest content, Blake3.length_digest content⟩

/-- The hash of all that a hasher has taken in. -/
def ofHasher (hasher : Blake3.Hasher) : Digest :=
  ⟨hasher.finalize, hasher.length_finalize⟩

def toHex (digest : Digest) : String :=
  digest.bytes.toHex

/-- The value of two characters: two digits, or a plus sign and one digit. -/
def pairValue? (first second : Char) : Option UInt8 := do
  if first = '+' then
    return (← Hex.value? second).toUInt8
  return (16 * (← Hex.value? first) + (← Hex.value? second)).toUInt8

/-- The bytes of a text that consists of pairs of characters. -/
def pairs? : List Char → Option Bytes
  | [] => some []
  | first :: second :: rest => do
    return (← pairValue? first second) :: (← pairs? rest)
  | [_] => none

/-- Read a digest from sixty-four characters. -/
def ofHex? (text : String) : Option Digest := do
  ofBytes? (← pairs? text.toList)

instance : LT Digest where
  lt left right := left.bytes < right.bytes

instance : LE Digest where
  le left right := left.bytes ≤ right.bytes

instance (left right : Digest) : Decidable (left < right) :=
  inferInstanceAs (Decidable (left.bytes < right.bytes))

instance (left right : Digest) : Decidable (left ≤ right) :=
  inferInstanceAs (Decidable (left.bytes ≤ right.bytes))

/-- The digests in ascending order, repetitions kept. -/
def sorted (digests : List Digest) : List Digest :=
  digests.mergeSort fun left right => decide (left ≤ right)

end Digest
end MailVault
