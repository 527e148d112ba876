/-!
# Byte strings and their hexadecimal text

A message, a chunk and a digest are all finite lists of bytes.  The hexadecimal
text written here is the canonical one: two lower-case digits for each byte,
in order, and nothing else.
-/

namespace MailVault

/-- A finite sequence of bytes. -/
abbrev Bytes := List UInt8

namespace Hex

/-- The lower-case digit of a value below sixteen. -/
def digit (value : Nat) : Char :=
  if value < 10 then Char.ofNat (48 + value) else Char.ofNat (87 + value)

/-- The value of a hexadecimal digit of either case. -/
def value? (digit : Char) : Option Nat :=
  let code := digit.toNat
  if 48 ≤ code ∧ code ≤ 57 then some (code - 48)
  else if 97 ≤ code ∧ code ≤ 102 then some (code - 87)
  else if 65 ≤ code ∧ code ≤ 70 then some (code - 55)
  else none

/-- A number without leading zeros, in lower-case digits. -/
def number (value : Nat) : List Char :=
  if value < 16 then [digit value]
  else number (value / 16) ++ [digit (value % 16)]
termination_by value
decreasing_by omega

end Hex

namespace Bytes

/-- The two digits of each byte, in order. -/
def toHexDigits (bytes : Bytes) : List Char :=
  bytes.flatMap fun byte => [Hex.digit (byte.toNat / 16), Hex.digit (byte.toNat % 16)]

/-- The canonical hexadecimal text of a byte string. -/
def toHex (bytes : Bytes) : String :=
  String.ofList bytes.toHexDigits

/-- The bytes of a text in UTF-8. -/
def ofText (text : String) : Bytes :=
  text.toUTF8.toList

end Bytes

end MailVault
