import MailVault.Bytes

/-!
# Payloads in stored blocks

A payload is a zlib stream: two header bytes, blocks that hold their data as it
is, and a checksum.  The compression level is recorded in the header.  Reading a
payload checks the header, the length of every block against its complement and
the checksum at the end, so that only a whole stream is taken.
-/

namespace MailVault
namespace Store
namespace Deflate

def blockLimit : Nat := 65535

/-- The second header byte, which tells how hard the writer tried. -/
def levelByte (level : Nat) : UInt8 :=
  if level < 2 then 0x01 else if level < 6 then 0x5E else if level = 6 then 0x9C else 0xDA

/-- The two running sums over the bytes of a stream. -/
def sums (data : Bytes) : Nat × Nat :=
  data.foldl
    (fun (low, high) byte =>
      let low := (low + byte.toNat) % 65521
      (low, (high + low) % 65521))
    (1, 0)

/-- Two bytes of a number, the least significant one first. -/
def littleEndian (number : Nat) : Bytes :=
  [(number % 256).toUInt8, (number / 256 % 256).toUInt8]

/-- Two bytes of a number, the most significant one first. -/
def bigEndian (number : Nat) : Bytes :=
  [(number / 256 % 256).toUInt8, (number % 256).toUInt8]

/-- The checksum of the data, in four bytes. -/
def checksum (data : Bytes) : Bytes :=
  let (low, high) := sums data
  bigEndian high ++ bigEndian low

/-- One block: whether it is the last one, its length with the complement, and its data. -/
def block (last : Bool) (data : Bytes) : Bytes :=
  (if last then 1 else 0) :: littleEndian data.length ++
    littleEndian (blockLimit - data.length) ++ data

def blocks (data : Bytes) : Bytes :=
  if data.length ≤ blockLimit then block true data
  else block false (data.take blockLimit) ++ blocks (data.drop blockLimit)
termination_by data.length
decreasing_by simp [blockLimit] at *; omega

/-- The payload of some data. -/
def deflate (level : Nat) (data : Bytes) : Bytes :=
  0x78 :: levelByte level :: (blocks data ++ checksum data)

/-- The data of the blocks at the front of a stream, and what follows the last one. -/
def readBlocks (stream : Bytes) : Option (Bytes × Bytes) :=
  match stream with
  | final :: low :: high :: lowComplement :: highComplement :: rest =>
    let length := low.toNat + 256 * high.toNat
    if 1 < final then none
    else if length + (lowComplement.toNat + 256 * highComplement.toNat) ≠ blockLimit then none
    else if rest.length < length then none
    else if final = 1 then some (rest.take length, rest.drop length)
    else
      (readBlocks (rest.drop length)).map fun (data, after) => (rest.take length ++ data, after)
  | _ => none
termination_by stream.length
decreasing_by
  simp only [List.length_drop, List.length_cons]
  omega

/-- The data of a payload, if it is a whole stream. -/
def inflate (payload : Bytes) : Option Bytes :=
  match payload with
  | method :: flags :: rest =>
    if method ≠ 0x78 ∨ (method.toNat * 256 + flags.toNat) % 31 ≠ 0 then none
    else
      match readBlocks rest with
      | some (data, after) => if after = checksum data then some data else none
      | none => none
  | _ => none

theorem length_of_littleEndian {number : Nat} (small : number ≤ blockLimit) :
    (number % 256).toUInt8.toNat + 256 * (number / 256 % 256).toUInt8.toNat = number := by
  simp only [blockLimit] at small
  have low : (number % 256).toUInt8.toNat = number % 256 := by
    simp [Nat.toUInt8]
  have high : (number / 256 % 256).toUInt8.toNat = number / 256 % 256 := by
    simp [Nat.toUInt8]
  rw [low, high]
  omega

/-- Reading takes exactly the written blocks off the front of a stream. -/
theorem readBlocks_blocks (data after : Bytes) :
    readBlocks (blocks data ++ after) = some (data, after) := by
  fun_induction blocks data with
  | case1 data small =>
    have length := length_of_littleEndian small
    have complement := length_of_littleEndian (Nat.sub_le blockLimit data.length)
    simp only [block, littleEndian, List.cons_append, List.nil_append]
    rw [readBlocks]
    simp only [length, complement, Nat.add_sub_cancel' small]
    simp
  | case2 data large next =>
    have taken : (data.take blockLimit).length = blockLimit := by
      rw [List.length_take]
      omega
    have length := length_of_littleEndian (Nat.le_refl blockLimit)
    simp only [block, littleEndian, List.cons_append, List.nil_append, List.append_assoc, taken]
    rw [readBlocks]
    simp only [length, Nat.sub_self]
    have front : ∀ rest : Bytes, (data.take blockLimit ++ rest).take blockLimit =
        data.take blockLimit := by
      intro rest
      rw [List.take_append_of_le_length (by omega), List.take_of_length_le (by omega)]
    have back : ∀ rest : Bytes, (data.take blockLimit ++ rest).drop blockLimit = rest := by
      intro rest
      rw [List.drop_append_of_le_length (by omega), List.drop_of_length_le (by omega)]
      rfl
    have room : ∀ rest : Bytes, ¬ (data.take blockLimit ++ rest).length < blockLimit := by
      intro rest
      rw [List.length_append]
      omega
    simp only [Bool.false_eq_true, if_false, front, back, room, next]
    simp

/-- A payload gives back the data it was made of, whatever the level. -/
theorem inflate_deflate (level : Nat) (data : Bytes) :
    inflate (deflate level data) = some data := by
  have header : (UInt8.toNat 0x78 * 256 + (levelByte level).toNat) % 31 = 0 := by
    simp only [levelByte]
    split
    · decide
    · split
      · decide
      · split <;> decide
  simp only [inflate, deflate, readBlocks_blocks, header]
  simp

end Deflate
end Store
end MailVault
