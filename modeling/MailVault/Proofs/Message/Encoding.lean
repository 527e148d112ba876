import MailVault.Message.Encoding
import MailVault.Proofs.Net.IpAddress

/-!
# Records read back from their values

What is written of a digest, a descriptor, a manifest or a record is read as the same
thing.  The canonical texts of digests and addresses are among those that reading
takes, and every field of an object is found under its own name.
-/

namespace MailVault

open Json

namespace Digest

theorem pairValue?_digits (byte : UInt8) :
    pairValue? (Hex.digit (byte.toNat / 16)) (Hex.digit (byte.toNat % 16)) = some byte := by
  have small : byte.toNat < 256 := byte.toNat_lt
  have high : byte.toNat / 16 < 16 := by omega
  have low : byte.toNat % 16 < 16 := Nat.mod_lt _ (by decide)
  have plain := (Hex.digit_ne _ high).2.2
  unfold pairValue?
  rw [if_neg plain, Hex.value?_digit _ high, Hex.value?_digit _ low]
  simp only [Option.bind_eq_bind, Option.bind_some, Option.pure_def, Nat.div_add_mod]
  congr 1
  exact UInt8.ofNat_toNat

theorem pairs?_toHexDigits (bytes : Bytes) : pairs? bytes.toHexDigits = some bytes := by
  induction bytes with
  | nil => rfl
  | cons byte bytes inductionStep =>
      have digits : Bytes.toHexDigits (byte :: bytes) =
          Hex.digit (byte.toNat / 16) :: Hex.digit (byte.toNat % 16) ::
            Bytes.toHexDigits bytes := rfl
      rw [digits, pairs?, pairValue?_digits, inductionStep]
      rfl

theorem ofHex?_toHex (digest : Digest) : ofHex? digest.toHex = some digest := by
  rw [ofHex?, toHex, Bytes.toHex, String.toList_ofList, pairs?_toHexDigits]
  simp only [Option.bind_eq_bind, Option.bind_some, ofBytes?, dif_pos digest.length_eq]

end Digest

namespace Json.Read

theorem natural_int (value : Nat) : natural (.int value) = .ok value := by
  have positive : ¬ (value : Int) < 0 := Int.not_lt.mpr (Int.natCast_nonneg value)
  rw [natural, if_neg positive, Int.toNat_natCast]

theorem digest_toValue (digest : Digest) : Read.digest digest.toValue = .ok digest := by
  have read := Digest.ofHex?_toHex digest
  simp only [Read.digest, Digest.toValue, text, bind, Except.bind, read]

theorem address_text (address : Net.IpAddress) :
    Read.address (.text address.text) = .ok address := by
  rw [Read.address, Net.IpAddress.read?_text]

end Json.Read

theorem Json.Fields.get?_cons {α : Type} (entry : String × Value) (fields : Fields)
    (name : String) (reader : Reader α) :
    Fields.get? (entry :: fields) name reader =
      if name = entry.1 then (reader entry.2).map some else fields.get? name reader := by
  rcases entry with ⟨first, value⟩
  by_cases same : name = first
  · simp [Fields.get?, same]
  · have other : (name == first) = false := beq_false_of_ne same
    simp [Fields.get?, List.lookup_cons, same, other]

@[simp] theorem Json.Fields.get?_nil {α : Type} (name : String) (reader : Reader α) :
    Fields.get? [] name reader = .ok none := rfl

namespace Descriptor

theorem ofValue_toValue (descriptor : Descriptor) :
    ofValue descriptor.toValue = .ok descriptor := by
  rcases descriptor with ⟨digest, size, part, contentType⟩
  have hash := Read.digest_toValue digest
  have length := Read.natural_int size
  cases contentType with
  | none =>
      simp only [toValue, ofValue, ofFields, Fields.get?_cons, Fields.get?_nil, String.reduceEq,
        if_true, if_false, hash, length]
      rfl
  | some contentType =>
      simp only [toValue, ofValue, ofFields, Fields.get?_cons, Fields.get?_nil, List.cons_append,
        List.nil_append, String.reduceEq, if_true, if_false, hash, length]
      rfl

end Descriptor

namespace Manifest

theorem ofValue_toValue (manifest : Manifest) : ofValue manifest.toValue = .ok manifest := by
  rcases manifest with ⟨entries⟩
  have items : (entries.map Descriptor.toValue).mapM Descriptor.ofValue = .ok entries := by
    induction entries with
    | nil => rfl
    | cons descriptor entries inductionStep =>
        rw [List.map_cons, List.mapM_cons, Descriptor.ofValue_toValue, inductionStep]
        rfl
  rw [ofValue, toValue, Read.sequence, items]
  rfl

end Manifest

namespace MessageRecord

theorem ofValue_toValue (record : MessageRecord) : ofValue record.toValue = .ok record := by
  have id := Read.natural_int record.id.value
  have total := Read.natural_int record.totalBytes
  have manifest := Manifest.ofValue_toValue record.manifest
  cases record with
  | mk identifier sender helo recipient remoteIp mailFrom tls closed totalBytes chunks subject
      queueId headerTo headerFrom =>
      cases remoteIp with
      | none =>
          simp only [toValue, ofValue, ofFields, Fields.get?_cons, String.reduceEq, if_true,
            if_false, MessageId.toValue, MessageId.ofValue, id, total, manifest]
          rfl
      | some address =>
          have address := Read.address_text address
          simp only [toValue, ofValue, ofFields, Fields.get?_cons, String.reduceEq, if_true,
            if_false, MessageId.toValue, MessageId.ofValue, id, total, manifest, Read.nullable,
            address]
          rfl

end MessageRecord
end MailVault
